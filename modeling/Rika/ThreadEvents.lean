import Rika.ExecutorOperations
import Rika.ThreadCommands

namespace Rika.ThreadEvents

open Assignments (AssignmentRow Millis)
open ExecutorOperations (OperationRow)

structure AppendEventInput (Json : Type) where
  eventId : String
  idempotencyKey : String
  assignmentId : String
  assignmentGeneration : Nat
  leaseEpoch : Nat
  commandSequence : Option Nat
  event : Json

structure AppendRecoveredEventInput (Json : Type) extends AppendEventInput Json where
  executorInstanceId : String
  processIncarnation : String

/-- A row of `rika_hosted_thread_events`. -/
structure ThreadEvent (Json : Type) where
  ownerId : String
  threadId : String
  eventId : String
  idempotencyKey : String
  assignmentId : String
  executorInstanceId : String
  assignmentGeneration : Nat
  leaseEpoch : Nat
  sequence : Nat
  commitCursor : Nat
  commandSequence : Option Nat
  event : Json
  createdAt : Millis

/-- What a row of `rika_hosted_threads` has to do with its events. -/
structure ThreadRow where
  id : String
  ownerId : String
  nextEventSequence : Nat

variable {Json : Type}

def ThreadEvent.key (row : ThreadEvent Json) : String × String := (row.threadId, row.eventId)

structure EventDatabase (Json : Type) where
  threads : Table ThreadRow.id
  ownerCounters : Table OwnerCounter.ownerId
  events : Table (@ThreadEvent.key Json)

/-- What a transaction reads beside these tables; `insertable` tells whether the
fence trigger, the foreign keys and the checks let an event in. -/
structure Surroundings (Json : Type) where
  now : Millis
  assignments : List AssignmentRow
  operations : List (OperationRow Json)
  insertable : ThreadEvent Json → Bool

structure Origin where
  ownerId : String
  threadId : String
  executorInstanceId : String

def databaseError (cause : String) : HostedPersistenceError := ⟨.database, "PostgreSQL operation failed: " ++ cause⟩

/-- `eventEquivalent` of a stored event and of the input with its origin. -/
def equivalent [DecidableEq Json] (existing : ThreadEvent Json) (origin : Origin) (input : AppendEventInput Json) : Bool :=
  existing.ownerId = origin.ownerId && existing.threadId = origin.threadId && existing.eventId = input.eventId &&
    existing.idempotencyKey = input.idempotencyKey && existing.assignmentId = input.assignmentId &&
    existing.executorInstanceId = origin.executorInstanceId &&
    existing.assignmentGeneration = input.assignmentGeneration && existing.leaseEpoch = input.leaseEpoch &&
    existing.commandSequence = input.commandSequence && existing.event = input.event

def ThreadEvent.clashes (row other : ThreadEvent Json) : Bool :=
  (row.ownerId = other.ownerId && row.commitCursor = other.commitCursor) ||
    (row.threadId = other.threadId && row.idempotencyKey = other.idempotencyKey) ||
    (row.threadId = other.threadId && row.ownerId = other.ownerId && row.sequence = other.sequence)

namespace EventDatabase

variable (db : EventDatabase Json) (around : Surroundings Json)

def existingRows (threadId : String) (input : AppendEventInput Json) : List (ThreadEvent Json) :=
  db.events.select fun row =>
    row.threadId = threadId && (row.eventId = input.eventId || row.idempotencyKey = input.idempotencyKey)

theorem ownerId_allocated (counter : OwnerCounter) :
    { counter with nextCommitCursor := counter.nextCommitCursor + 1 }.ownerId = counter.ownerId := rfl

/-- `allocateCommitCursor`. -/
def allocateCommitCursor (ownerId : String) : Except HostedPersistenceError (Nat × EventDatabase Json) :=
  match db.ownerCounters.find ownerId with
  | none => .error (failure .invalidAuthority "Owner authority is not initialized")
  | some counter =>
    .ok
      (counter.nextCommitCursor,
        { db with
          ownerCounters :=
            db.ownerCounters.update (fun counter => counter.ownerId = ownerId)
              (fun counter => { counter with nextCommitCursor := counter.nextCommitCursor + 1 }) ownerId_allocated })

def allocateSequence (thread : ThreadRow) : EventDatabase Json :=
  { db with
    threads :=
      db.threads.update (fun row => row.id = thread.id)
        fun row => { row with nextEventSequence := row.nextEventSequence + 1 } }

def eventRow (origin : Origin) (input : AppendEventInput Json) (sequence commitCursor : Nat) : ThreadEvent Json where
  ownerId := origin.ownerId
  threadId := origin.threadId
  eventId := input.eventId
  idempotencyKey := input.idempotencyKey
  assignmentId := input.assignmentId
  executorInstanceId := origin.executorInstanceId
  assignmentGeneration := input.assignmentGeneration
  leaseEpoch := input.leaseEpoch
  sequence := sequence
  commitCursor := commitCursor
  commandSequence := input.commandSequence
  event := input.event
  createdAt := around.now

def insertEvent (row : ThreadEvent Json) : Except HostedPersistenceError (EventDatabase Json) :=
  if db.events.rows.any row.clashes || !around.insertable row then
    .error (databaseError "a constraint or a trigger of rika_hosted_thread_events refuses the row")
  else
    match db.events.insert row with
    | none => .error (databaseError "duplicate key value violates unique constraint")
    | some events => .ok { db with events }

variable [DecidableEq Json]

def recordEvent (thread : ThreadRow) (origin : Origin) (input : AppendEventInput Json) (collides : String) :
    Except HostedPersistenceError (ThreadEvent Json × EventDatabase Json) :=
  match db.existingRows origin.threadId input with
  | existing :: rest =>
    if rest ≠ [] then .error (failure .conflict collides)
    else if !equivalent existing origin input then
      .error (failure .conflict "Event identity or idempotency key was reused with different content")
    else .ok (existing, db)
  | [] => do
    let (commitCursor, allocated) ← (db.allocateSequence thread).allocateCommitCursor origin.ownerId
    let row := eventRow around origin input thread.nextEventSequence commitCursor
    let inserted ← allocated.insertEvent around row
    .ok (row, inserted)

def findThread (threadId ownerId : String) : Option ThreadRow :=
  (db.threads.find threadId).filter fun row => row.ownerId = ownerId

def fencedAssignment (input : AppendEventInput Json) : Option (ThreadRow × Origin) := do
  let assignment ← around.assignments.find? fun assignment =>
    assignment.id = input.assignmentId && assignment.generation = input.assignmentGeneration &&
      assignment.leaseEpoch = some input.leaseEpoch && assignment.lifecycle = .active &&
      assignment.leaseExpiresAt.any fun expires => around.now < expires
  let thread ← db.findThread assignment.threadId assignment.ownerId
  let executorInstanceId ← assignment.executorInstanceId
  return (thread, ⟨assignment.ownerId, assignment.threadId, executorInstanceId⟩)

def appendEvent (input : AppendEventInput Json) :
    Except HostedPersistenceError (ThreadEvent Json × EventDatabase Json) :=
  match db.fencedAssignment around input with
  | none => .error (failure .staleFence "Executor assignment is expired or fenced")
  | some (thread, origin) =>
    db.recordEvent around thread origin input "Event identity or idempotency key collides with multiple events"

def fencedOperation (input : AppendRecoveredEventInput Json) : Option (OperationRow Json) :=
  around.operations.find? fun operation =>
    operation.assignmentId = input.assignmentId && operation.operationKey = input.idempotencyKey &&
      (operation.state = .completed || operation.state = .unknown) &&
      operation.dispatchedGeneration = some input.assignmentGeneration &&
      operation.dispatchedLeaseEpoch = some input.leaseEpoch &&
      operation.dispatchedExecutorInstanceId = some input.executorInstanceId &&
      operation.dispatchedProcessIncarnation = some input.processIncarnation

def appendRecoveredEvent (input : AppendRecoveredEventInput Json) :
    Except HostedPersistenceError (ThreadEvent Json × EventDatabase Json) :=
  if input.eventId ≠ input.idempotencyKey then
    .error (failure .conflict "Recovered event identity must equal its operation key")
  else
    match around.assignments.find? fun assignment => assignment.id = input.assignmentId with
    | none => .error (failure .notFound "Executor assignment does not exist")
    | some assignment =>
      if (fencedOperation around input).isNone then
        .error (failure .staleFence "Recovered event does not match the dispatched operation fence")
      else
        match db.findThread assignment.threadId assignment.ownerId with
        | none => .error (failure .notFound "Thread does not exist in the organization")
        | some thread =>
          db.recordEvent around thread ⟨assignment.ownerId, assignment.threadId, input.executorInstanceId⟩
            input.toAppendEventInput "Recovered event identity collides with multiple events"

end EventDatabase

inductive Append (Json : Type)
  | event (input : AppendEventInput Json)
  | recovered (input : AppendRecoveredEventInput Json)

structure Request (Json : Type) where
  around : Surroundings Json
  append : Append Json

namespace EventDatabase

variable [DecidableEq Json]

section

variable (db : EventDatabase Json)

def serve (request : Request Json) :
    Except HostedPersistenceError (ThreadEvent Json × EventDatabase Json) :=
  match request.append with
  | .event input => db.appendEvent request.around input
  | .recovered input => db.appendRecoveredEvent request.around input

def next (request : Request Json) : EventDatabase Json :=
  ((db.serve request).toOption.map Prod.snd).getD db

def run (requests : List (Request Json)) : EventDatabase Json := requests.foldl next db

def start (threads : Table ThreadRow.id) (ownerCounters : Table OwnerCounter.ownerId) : EventDatabase Json :=
  ⟨threads.update (fun _ => true) (fun row => { row with nextEventSequence := 1 }), ownerCounters, Table.empty⟩

def eventsOf (threadId : String) : List (ThreadEvent Json) :=
  db.events.select fun row => row.threadId = threadId

end

end EventDatabase

end Rika.ThreadEvents
