import Rika.ThreadLog
import Rika.TurnStore

namespace Rika

/-- A timestamp as it is written, and what `Date.parse` makes of it. -/
structure Timestamp where
  text : String
  millis : Option Finite

inductive AdmissionStatus
  | accepted
  | queued
deriving DecidableEq

def AdmissionStatus.status : AdmissionStatus → Status
  | accepted => .accepted
  | queued => .queued

inductive CommandState
  | admitted
  | completed
deriving DecidableEq

inductive WorkState
  | turnActivationPending
  | turnActivationRequested
deriving DecidableEq

inductive CancelTarget
  | command (commandId : String)
  | other (json : String)
deriving DecidableEq

inductive CommandBody
  | submitPrompt (json : String)
  | cancel (target : CancelTarget)
  | other (json : String)
deriving DecidableEq

inductive CommandResult
  | applied
  | promptAdmitted (status : AdmissionStatus)
  | other (json : String)
deriving DecidableEq

structure PreparedTurn where
  threadId : String
  turnId : String
  titleExpected : Option String
  json : String
deriving DecidableEq

structure CommandClaim where
  token : String
  expiresAt : Finite

/-- A row of `rika_hosted_thread_protocol_commands`. -/
structure CommandRow where
  ownerId : String
  threadId : String
  commandId : String
  turnId : Option String
  idempotencyKey : String
  expectedVersion : Nat
  threadVersion : Nat
  commitCursor : Nat
  actor : String
  command : CommandBody
  state : CommandState
  workState : Option WorkState
  preparedTurn : Option PreparedTurn
  admissionStatus : Option AdmissionStatus
  cancelledByCommandId : Option String
  result : Option CommandResult
  eventCursor : Option Nat
  admittedAt : Timestamp
  completedAt : Option Timestamp
  claim : Option CommandClaim

namespace CommandBody

def isSubmitPrompt : CommandBody → Bool
  | submitPrompt _ => true
  | _ => false

/-- The command is a cancellation of the command `commandId`. -/
def cancels (body : CommandBody) (commandId : String) : Bool := body = .cancel (.command commandId)

end CommandBody

namespace CommandRow

def key (row : CommandRow) : String × String := (row.threadId, row.commandId)

theorem unclaimed_key (row : CommandRow) : { row with claim := none }.key = row.key := rfl

def Valid (row : CommandRow) : Prop :=
  (row.state = .admitted ∨ row.workState ≠ none ∨ row.claim = none) ∧
    (row.state = .admitted ∧ row.result = none ∧ row.eventCursor = none ∧ row.completedAt = none ∧
        row.workState = none ∧ row.admissionStatus = none ∧ row.cancelledByCommandId = none ∨
      row.state = .completed ∧ row.result ≠ none ∧ row.eventCursor ≠ none ∧ row.completedAt ≠ none) ∧
    (row.workState = none ∨ row.state = .completed ∧ row.turnId ≠ none ∧ row.admissionStatus ≠ none ∧
      row.preparedTurn ≠ none) ∧
    (row.cancelledByCommandId = none ∨ row.state = .completed ∧ row.cancelledByCommandId ≠ some row.commandId)

instance (row : CommandRow) : Decidable row.Valid := inferInstanceAs (Decidable (_ ∧ _))

def clashes (row other : CommandRow) : Bool :=
  (row.ownerId = other.ownerId && row.commitCursor = other.commitCursor) ||
    (row.threadId = other.threadId && row.idempotencyKey = other.idempotencyKey) ||
      (row.threadId = other.threadId && row.threadVersion = other.threadVersion) ||
        (row.turnId.isSome && row.turnId = other.turnId)

/-- No worker holds the command's claim at `now`. -/
def unclaimed (row : CommandRow) (now : Finite) : Bool := row.claim.all fun claim => claim.expiresAt ≤ now

/-- The claim is the one drawn as `token`, and still runs at `now`. -/
def claimedBy (row : CommandRow) (token : String) (now : Finite) : Bool :=
  row.claim.any fun claim => claim.token = token && claim.expiresAt > now

end CommandRow

inductive ExecutorKind
  | runner
  | managed
deriving DecidableEq

/-- A hosted thread: its row of `rika_hosted_threads`, and its protocol tables. -/
structure HostedThread (Json : Type) where
  id : String
  ownerId : String
  executorKind : ExecutorKind
  log : ThreadLog Json

/-- A row of `rika_threads`. -/
structure ProductThread where
  id : String
  ownerId : String
  title : String
  updatedAt : Finite

structure OwnerCounter where
  ownerId : String
  nextCommitCursor : Nat

structure HostedDatabase (Json : Type) where
  hostedThreads : Table (@HostedThread.id Json)
  productThreads : Table ProductThread.id
  ownerCounters : Table OwnerCounter.ownerId
  commands : Table CommandRow.key
  turnStore : TurnDatabase

inductive InteractiveEvent
  | threadTitled (threadId title : String)
  | submissionAdmitted (threadId turnId : String) (active : Bool) (submissionId : String)
  | other (json : String)

namespace HostedDatabase

variable {Json Snapshot : Type}

section

variable (db : HostedDatabase Json)

def state (ownerId threadId : String) : Option (ThreadLog Json × ProtocolState) :=
  ((db.hostedThreads.find threadId).filter fun thread => thread.ownerId = ownerId).bind fun thread =>
    thread.log.state.map fun state => (thread.log, state)

def setLog (threadId : String) (log : ThreadLog Json) : HostedDatabase Json :=
  { db with hostedThreads := db.hostedThreads.update (fun thread => thread.id = threadId) fun thread => { thread with log } }

def findCommand (ownerId threadId commandId : String) : Option CommandRow :=
  (db.commands.find (threadId, commandId)).filter fun row => row.ownerId = ownerId

/-- A write of the command table keeps its checks, and `turn_id` unique. -/
def writeCommands (commands : Table CommandRow.key) :
    Except HostedPersistenceError (HostedDatabase Json) :=
  if (∀ row ∈ commands.rows, row.Valid) ∧ ∀ row ∈ commands.rows, ∀ other ∈ commands.rows,
      row.turnId ≠ none → row.turnId = other.turnId → row.key = other.key then
    .ok { db with commands }
  else .error (databaseError "a check or a unique index of rika_hosted_thread_protocol_commands is violated")

/-- `UPDATE rika_hosted_thread_protocol_commands SET f` of one command. -/
def updateCommand (threadId commandId : String) (f : CommandRow → CommandRow)
    (hf : ∀ row, (f row).key = row.key := by intro _; rfl) : Except HostedPersistenceError (HostedDatabase Json) :=
  db.writeCommands (db.commands.update (fun row => row.key = (threadId, commandId)) f hf)

end

def ofTurnStore {α : Type} : Except TurnError α → Except HostedPersistenceError α
  | .ok a => .ok a
  | .error _ => .error (databaseError "a write of rika_turns was refused")

structure AdmitInput where
  ownerId : String
  threadId : String
  commandId : String
  turnId : Option String
  idempotencyKey : String
  actor : String
  command : CommandBody
  admittedAt : Timestamp

inductive CommandAdmission
  | admitted (command : CommandRow)
  | duplicate (command : CommandRow)

def readExisting (db : HostedDatabase Json) (input : AdmitInput) (expectedVersion : Option Nat) :
    Except HostedPersistenceError (Option CommandRow) :=
  match db.commands.select fun row => row.threadId = input.threadId &&
      (row.commandId = input.commandId || row.idempotencyKey = input.idempotencyKey) with
  | [] => .ok none
  | [existing] =>
    if existing.commandId ≠ input.commandId ∨ existing.idempotencyKey ≠ input.idempotencyKey ∨
        expectedVersion.any (fun version => existing.expectedVersion ≠ version) ∨ existing.actor ≠ input.actor ∨
          existing.command ≠ input.command then
      .error (failure .conflict "Command identity was reused with incompatible input")
    else .ok (some existing)
  | _ => .error (failure .conflict "Command identities refer to different commands")

def insertCommand (db : HostedDatabase Json) (row : CommandRow) :
    Except HostedPersistenceError (HostedDatabase Json) :=
  if db.commands.rows.any row.clashes then
    .error (databaseError "duplicate key value violates unique constraint")
  else
    match db.commands.insert row with
    | none => .error (databaseError "duplicate key value violates unique constraint")
    | some commands => db.writeCommands commands

def admittedRow (input : AdmitInput) (state : ProtocolState) (counter : OwnerCounter) : CommandRow where
  ownerId := input.ownerId
  threadId := input.threadId
  commandId := input.commandId
  turnId := input.turnId
  idempotencyKey := input.idempotencyKey
  expectedVersion := state.version
  threadVersion := state.version + 1
  commitCursor := counter.nextCommitCursor
  actor := input.actor
  command := input.command
  state := .admitted
  workState := none
  preparedTurn := none
  admissionStatus := none
  cancelledByCommandId := none
  result := none
  eventCursor := none
  admittedAt := input.admittedAt
  completedAt := none
  claim := none

/-- `admitCommand` when the client states the version it expects, and
`admitServerCommand` when it does not. -/
def admitCommand (access : Except HostedPersistenceError Unit) (db : HostedDatabase Json) (input : AdmitInput)
    (expectedVersion : Option Nat) : Except HostedPersistenceError (CommandAdmission × HostedDatabase Json) := do
  access
  match ← db.readExisting input expectedVersion with
  | some existing => .ok (.duplicate existing, db)
  | none =>
    match db.state input.ownerId input.threadId with
    | none => .error (failure .notFound "Thread protocol state is unavailable")
    | some (log, state) =>
      if expectedVersion.any fun version => state.version ≠ version then
        .error
          (failure .staleVersion
            s!"Expected Thread version {expectedVersion.getD 0}; current is {state.version}")
      else
        match db.ownerCounters.find input.ownerId with
        | none => .error (failure .invalidAuthority "Owner authority is not initialized")
        | some counter => do
          let row := admittedRow input state counter
          let ownerCounters := db.ownerCounters.update (fun counter => counter.ownerId = input.ownerId)
            fun counter => { counter with nextCommitCursor := counter.nextCommitCursor + 1 }
          let inserted ← insertCommand { db with ownerCounters } row
          .ok (.admitted row, inserted.setLog input.threadId log.advanceVersion)

/-- The command is admitted and unclaimed, and only the prompt it cancels is left before it. -/
def runnableCommand (db : HostedDatabase Json) (now : Finite) (row : CommandRow) : Bool :=
  row.state = .admitted && row.unclaimed now &&
    !db.commands.rows.any fun predecessor =>
      predecessor.threadId = row.threadId && predecessor.threadVersion < row.threadVersion &&
        predecessor.state = .admitted &&
          !(row.command.cancels predecessor.commandId && predecessor.command.isSubmitPrompt)

def candidateOrder (collation : Collation) (left right : CommandRow) : Ordering :=
  (compare (left.admittedAt.millis.getD 0) (right.admittedAt.millis.getD 0)).then
    ((collation.compare left.threadId right.threadId).then (compare left.threadVersion right.threadVersion))

/-- The first runnable command of every thread, the one admitted first in front. -/
def candidates (collation : Collation) (db : HostedDatabase Json) (now : Finite) : List CommandRow :=
  StableSort.toSorted (candidateOrder collation)
    ((db.hostedThreads.select fun thread => thread.log.state.isSome).filterMap fun thread =>
      (StableSort.toSorted (fun left right => compare left.threadVersion right.threadVersion)
        (db.commands.select fun row => row.threadId = thread.id && db.runnableCommand now row)).head?)

def claimNextCommand (collation : Collation) (db : HostedDatabase Json) (claimToken : String) (claimMillis now : Finite) :
    Except HostedPersistenceError (Option CommandRow × HostedDatabase Json) :=
  match (db.candidates collation now).head? with
  | none => .ok (none, db)
  | some selected => do
    let claim : CommandClaim := ⟨claimToken, now + claimMillis⟩
    let claimed ← db.updateCommand selected.threadId selected.commandId fun row => { row with claim := some claim }
    .ok (some { selected with claim := some claim }, claimed)

structure CommandClaimInput where
  ownerId : String
  threadId : String
  commandId : String
  claimToken : String

section

variable (db : HostedDatabase Json) (input : CommandClaimInput)

def renewCommandClaim (claimMillis now : Finite) :
    Except HostedPersistenceError (Bool × HostedDatabase Json) :=
  match (db.findCommand input.ownerId input.threadId input.commandId).filter fun row =>
      row.state = .admitted && row.claimedBy input.claimToken now with
  | none => .ok (false, db)
  | some _ => do
    let claim : CommandClaim := ⟨input.claimToken, now + claimMillis⟩
    let renewed ← db.updateCommand input.threadId input.commandId fun row => { row with claim := some claim }
    .ok (true, renewed)

def releaseCommandClaim : Except HostedPersistenceError (HostedDatabase Json) :=
  match (db.findCommand input.ownerId input.threadId input.commandId).filter fun row =>
      row.state = .admitted && row.claim.any fun claim => claim.token = input.claimToken with
  | none => .ok db
  | some _ => db.updateCommand input.threadId input.commandId (fun row => { row with claim := none })
      CommandRow.unclaimed_key

end

structure CompleteInput (Snapshot : Type) where
  ownerId : String
  threadId : String
  commandId : String
  claimToken : String
  result : CommandResult
  events : List InteractiveEvent
  snapshot : Option Snapshot
  completedAt : Timestamp

inductive CommandCompletion
  | completed (command : CommandRow)
  | duplicate (command : CommandRow)

section

variable (contract : Contract Json InteractiveEvent Snapshot) (projection : ProcessObservationProjection InteractiveEvent Snapshot)

def completionLog (log : ThreadLog Json) (state : ProtocolState)
    (input : CompleteInput Snapshot) : Except HostedPersistenceError (Nat × ThreadLog Json) := do
  let (events, log) ←
    log.writeEvents contract projection state.version (state.eventCursor + 1) input.events input.completedAt.text
  let cursor := (events.getLast?.map (·.cursor)).getD state.eventCursor
  let log := if input.events = [] then log else { log with state := some { state with eventCursor := cursor } }
  match input.snapshot with
  | none => .ok (cursor, log)
  | some snapshot =>
    let decision := ThreadLog.checkpointDue contract log cursor snapshot
    if decision.due then
      .ok
        (cursor,
          log.writeSnapshot contract projection state.version cursor snapshot input.completedAt.text
            decision.replayRequired)
    else .ok (cursor, log)

def completeCommand (db : HostedDatabase Json) (input : CompleteInput Snapshot) (now : Finite) :
    Except HostedPersistenceError (CommandCompletion × HostedDatabase Json) :=
  match db.state input.ownerId input.threadId with
  | none => .error (failure .notFound "Thread protocol state is unavailable")
  | some (log, state) =>
    match db.findCommand input.ownerId input.threadId input.commandId with
    | none => .error (failure .notFound "Command is unavailable")
    | some current =>
      if current.state = .completed then .ok (.duplicate current, db)
      else if current.claimedBy input.claimToken now = false then
        .error (failure .staleFence "Command application claim is expired or fenced")
      else do
        let (cursor, log) ← completionLog contract projection log state input
        let complete (row : CommandRow) : CommandRow :=
          { row with
            state := .completed
            result := some input.result
            eventCursor := some cursor
            completedAt := some input.completedAt
            claim := none }
        let completed ← db.updateCommand input.threadId input.commandId complete
        .ok (.completed (complete current), completed.setLog input.threadId log)

end

end HostedDatabase

end Rika
