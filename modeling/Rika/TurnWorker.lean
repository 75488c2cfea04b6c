import Rika.CommandApplication

namespace Rika

structure HostedTurnWorkerStoreError where
  message : String

structure ClaimRequest where
  workerId : String
  claimToken : String
  leaseMillis : Finite

structure TurnClaim where
  workerId : String
  claimToken : String
  expiresAt : Finite
  preparedExecution : PreparedTurn
  admissionLink : ExecutionLink
  activationRequested : Bool
  ownerId : String
  claimedAt : Finite
  queuedAt : Finite
  threadId : String
  turnId : String
deriving DecidableEq

inductive ActivationStatus
  | running
  | waiting
  | cancelling
  | completed
  | failed
  | cancelled

def ActivationStatus.status : ActivationStatus → Status
  | running => .running
  | waiting => .waiting
  | cancelling => .cancelling
  | completed => .completed
  | failed => .failed
  | cancelled => .cancelled

namespace HostedDatabase

variable {Json : Type}

def workerFailure {α : Type} (cause : String) : Except HostedTurnWorkerStoreError α :=
  .error ⟨"Turn worker store failed: " ++ cause⟩

def ofWrite {α ε : Type} : Except ε α → Except HostedTurnWorkerStoreError α
  | .ok a => .ok a
  | .error _ => workerFailure "a write was refused"

def activeLane (db : HostedDatabase Json) (turn : TurnRow) : Bool :=
  db.turnStore.turns.rows.any fun active =>
    active.threadId = turn.threadId && active.isAgent && active.id ≠ turn.id && active.status.isActiveStatus

def activeWorkClaim (db : HostedDatabase Json) (now : Finite) (row : CommandRow) : Bool :=
  db.commands.rows.any fun active =>
    active.threadId = row.threadId && active.commandId ≠ row.commandId && active.workState.isSome &&
      active.claim.any fun claim => claim.expiresAt > now

/-- `readyExecutor` tells whether a prepared executor is assigned to the hosted
thread. -/
def runnableTurn (readyExecutor : String → Bool) (db : HostedDatabase Json) (now : Finite) (row : CommandRow)
    (turn : TurnRow) (thread : HostedThread Json) : Bool :=
  row.workState.isSome && row.unclaimed now &&
    (row.workState = some .turnActivationRequested || turn.status = .cancelled ||
      ((turn.status = .accepted || turn.status = .queued) &&
        (thread.executorKind = .runner || readyExecutor thread.id) && !db.activeLane turn &&
          !db.activeWorkClaim now row))

structure TurnWork where
  row : CommandRow
  turn : TurnRow

def workOrder (collation : Collation) (left right : TurnWork) : Ordering :=
  let requested (work : TurnWork) : Nat := if work.row.workState = some .turnActivationRequested then 0 else 1
  let completedAt (work : TurnWork) : Finite := (work.row.completedAt.bind (·.millis)).getD 0
  (compare (requested left) (requested right)).then
    ((compare (completedAt left) (completedAt right)).then
      (collation.compare left.row.commandId right.row.commandId))

def turnWork (readyExecutor : String → Bool) (db : HostedDatabase Json) (now : Finite) (row : CommandRow) :
    Option TurnWork := do
  let turn ← row.turnId.bind db.turnStore.turns.find
  let thread ← (db.hostedThreads.find row.threadId).filter fun thread => thread.ownerId = row.ownerId
  if db.runnableTurn readyExecutor now row turn thread then some ⟨row, turn⟩ else none

section

variable (collation : Collation) (readyExecutor : String → Bool) (db : HostedDatabase Json)

def runnableWork (now : Finite) : List TurnWork :=
  StableSort.toSorted (workOrder collation) (db.commands.rows.filterMap (db.turnWork readyExecutor now))

def claimNext (request : ClaimRequest) (now : Finite) :
    Except HostedTurnWorkerStoreError (Option TurnClaim × HostedDatabase Json) :=
  match (db.runnableWork collation readyExecutor now).head? with
  | none => .ok (none, db)
  | some work =>
    match work.row.preparedTurn, work.turn.executionLink with
    | some preparedExecution, some admissionLink => do
      let claim : CommandClaim := ⟨request.claimToken, now + request.leaseMillis⟩
      let claimed ← ofWrite (db.updateCommand work.row.threadId work.row.commandId
        fun row => { row with claim := some claim })
      .ok
        (some
          { workerId := request.workerId
            claimToken := request.claimToken
            expiresAt := claim.expiresAt
            preparedExecution
            admissionLink
            activationRequested := work.row.workState = some .turnActivationRequested
            ownerId := work.row.ownerId
            claimedAt := now
            queuedAt := work.turn.createdAt
            threadId := work.row.threadId
            turnId := work.turn.id },
          claimed)
    | _, _ => .ok (none, db)

end

section

variable (db : HostedDatabase Json)

def claimAuthority (claim : TurnClaim) (now : Finite) : Bool :=
  db.commands.rows.any fun row =>
    row.turnId = some claim.turnId && row.workState.isSome && row.claimedBy claim.claimToken now

/-- `UPDATE rika_hosted_thread_protocol_commands SET f WHERE turn_id AND p`. -/
def updateTurnCommand (turnId : String) (p : CommandRow → Bool)
    (f : CommandRow → CommandRow) (hf : ∀ row, (f row).key = row.key := by intro _; rfl) :
    Except HostedTurnWorkerStoreError (HostedDatabase Json) :=
  ofWrite (db.writeCommands (db.commands.update (fun row => row.turnId = some turnId && p row) f hf))

def renew (claim : TurnClaim) (leaseMillis now : Finite) :
    Except HostedTurnWorkerStoreError (Bool × HostedDatabase Json) := do
  let renewed ← db.updateTurnCommand claim.turnId
    (fun row => row.workState.isSome && row.claimedBy claim.claimToken now)
    fun row => { row with claim := some ⟨claim.claimToken, now + leaseMillis⟩ }
  .ok (db.claimAuthority claim now, renewed)

def release (claim : TurnClaim) : Except HostedTurnWorkerStoreError (HostedDatabase Json) :=
  db.updateTurnCommand claim.turnId
    (fun row => row.workState.isSome && row.claim.any fun running => running.token = claim.claimToken)
    (fun row => { row with claim := none })
    CommandRow.unclaimed_key

end

/-- Takes a queued turn out of the queue into the free execution lane of its
thread. -/
def acceptQueued (store : TurnDatabase) (claim : TurnClaim) (updatedAt : Finite) :
    Except HostedTurnWorkerStoreError TurnDatabase :=
  if store.turns.rows.any fun active =>
      active.threadId = claim.threadId && active.id ≠ claim.turnId && active.status.isActiveStatus then
    workerFailure "Thread execution lane is occupied"
  else
    match store.updateQueueState claim.threadId .removed QueueState.removed_threadId with
    | .error _ => workerFailure "Turn queue state is missing"
    | .ok (_, removed) =>
      ofWrite (removed.writeTurns (removed.turns.update (fun row => row.id = claim.turnId)
        fun row => { row with status := .accepted, updatedAt }))

def activateTurn (store : TurnDatabase) (claim : TurnClaim) (turn : TurnRow) (updatedAt : Finite) :
    Except HostedTurnWorkerStoreError TurnDatabase :=
  if turn.status = .queued then acceptQueued store claim updatedAt
  else if turn.status = .accepted ∨ turn.status = .running then .ok store
  else workerFailure "Claimed Turn cannot be activated"

def requestActivation (db : HostedDatabase Json) (claim : TurnClaim) (updatedAt now : Finite) :
    Except HostedTurnWorkerStoreError (Bool × HostedDatabase Json) :=
  if db.claimAuthority claim now = false then workerFailure "Turn claim is no longer owned by this worker"
  else
    match db.turnStore.turns.find claim.turnId with
    | none => workerFailure "Claimed Turn does not exist"
    | some turn =>
      if turn.status = .cancelled then .ok (false, db)
      else do
        let turnStore ← activateTurn db.turnStore claim turn updatedAt
        let requested ← { db with turnStore }.updateTurnCommand claim.turnId (fun _ => true)
          fun row => { row with workState := some .turnActivationRequested }
        .ok (true, requested)

def completeActivation (db : HostedDatabase Json) (claim : TurnClaim) (status : ActivationStatus)
    (updatedAt now : Finite) : Except HostedTurnWorkerStoreError (HostedDatabase Json) :=
  if db.claimAuthority claim now = false then workerFailure "Turn claim is no longer owned by this worker"
  else do
    let turnStore ← ofWrite (db.turnStore.writeTurns (db.turnStore.turns.update
      (fun row => row.id = claim.turnId && row.status = .accepted)
      fun row => { row with status := status.status, updatedAt }))
    { db with turnStore }.updateTurnCommand claim.turnId (fun _ => true)
      fun row => { row with workState := none, claim := none }

end HostedDatabase

end Rika
