import Rika.TurnTables

namespace Rika

structure QueueClaim where
  turn : AgentExecutionTurn
  token : String

inductive QueueClaimFinish
  | transitioned (turn : AgentExecutionTurn) (queue : QueueItemChange)
  | unavailable

inductive ClaimStatus
  | running
  | failed

def ClaimStatus.status : ClaimStatus → Status
  | running => .running
  | failed => .failed

namespace TurnDatabase

def nextQueued (collation : Collation) (db : TurnDatabase) (threadId : String) : Option TurnRow :=
  (StableSort.toSorted (TurnRow.queueOrder collation)
    (db.turns.select fun row => db.visible threadId row && row.queueClaimToken.isNone)).head?

def executing (db : TurnDatabase) (threadId : String) : Bool :=
  db.turns.rows.any fun row => row.threadId = threadId && row.isExecuting

def claimed (db : TurnDatabase) (threadId : String) : Bool :=
  db.turns.rows.any fun row => row.threadId = threadId && row.isAgent && row.queueClaimToken.isSome

/-- `token` is the one drawn for this call. -/
def claimNextQueued (collation : Collation) (db : TurnDatabase) (threadId token : String) :
    Except TurnError (Option QueueClaim × TurnDatabase) :=
  match db.queueStates.find threadId, db.nextQueued collation threadId with
  | some _, some next => do
    let (claimed, db) ← db.updateTurn next.id
      (fun row => row.isAgent && !db.executing threadId && !db.claimed threadId)
      fun row => { row with queueClaimToken := some token }
    match claimed with
    | none => .ok (none, db)
    | some row => do
      let turn ← row.decodeAgent
      .ok (some ⟨turn, token⟩, db)
  | _, _ => .ok (none, db)

def isClaim (claim : QueueClaim) (row : TurnRow) : Bool :=
  row.isAgent && row.status = .queued && row.queueClaimToken = some claim.token

section

variable (db : TurnDatabase)

def finishQueuedClaim (claim : QueueClaim) (status : ClaimStatus) (now : Finite) :
    Except TurnError (QueueClaimFinish × TurnDatabase) := do
  let (finished, db) ← db.updateTurn claim.turn.id (isClaim claim)
    fun row => { row with status := status.status, updatedAt := now, queueClaimToken := none }
  match finished with
  | none => .ok (.unavailable, db)
  | some row => do
    let turn ← row.decodeAgent
    let (state, db) ← db.updateQueueState turn.threadId .removed QueueState.removed_threadId
    .ok (.transitioned turn (state.itemChange turn.threadId false (.removed turn.id)), db)

def releaseQueuedClaim (claim : QueueClaim) : Except TurnError TurnDatabase := do
  let (_, db) ← db.updateTurn claim.turn.id (isClaim claim) (fun row => { row with queueClaimToken := none })
    TurnRow.unclaimed_id
  .ok db

def resetQueueClaims : Except TurnError TurnDatabase :=
  db.writeTurns <| db.turns.update (fun row => row.isAgent && row.queueClaimToken.isSome)
    (fun row => { row with queueClaimToken := none })
    TurnRow.unclaimed_id

def editQueued (id prompt : String) (now : Finite) :
    Except TurnError ((AgentExecutionTurn × QueueItemChange) × TurnDatabase) := do
  let (edited, db) ← db.updateTurn id db.eligibleQueued
    fun row => { row with prompt, promptParts := none, updatedAt := now, queueClaimToken := none }
  match edited with
  | none => repositoryError s!"Turn {id} is not queued"
  | some row => do
    let turn ← row.decodeAgent
    let (state, db) ← db.updateQueueState turn.threadId .touched
    .ok ((turn, state.itemChange turn.threadId false (.updated turn)), db)

def dequeue (id : String) : Except TurnError (QueueItemChange × TurnDatabase) :=
  match (db.turns.find id).filter db.eligibleQueued with
  | none => repositoryError s!"Turn {id} is not queued"
  | some row => do
    let turn ← row.decodeAgent
    let (state, db) ← (db.deleteTurn id).updateQueueState turn.threadId .removed QueueState.removed_threadId
    .ok (state.itemChange turn.threadId false (.removed turn.id), db)

def requeueAccepted (id : String) (queueCapacity : Int) (now : Finite) :
    Except TurnError ((AgentExecutionTurn × QueueItemChange) × TurnDatabase) :=
  match (db.turns.find id).filter fun row => row.isAgent && row.status = .accepted with
  | none => repositoryError s!"Turn {id} is not an unowned accepted turn"
  | some current => do
    if db.turns.rows.any fun row => row.threadId = current.threadId && row.id ≠ id && row.isExecuting then
      repositoryError s!"Turn {id} is not an unowned accepted turn"
    else
      let (state, db) ← db.reserveQueueEntry current.threadId queueCapacity
      let (requeued, db) ← db.updateTurn id (fun row => row.isAgent && row.status = .accepted)
        fun row => { row with status := .queued, updatedAt := now }
      match requeued with
      | none => repositoryError s!"Turn {id} is not an unowned accepted turn"
      | some row => do
        let turn ← row.decodeAgent
        .ok ((turn, state.itemChange turn.threadId (state.queuedCount = 1) (.added turn none)), db)

end

end TurnDatabase

end Rika
