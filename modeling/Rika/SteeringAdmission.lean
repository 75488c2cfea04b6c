import Rika.TurnTables

namespace Rika

def pendingSteeringMaxEntries : Nat := 64

namespace SteeringRow

def ofAdmission (admission : SteeringAdmission) : SteeringRow where
  requestId := admission.input.idempotencyKey
  targetTurnId := admission.target.turnId
  sourceTurnId := admission.source.map (·.id)
  threadId := admission.target.threadId
  admission := admission
  sourceWithdrawn := admission.sourceWithdrawn
  status := admission.outcome.status
  preparedAt := admission.preparedAt
  consistent := ⟨rfl, rfl, rfl, rfl, rfl⟩

section

variable (row : SteeringRow)

def settled (outcome : SteeringOutcome) : SteeringRow :=
  { row with
    admission := { row.admission with outcome }
    status := outcome.status
    consistent := ⟨row.consistent.1, row.consistent.2.1, row.consistent.2.2.1, row.consistent.2.2.2.1, rfl⟩ }

theorem settled_requestId (outcome : SteeringOutcome) :
    (row.settled outcome).requestId = row.requestId := rfl

def decodeAdmission : Except TurnError SteeringAdmission :=
  if row.requestId ≠ row.admission.input.idempotencyKey ∨ row.targetTurnId ≠ row.admission.target.turnId ∨
      row.sourceTurnId ≠ row.admission.source.map (·.id) ∨ row.sourceWithdrawn ≠ row.admission.sourceWithdrawn ∨
        row.status ≠ row.admission.outcome.status then
    repositoryError s!"Steering admission {row.requestId} is inconsistent"
  else .ok row.admission

theorem decodeAdmission_eq : row.decodeAdmission = .ok row.admission := by
  obtain ⟨h₁, h₂, h₃, h₄, h₅⟩ := row.consistent
  simp [decodeAdmission, h₁, h₂, h₃, h₄, h₅]

end

end SteeringRow

def sameAdmission (admission : SteeringAdmission) (target : ExecutionLink) (input : SteeringInput)
    (source : Option String) : Bool :=
  admission.target = target && admission.input = input && admission.source.map (·.id) = source

structure QueuedSteeringAdmissionPreparation where
  admission : SteeringAdmission
  queue : QueueItemChange
  queueChanged : Bool

namespace TurnDatabase

section

variable (db : TurnDatabase)

def validateTarget (target : ExecutionLink) : Except TurnError AgentExecutionTurn :=
  match (db.turns.find target.turnId).filter TurnRow.isExecuting with
  | none => repositoryError s!"Steering target {target.turnId} is not active"
  | some row => do
    let turn ← row.decodeAgent
    if turn.executionLink ≠ some target then repositoryError s!"Steering target {target.turnId} has changed"
    else .ok turn

def validateCapacity (target : ExecutionLink) (pendingRequestIds : List String) :
    Except TurnError Unit :=
  let rows := db.steering.select fun row => row.targetTurnId = target.turnId && row.status ≠ .rejected
  let requests := (pendingRequestIds ++ rows.map (·.requestId)).dedup
  if requests.length ≥ pendingSteeringMaxEntries then
    repositoryError s!"Turn {target.turnId} already has the maximum number of pending steering requests"
  else .ok ()

def insertAdmission (admission : SteeringAdmission) : Except TurnError TurnDatabase :=
  let row := SteeringRow.ofAdmission admission
  if row.sourceTurnId ≠ none ∧ row.sourceTurnId ∈ db.steering.rows.map (·.sourceTurnId) then
    sqlError "rika_turn_steering_outbox_source_turn_id_key"
  else
    match db.steering.insert row with
    | none => sqlError "rika_turn_steering_outbox_pkey"
    | some steering => .ok { db with steering }

def settleAdmission (requestId : String) (outcome : SteeringOutcome) : TurnDatabase :=
  { db with
    steering := db.steering.update (fun row => row.requestId = requestId) (fun row => row.settled outcome)
      fun row => row.settled_requestId outcome }

def prepareSteeringAdmission (target : ExecutionLink) (input : SteeringInput)
    (pendingRequestIds : List String) (now : Finite) : Except TurnError (SteeringAdmission × TurnDatabase) :=
  match db.steering.find input.idempotencyKey with
  | some row => do
    let existing ← row.decodeAdmission
    if sameAdmission existing target input none then .ok (existing, db)
    else repositoryError s!"Steering request {input.idempotencyKey} conflicts"
  | none => do
    let _ ← db.validateTarget target
    db.validateCapacity target pendingRequestIds
    let admission : SteeringAdmission := ⟨target, input, none, false, now, .pending⟩
    let db ← db.insertAdmission admission
    .ok (admission, db)

/-- What a repeated preparation answers: the queue change of a rejection, or
the removal against the queue as it is now. -/
def preparedAlready (existing : SteeringAdmission) (source : AgentExecutionTurn) :
    QueuedSteeringAdmissionPreparation where
  admission := existing
  queueChanged := false
  queue :=
    match existing.outcome with
    | .rejected _ (some queue) => queue
    | _ => (db.queueState source.threadId).itemChange source.threadId false (.removed source.id)

def prepareQueuedSteeringAdmission (source : String) (target : ExecutionLink)
    (input : SteeringInput) (pendingRequestIds : List String) (now : Finite) :
    Except TurnError (QueuedSteeringAdmissionPreparation × TurnDatabase) :=
  match db.steering.select fun row => row.requestId = input.idempotencyKey || row.sourceTurnId = some source with
  | first :: rest => do
    let existing ← first.decodeAdmission
    let others ← rest.mapM SteeringRow.decodeAdmission
    if others.length ≠ 0 ∨ sameAdmission existing target input (some source) = false then
      repositoryError s!"Queued turn {source} already has a different steering admission"
    else
      match existing.source with
      | none => repositoryError s!"Steering admission {existing.input.idempotencyKey} is inconsistent"
      | some existingSource => .ok (db.preparedAlready existing existingSource, db)
  | [] => do
    let targetTurn ← db.validateTarget target
    match (db.turns.find source).filter fun row => row.isAgent && row.status = .queued with
    | none => queuedTurnUnavailable source
    | some row => do
      let sourceTurn ← row.decodeAgent
      if sourceTurn.threadId ≠ targetTurn.threadId then
        repositoryError s!"Queued turn {source} does not belong to target {target.turnId}"
      else do
        db.validateCapacity target pendingRequestIds
        let admission : SteeringAdmission := ⟨target, input, some sourceTurn, true, now, .pending⟩
        let db ← db.insertAdmission admission
        let (_, db) ← db.updateTurn sourceTurn.id (fun _ => true) (fun row => { row with queueClaimToken := none })
          TurnRow.unclaimed_id
        let (state, db) ← db.updateQueueState sourceTurn.threadId .removed QueueState.removed_threadId
        .ok (⟨admission, state.itemChange sourceTurn.threadId false (.removed sourceTurn.id), true⟩, db)

def acceptSteeringAdmission (requestId : String) (receipt : SteeringReceipt) :
    Except TurnError (SteeringAdmission × TurnDatabase) :=
  match db.steering.find requestId with
  | none => repositoryError s!"Steering admission {requestId} does not exist"
  | some row => do
    let admission ← row.decodeAdmission
    match admission.outcome with
    | .rejected _ _ => repositoryError s!"Steering admission {requestId} was rejected"
    | .accepted accepted =>
      if accepted = receipt then .ok (admission, db)
      else repositoryError s!"Steering admission {requestId} receipt conflicts"
    | .pending =>
      .ok ({ admission with outcome := .accepted receipt }, db.settleAdmission requestId (.accepted receipt))

end

section

variable (collation : Collation) (db : TurnDatabase)

def returnPosition (source : AgentExecutionTurn) : Option Nat :=
  (StableSort.toSorted (TurnRow.queueOrder collation)
    (db.turns.select fun row => row.threadId = source.threadId && row.isAgent && row.status = .queued &&
      (row.id = source.id || !db.hidden row.id))).findIdx? fun row => row.id = source.id

def returnSource (admission : SteeringAdmission) :
    Except TurnError (Option QueueItemChange × TurnDatabase) :=
  match admission.source with
  | none => .ok (none, db)
  | some source =>
    match db.turns.find source.id with
    | none => .ok (none, db)
    | some row => do
      let existing ← row.decodeAgent
      if existing.status ≠ .queued then .ok (none, db)
      else
        let (state, next) ← db.updateQueueState source.threadId
          (fun state => if admission.sourceWithdrawn then state.added else state.touched)
          (fun _ => by split <;> rfl)
        let becameNonempty := admission.sourceWithdrawn && state.queuedCount = 1
        let change : QueueChange :=
          if admission.sourceWithdrawn then .added existing (db.returnPosition collation source)
          else .updated existing
        .ok (some (state.itemChange source.threadId becameNonempty change), next)

def rejectSteeringAdmission (requestId : String)
    (failure : SteeringFailure) : Except TurnError (SteeringAdmission × TurnDatabase) :=
  match db.steering.find requestId with
  | none => repositoryError s!"Steering admission {requestId} does not exist"
  | some row => do
    let admission ← row.decodeAdmission
    match admission.outcome with
    | .accepted _ => repositoryError s!"Steering admission {requestId} was accepted"
    | .rejected rejection _ =>
      if rejection = failure then .ok (admission, db)
      else repositoryError s!"Steering admission {requestId} rejection conflicts"
    | .pending => do
      let (queue, db) ← db.returnSource collation admission
      .ok ({ admission with outcome := .rejected failure queue },
        db.settleAdmission requestId (.rejected failure queue))

end

section

variable (db : TurnDatabase)

def dropAdmission (requestId : String) : TurnDatabase :=
  { db with steering := db.steering.delete fun row => row.requestId = requestId }

def consumeSource (admission : SteeringAdmission) :
    Except TurnError (Option QueueItemChange × TurnDatabase) :=
  match admission.source with
  | none => .ok (none, db)
  | some source =>
    match (db.turns.find source.id).filter fun row => row.isAgent && row.status = .queued with
    | none => .ok (none, db)
    | some _ =>
      if admission.sourceWithdrawn then .ok (none, db.deleteTurn source.id)
      else do
        let (state, db) ← (db.deleteTurn source.id).updateQueueState source.threadId .removed QueueState.removed_threadId
        .ok (some (state.itemChange source.threadId false (.removed source.id)), db)

def completeSteeringAdmission (requestId : String) (target : ExecutionLink)
    (receipt : SteeringReceipt) : Except TurnError (Option QueueItemChange × TurnDatabase) :=
  match db.steering.find requestId with
  | none => .ok (none, db)
  | some row => do
    let admission ← row.decodeAdmission
    if admission.outcome ≠ .accepted receipt ∨ admission.target ≠ target then
      repositoryError s!"Steering admission {requestId} disposition conflicts"
    else (db.dropAdmission requestId).consumeSource admission

def completeRejectedSteeringAdmission (requestId : String) :
    Except TurnError (Bool × TurnDatabase) :=
  match db.steering.find requestId with
  | none => .ok (true, db)
  | some row =>
    if row.status = .rejected then .ok (true, db.dropAdmission requestId)
    else do
      let admission ← row.decodeAdmission
      match admission.outcome with
      | .rejected _ _ => .ok (false, db)
      | _ => repositoryError s!"Steering admission {requestId} was not rejected"

end

end TurnDatabase

end Rika
