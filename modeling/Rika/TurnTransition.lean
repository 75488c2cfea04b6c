import Rika.TurnQueue
import Rika.TurnSubmission
import Rika.SteeringAdmission

namespace Rika.TurnDatabase

open Function

/-- What a call names: the turns it may delete, and the capacities it may queue
a turn under. -/
structure Scope where
  deletes : String → Prop
  capacity : Int → Prop

/-- What a committed transaction of the turn store, other than a copy, does to
the tables, and when. -/
inductive Transition (collation : Collation) (scope : Scope) (db db' : TurnDatabase) : Prop
  | quiet (hadmissions : db'.executionAdmissions.rows ⊆ db.executionAdmissions.rows)
      (hturns : db'.turns = db.turns) (hsteering : db'.steering = db.steering)
      (hqueue : db'.queueState = db.queueState)
  | admissionPrepared (row : TurnRow) (input : StartTurn) (now : Finite)
      (hrow : db.turns.find input.turnId = some row) (hthread : row.threadId = input.threadId)
      (hadmissions : db'.executionAdmissions.rows = db.executionAdmissions.rows ++ [⟨input.turnId, input, now⟩])
      (hturns : db'.turns = db.turns) (hsteering : db'.steering = db.steering)
      (hqueue : db'.queueState = db.queueState)
  | linked (row : TurnRow) (admission : ExecutionAdmissionRow) (link : ExecutionLink) (now : Finite)
      (hrow : db.turns.find row.id = some row) (hagent : row.isAgent = true)
      (hadmission : db.executionAdmissions.find row.id = some admission)
      (hlink : link.threadId = admission.startInput.threadId)
      (hturns : db'.turns = db.turns.update (fun other => other.id = row.id)
        fun other => { other with executionLink := some link, updatedAt := now })
      (hadmissions : db'.executionAdmissions.rows ⊆ db.executionAdmissions.rows)
      (hsteering : db'.steering = db.steering) (hqueue : db'.queueState = db.queueState)
  | released (p : TurnRow → Bool)
      (hturns : db'.turns = db.turns.update p fun row => { row with queueClaimToken := none })
      (hadmissions : db'.executionAdmissions.rows ⊆ db.executionAdmissions.rows)
      (hsteering : db'.steering = db.steering) (hqueue : db'.queueState = db.queueState)
  | claimed (threadId token : String) (next : TurnRow) (hnext : db.nextQueued collation threadId = some next)
      (hexecuting : db.executing threadId = false) (hclaimed : db.claimed threadId = false)
      (hturns : db'.turns = db.turns.update (fun row => row.id = next.id)
        fun row => { row with queueClaimToken := some token })
      (hadmissions : db'.executionAdmissions.rows ⊆ db.executionAdmissions.rows)
      (hsteering : db'.steering = db.steering) (hqueue : db'.queueState = db.queueState)
  | finished (row : TurnRow) (status : ClaimStatus) (now : Finite) (hrow : db.turns.find row.id = some row)
      (hagent : row.isAgent = true) (hstatus : row.status = .queued) (htoken : row.queueClaimToken ≠ none)
      (hturns : db'.turns = db.turns.update (fun other => other.id = row.id)
        fun other => { other with status := status.status, updatedAt := now, queueClaimToken := none })
      (hadmissions : db'.executionAdmissions.rows ⊆ db.executionAdmissions.rows)
      (hsteering : db'.steering = db.steering)
      (hqueue : db'.queueState = update db.queueState row.threadId (db.queueState row.threadId).removed)
  | edited (row : TurnRow) (prompt : String) (now : Finite) (hrow : db.turns.find row.id = some row)
      (heligible : db.eligibleQueued row = true)
      (hturns : db'.turns = db.turns.update (fun other => other.id = row.id) fun other =>
        { other with prompt, promptParts := none, updatedAt := now, queueClaimToken := none })
      (hadmissions : db'.executionAdmissions.rows ⊆ db.executionAdmissions.rows)
      (hsteering : db'.steering = db.steering)
      (hqueue : db'.queueState = update db.queueState row.threadId (db.queueState row.threadId).touched)
  | dequeued (row : TurnRow) (hrow : db.turns.find row.id = some row) (heligible : db.eligibleQueued row = true)
      (hturns : db'.turns = (db.deleteTurn row.id).turns) (hsteering : db'.steering = (db.deleteTurn row.id).steering)
      (hadmissions : db'.executionAdmissions.rows ⊆ db.executionAdmissions.rows)
      (hqueue : db'.queueState = update db.queueState row.threadId (db.queueState row.threadId).removed)
      (hdeletes : scope.deletes row.id)
  | requeued (row : TurnRow) (capacity : Int) (now : Finite) (hrow : db.turns.find row.id = some row)
      (hagent : row.isAgent = true) (hstatus : row.status = .accepted)
      (hlane : ∀ other ∈ db.turns.rows, other.threadId = row.threadId → other.isExecuting = true → other.id = row.id)
      (hroom : (db.queueState row.threadId).queuedCount + db.reserved row.threadId < capacity)
      (hturns : db'.turns = db.turns.update (fun other => other.id = row.id)
        fun other => { other with status := .queued, updatedAt := now })
      (hadmissions : db'.executionAdmissions.rows ⊆ db.executionAdmissions.rows)
      (hsteering : db'.steering = db.steering)
      (hqueue : db'.queueState = update db.queueState row.threadId (db.queueState row.threadId).added)
      (hcapacity : scope.capacity capacity)
  | submitted (row : TurnRow) (hfree : db.turns.find row.id = none) (hagent : row.isAgent = true)
      (hstatus : row.status = .accepted) (hlink : row.executionLink = none) (htoken : row.queueClaimToken = none)
      (hidle : db.busy row.threadId = false) (hturns : db'.turns.rows = db.turns.rows ++ [row])
      (hadmissions : db'.executionAdmissions.rows ⊆ db.executionAdmissions.rows)
      (hsteering : db'.steering = db.steering) (hqueue : db'.queueState = db.queueState)
  | enqueued (row : TurnRow) (capacity : Int) (hfree : db.turns.find row.id = none) (hagent : row.isAgent = true)
      (hstatus : row.status = .queued) (hlink : row.executionLink = none) (htoken : row.queueClaimToken = none)
      (hroom : (db.queueState row.threadId).queuedCount + db.reserved row.threadId < capacity)
      (hturns : db'.turns.rows = db.turns.rows ++ [row])
      (hadmissions : db'.executionAdmissions.rows ⊆ db.executionAdmissions.rows)
      (hsteering : db'.steering = db.steering)
      (hqueue : db'.queueState = update db.queueState row.threadId (db.queueState row.threadId).added)
      (hcapacity : scope.capacity capacity)
  | moved (row : TurnRow) (status : Status) (now : Finite) (hrow : db.turns.find row.id = some row)
      (hstatus : row.status ≠ .queued) (hterminal : row.status.isTerminalStatus = false) (hnext : status ≠ .queued)
      (hturns : db'.turns = db.turns.update (fun other => other.id = row.id)
        fun other => { other with status, updatedAt := now })
      (hadmissions : db'.executionAdmissions.rows ⊆ db.executionAdmissions.rows)
      (hsteering : db'.steering = db.steering) (hqueue : db'.queueState = db.queueState)
  | recorded (row : TurnRow) (hfree : db.turns.find row.id = none) (hshell : row.isAgent = false)
      (htoken : row.queueClaimToken = none) (hturns : db'.turns.rows = db.turns.rows ++ [row])
      (hadmissions : db'.executionAdmissions.rows ⊆ db.executionAdmissions.rows)
      (hsteering : db'.steering = db.steering) (hqueue : db'.queueState = db.queueState)
  | prepared (admission : SteeringAdmission) (hfree : db.steering.find admission.input.idempotencyKey = none)
      (hsource : admission.source = none) (hpending : admission.outcome = .pending)
      (hwithdrawn : admission.sourceWithdrawn = false)
      (hsteering : db'.steering.rows = db.steering.rows ++ [SteeringRow.ofAdmission admission])
      (hadmissions : db'.executionAdmissions.rows ⊆ db.executionAdmissions.rows)
      (hturns : db'.turns = db.turns) (hqueue : db'.queueState = db.queueState)
  | withdrawn (row target : TurnRow) (source : AgentExecutionTurn) (admission : SteeringAdmission)
      (hfree : db.steering.find admission.input.idempotencyKey = none)
      (hunused : ∀ other ∈ db.steering.rows, other.sourceTurnId ≠ some row.id)
      (hrow : db.turns.find row.id = some row) (hagent : row.isAgent = true) (hstatus : row.status = .queued)
      (hdecoded : row.decodeAgent = .ok source) (htarget : db.turns.find admission.target.turnId = some target)
      (hexecuting : target.isExecuting = true) (hlink : target.executionLink = some admission.target)
      (hthread : row.threadId = target.threadId) (hsource : admission.source = some source)
      (hpending : admission.outcome = .pending) (hwithdrawn : admission.sourceWithdrawn = true)
      (hsteering : db'.steering.rows = db.steering.rows ++ [SteeringRow.ofAdmission admission])
      (hturns : db'.turns = db.turns.update (fun other => other.id = row.id)
        fun other => { other with queueClaimToken := none })
      (hadmissions : db'.executionAdmissions.rows ⊆ db.executionAdmissions.rows)
      (hqueue : db'.queueState = update db.queueState row.threadId (db.queueState row.threadId).removed)
  | accepted (row : SteeringRow) (receipt : SteeringReceipt) (hrow : db.steering.find row.requestId = some row)
      (hpending : row.admission.outcome = .pending)
      (hsteering : db'.steering = (db.settleAdmission row.requestId (.accepted receipt)).steering)
      (hadmissions : db'.executionAdmissions.rows ⊆ db.executionAdmissions.rows)
      (hturns : db'.turns = db.turns) (hqueue : db'.queueState = db.queueState)
  | returned (row : SteeringRow) (failure : SteeringFailure) (queue : Option QueueItemChange)
      (source : AgentExecutionTurn) (turn : TurnRow) (hrow : db.steering.find row.requestId = some row)
      (hpending : row.admission.outcome = .pending) (hsource : row.admission.source = some source)
      (hturn : db.turns.find source.id = some turn) (hagent : turn.isAgent = true) (hqueued : turn.status = .queued)
      (hsteering : db'.steering = (db.settleAdmission row.requestId (.rejected failure queue)).steering)
      (hadmissions : db'.executionAdmissions.rows ⊆ db.executionAdmissions.rows)
      (hturns : db'.turns = db.turns)
      (hqueue : db'.queueState = update db.queueState source.threadId
        (if row.admission.sourceWithdrawn then (db.queueState source.threadId).added
          else (db.queueState source.threadId).touched))
  | rejected (row : SteeringRow) (failure : SteeringFailure) (hrow : db.steering.find row.requestId = some row)
      (hpending : row.admission.outcome = .pending)
      (hgone : ∀ source, row.admission.source = some source → ∀ turn, db.turns.find source.id = some turn →
        turn.status ≠ .queued)
      (hsteering : db'.steering = (db.settleAdmission row.requestId (.rejected failure none)).steering)
      (hadmissions : db'.executionAdmissions.rows ⊆ db.executionAdmissions.rows)
      (hturns : db'.turns = db.turns) (hqueue : db'.queueState = db.queueState)
  | consumed (row : SteeringRow) (receipt : SteeringReceipt) (source : AgentExecutionTurn) (turn : TurnRow)
      (hrow : db.steering.find row.requestId = some row) (haccepted : row.admission.outcome = .accepted receipt)
      (hsource : row.admission.source = some source) (hturn : db.turns.find source.id = some turn)
      (hagent : turn.isAgent = true) (hqueued : turn.status = .queued)
      (hturns : db'.turns = ((db.dropAdmission row.requestId).deleteTurn source.id).turns)
      (hsteering : db'.steering = ((db.dropAdmission row.requestId).deleteTurn source.id).steering)
      (hadmissions : db'.executionAdmissions.rows ⊆ db.executionAdmissions.rows)
      (hqueue : db'.queueState = if row.admission.sourceWithdrawn then db.queueState
        else update db.queueState source.threadId (db.queueState source.threadId).removed)
      (hdeletes : scope.deletes source.id)
  | completed (row : SteeringRow) (receipt : SteeringReceipt) (hrow : db.steering.find row.requestId = some row)
      (haccepted : row.admission.outcome = .accepted receipt)
      (hgone : ∀ source, row.admission.source = some source → ∀ turn, db.turns.find source.id = some turn →
        turn.isAgent = true → turn.status ≠ .queued)
      (hsteering : db'.steering = (db.dropAdmission row.requestId).steering)
      (hadmissions : db'.executionAdmissions.rows ⊆ db.executionAdmissions.rows)
      (hturns : db'.turns = db.turns) (hqueue : db'.queueState = db.queueState)
  | forgotten (row : SteeringRow) (hrow : db.steering.find row.requestId = some row)
      (hrejected : row.status = .rejected) (hsteering : db'.steering = (db.dropAdmission row.requestId).steering)
      (hadmissions : db'.executionAdmissions.rows ⊆ db.executionAdmissions.rows)
      (hturns : db'.turns = db.turns) (hqueue : db'.queueState = db.queueState)

open Fold

variable {collation : Collation} {db db' : TurnDatabase}

variable {row : TurnRow} {p : TurnRow → Bool} {f : TurnRow → TurnRow} {hf : ∀ row, (f row).id = row.id}
    {updated : Option TurnRow} {threadId : String} {state : QueueState}

theorem decodeAgent_eq_ok {turn : AgentExecutionTurn} (h : row.decodeAgent = .ok turn) :
    row.isAgent = true ∧ turn.id = row.id ∧ turn.threadId = row.threadId ∧ turn.status = row.status ∧
      turn.executionLink = row.executionLink ∧ turn.prompt = row.prompt := by
  rw [TurnRow.decodeAgent] at h
  split at h
  · next hkind =>
      cases h
      exact ⟨by rw [TurnRow.isAgent, hkind], rfl, rfl, rfl, rfl, rfl⟩
  · cases h

theorem writeTurns_eq_ok {turns : Table TurnRow.id} (h : db.writeTurns turns = .ok db') : db' = { db with turns } := by
  rw [writeTurns] at h
  split at h <;> cases h
  rfl

theorem updateTurn_eq_ok {id : String} (h : db.updateTurn id p f hf = .ok (updated, db')) :
    updated = none ∧ db' = db ∨
      ∃ row, db.turns.find row.id = some row ∧ row.id = id ∧ p row = true ∧ updated = some (f row) ∧
        db' = { db with turns := db.turns.update (fun other => other.id = row.id) f hf } := by
  rw [updateTurn] at h
  split at h
  · cases h
    exact .inl ⟨rfl, rfl⟩
  · next row hrow =>
      obtain ⟨hfind, hp⟩ := Option.filter_eq_some_iff.mp hrow
      obtain ⟨db₁, hwrite, ⟨⟩⟩ := bind_eq_ok.mp h
      obtain rfl := Table.key_of_find hfind
      exact .inr ⟨row, hfind, rfl, hp, rfl, writeTurns_eq_ok hwrite⟩

theorem updateTurn_of_find (hrow : db.turns.find row.id = some row)
    (hp : p row = true) (h : db.updateTurn row.id p f hf = .ok (updated, db')) :
    updated = some (f row) ∧
      db' = { db with turns := db.turns.update (fun other => other.id = row.id) f hf } := by
  rw [updateTurn, hrow, Option.filter_some, if_pos hp] at h
  obtain ⟨db₁, hwrite, ⟨⟩⟩ := bind_eq_ok.mp h
  exact ⟨rfl, writeTurns_eq_ok hwrite⟩

theorem insertTurn_eq_ok {inserted : TurnRow} (h : db.insertTurn row = .ok (inserted, db')) :
    inserted = db.admitted row ∧ db.turns.find inserted.id = none ∧
      db'.turns.rows = db.turns.rows ++ [inserted] ∧ db'.steering = db.steering ∧
        db'.queueStates = db.queueStates ∧ db'.executionAdmissions = db.executionAdmissions := by
  rw [insertTurn] at h
  split at h
  · cases h
  · next turns hturns =>
      obtain ⟨db₁, hwrite, ⟨⟩⟩ := bind_eq_ok.mp h
      obtain rfl := writeTurns_eq_ok hwrite
      obtain ⟨hfree, hrows⟩ := Table.insert_eq_some.mp hturns
      exact ⟨rfl, hfree, hrows, rfl, rfl, rfl⟩

theorem queueState_congr (h : db'.queueStates = db.queueStates) : db'.queueState = db.queueState := by
  funext threadId
  rw [queueState, h, queueState]

theorem updateQueueState_eq_ok {f : QueueState → QueueState} {hf : ∀ state, (f state).threadId = state.threadId}
    (h : db.updateQueueState threadId f hf = .ok (state, db')) :
    db'.queueState = update db.queueState threadId (f (db.queueState threadId)) ∧ db'.turns = db.turns ∧
      db'.steering = db.steering ∧ db'.executionAdmissions = db.executionAdmissions := by
  rw [updateQueueState] at h
  split at h
  · cases h
  · next old hold =>
      cases h
      refine ⟨?_, rfl, rfl, rfl⟩
      funext threadId'
      rw [queueState, Table.find_update]
      by_cases hthread : threadId' = threadId
      · subst hthread
        rw [update_self, queueState, hold, Option.map_some, Table.key_of_find hold, Option.getD_some,
          Option.getD_some]
        exact if_pos (decide_eq_true rfl)
      · rw [update_of_ne hthread, queueState]
        cases hfind : db.queueStates.find threadId' with
        | none => rfl
        | some other =>
          rw [Option.map_some, Table.key_of_find hfind, if_neg (by simpa using hthread)]

theorem queueState_upsert (db : TurnDatabase) (threadId : String) :
    queueState { db with queueStates := db.queueStates.upsert (.empty threadId) id } = db.queueState := by
  funext threadId'
  rw [queueState, Table.find_upsert, queueState]
  split
  · next h =>
      obtain rfl : threadId' = threadId := h
      cases db.queueStates.find threadId' <;> rfl
  · rfl

theorem reserveQueueEntry_eq_ok {capacity : Int} (h : db.reserveQueueEntry threadId capacity = .ok (state, db')) :
    (db.queueState threadId).queuedCount + db.reserved threadId < capacity ∧
      db'.queueState = update db.queueState threadId (db.queueState threadId).added ∧ db'.turns = db.turns ∧
        db'.steering = db.steering ∧ db'.executionAdmissions = db.executionAdmissions := by
  rw [reserveQueueEntry] at h
  split at h
  · next hroom =>
      rw [queueState_upsert] at hroom
      obtain ⟨hqueue, hturns, hsteering, hadmissions⟩ := updateQueueState_eq_ok h
      rw [queueState_upsert] at hqueue
      exact ⟨hroom, hqueue, hturns, hsteering, hadmissions⟩
  · cases h

end Rika.TurnDatabase
