import Rika.Withdrawals

namespace Rika.TurnDatabase

open Fold
open Table (eq_of_key_eq find_eq_none find_key key_of_find mem_delete mem_of_find mem_select)

variable {collation : Collation} {scope : Scope} {db db' : TurnDatabase}

/-- Where a row of the steering outbox comes from: it was there before the
step, it was prepared, or a pending row got its outcome. -/
inductive Advance (db db' : TurnDatabase) (row : SteeringRow) : Prop
  | kept (hrow : row ∈ db.steering.rows)
  | prepared (hfree : db.steering.find row.requestId = none) (hpending : row.admission.outcome = .pending)
  | settled (old : SteeringRow) (outcome : SteeringOutcome) (hold : old ∈ db.steering.rows)
      (hpending : old.admission.outcome = .pending) (houtcome : outcome ≠ .pending) (hrow : row = old.settled outcome)
      (hturns : db'.turns = db.turns)

variable {row : SteeringRow} {outcome : SteeringOutcome} {admission : SteeringAdmission} {receipt : SteeringReceipt}
    {requestId : String} {target : ExecutionLink} {input : SteeringInput} {pendingRequestIds : List String} {now : Finite}
    {operation : Operation} {source : AgentExecutionTurn}

theorem Advance.of_settle {row₀ : SteeringRow}
    (hrow₀ : db.steering.find row₀.requestId = some row₀) (hpending : row₀.admission.outcome = .pending)
    (houtcome : outcome ≠ .pending) (hsteering : db'.steering = (db.settleAdmission row₀.requestId outcome).steering)
    (hturns : db'.turns = db.turns) (hrow : row ∈ db'.steering.rows) : Advance db db' row := by
  rw [hsteering] at hrow
  rcases (mem_settleAdmission hrow₀).mp hrow with rfl | ⟨hrow, -⟩
  · exact .settled row₀ outcome (mem_of_find hrow₀) hpending houtcome rfl hturns
  · exact .kept hrow

theorem Advance.of_append
    (hfree : db.steering.find admission.input.idempotencyKey = none) (hpending : admission.outcome = .pending)
    (hsteering : db'.steering.rows = db.steering.rows ++ [SteeringRow.ofAdmission admission])
    (hrow : row ∈ db'.steering.rows) : Advance db db' row := by
  rw [hsteering, List.mem_append, List.mem_singleton] at hrow
  rcases hrow with hrow | rfl
  · exact .kept hrow
  · exact .prepared hfree hpending

theorem Transition.advance (h : Transition collation scope db db') (hrow : row ∈ db'.steering.rows) : Advance db db' row := by
  cases h with
  | quiet _ _ hsteering | admissionPrepared _ _ _ _ _ _ _ hsteering | linked _ _ _ _ _ _ _ _ _ _ hsteering
  | released _ _ _ hsteering | claimed _ _ _ _ _ _ _ _ hsteering | finished _ _ _ _ _ _ _ _ _ hsteering
  | edited _ _ _ _ _ _ _ hsteering | requeued _ _ _ _ _ _ _ _ _ _ hsteering | submitted _ _ _ _ _ _ _ _ _ hsteering
  | enqueued _ _ _ _ _ _ _ _ _ _ hsteering | moved _ _ _ _ _ _ _ _ _ hsteering
  | recorded _ _ _ _ _ _ hsteering => exact .kept (hsteering ▸ hrow)
  | dequeued _ _ _ _ hsteering =>
    rw [hsteering] at hrow
    exact .kept (mem_delete.mp hrow).1
  | prepared _ hfree _ hpending _ hsteering
  | withdrawn _ _ _ _ hfree _ _ _ _ _ _ _ _ _ _ hpending _ hsteering => exact .of_append hfree hpending hsteering hrow
  | accepted _ _ hrow₀ hpending hsteering _ hturns
  | returned _ _ _ _ _ hrow₀ hpending _ _ _ _ hsteering _ hturns
  | rejected _ _ hrow₀ hpending _ hsteering _ hturns =>
    exact .of_settle hrow₀ hpending (by rintro ⟨⟩) hsteering hturns hrow
  | consumed _ _ _ _ _ _ _ _ _ _ _ hsteering =>
    rw [hsteering] at hrow
    exact .kept (mem_delete.mp (mem_delete.mp hrow).1).1
  | completed _ _ _ _ _ hsteering | forgotten _ _ _ hsteering =>
    rw [hsteering] at hrow
    exact .kept (mem_delete.mp hrow).1

theorem step_advance (operation : Operation)
    (hrow : row ∈ (step collation db operation).steering.rows) : Advance db (step collation db operation) row := by
  cases hcopy : operation.isCopy with
  | false => exact (step_transition db hcopy).advance hrow
  | true =>
    cases operation with
    | copy turn queueCapacity =>
      apply Advance.kept
      rw [step] at hrow
      split at hrow
      · next db' h =>
          obtain ⟨submission, h⟩ := map_snd_eq_ok h
          rw [← (copy_eq_ok h).2.2.1]
          exact hrow
      · exact hrow
    | _ => cases hcopy

/-- An admission is gone: the turn it steers was deleted, it was rejected, or the turn it had withdrawn is gone. -/
def Disposed (db db' : TurnDatabase) (row : SteeringRow) : Prop :=
  (∃ target, db.turns.find row.targetTurnId = some target ∧ db'.turns.find row.targetTurnId = none) ∨
    row.status = .rejected ∨
      row.status = .accepted ∧ ∀ source, row.admission.source = some source → db'.turns.find source.id = none

theorem find_deleteTurn_self (db : TurnDatabase) (id : String) : (db.deleteTurn id).turns.find id = none := by
  rw [find_eq_none]
  intro row hrow hid
  have := (mem_delete.mp hrow).2
  rw [decide_eq_false_iff_not] at this
  exact this hid

theorem kept_of_mem (hrow : row ∈ db'.steering.rows) : db'.steering.find row.requestId ≠ none := by
  rw [find_key hrow]
  exact Option.some_ne_none row

theorem status_of_accepted (h : row.admission.outcome = .accepted receipt) : row.status = .accepted := by
  rw [row.consistent.2.2.2.2, h]
  rfl

theorem find_settleAdmission
    (hrow : row ∈ db.steering.rows) : (db.settleAdmission requestId outcome).steering.find row.requestId ≠ none := by
  rw [settleAdmission, Table.find_update, find_key hrow]
  exact Option.some_ne_none _

theorem mem_deleteTurn {id : String} : row ∈ (db.deleteTurn id).steering.rows ↔
      row ∈ db.steering.rows ∧ row.targetTurnId ≠ id ∧ row.sourceTurnId ≠ some id := by
  rw [deleteTurn, mem_delete, Bool.or_eq_false_iff, decide_eq_false_iff_not, decide_eq_false_iff_not]

theorem mem_dropAdmission :
    row ∈ (db.dropAdmission requestId).steering.rows ↔ row ∈ db.steering.rows ∧ row.requestId ≠ requestId := by
  rw [dropAdmission, mem_delete, decide_eq_false_iff_not]

theorem Transition.disposed (h : Transition collation scope db db') (hinv : Withdrawals db)
    (hrow : row ∈ db.steering.rows) (hdropped : db'.steering.find row.requestId = none) : Disposed db db' row := by
  -- a step that stores every row it found is not the one
  have hkept : row ∉ db'.steering.rows := fun hrow' => kept_of_mem hrow' hdropped
  cases h with
  | quiet _ _ hsteering | admissionPrepared _ _ _ _ _ _ _ hsteering | linked _ _ _ _ _ _ _ _ _ _ hsteering
  | released _ _ _ hsteering | claimed _ _ _ _ _ _ _ _ hsteering | finished _ _ _ _ _ _ _ _ _ hsteering
  | edited _ _ _ _ _ _ _ hsteering | requeued _ _ _ _ _ _ _ _ _ _ hsteering | submitted _ _ _ _ _ _ _ _ _ hsteering
  | enqueued _ _ _ _ _ _ _ _ _ _ hsteering | moved _ _ _ _ _ _ _ _ _ hsteering
  | recorded _ _ _ _ _ _ hsteering => exact absurd (hsteering.symm ▸ hrow) hkept
  | dequeued row₀ hrow₀ heligible hturns hsteering =>
    rw [hsteering, mem_deleteTurn] at hkept
    by_cases htarget : row.targetTurnId = row₀.id
    · exact .inl ⟨row₀, htarget ▸ hrow₀, by rw [hturns, htarget, find_deleteTurn_self]⟩
    · have hsource : row.sourceTurnId = some row₀.id := by
        by_contra hne
        exact hkept ⟨hrow, htarget, hne⟩
      refine .inr (.inl (by_contra fun hstatus => ?_))
      have hhidden := hidden_eq_true.mpr ⟨row, hrow, hsource, hstatus⟩
      rw [(eligibleQueued_eq_true.mp heligible).2.2] at hhidden
      cases hhidden
  | prepared _ _ _ _ _ hsteering | withdrawn _ _ _ _ _ _ _ _ _ _ _ _ _ _ _ _ _ hsteering =>
    exact absurd (hsteering ▸ List.mem_append_left _ hrow) hkept
  | accepted _ _ _ _ hsteering | returned _ _ _ _ _ _ _ _ _ _ _ hsteering | rejected _ _ _ _ _ hsteering =>
    exact absurd (hsteering ▸ hdropped) (find_settleAdmission hrow)
  | consumed row₀ receipt source turn hrow₀ haccepted hsource hturn _ _ hturns hsteering =>
    rw [hsteering, mem_deleteTurn, mem_dropAdmission] at hkept
    have hgone : db'.turns.find source.id = none := by rw [hturns, find_deleteTurn_self]
    by_cases htarget : row.targetTurnId = source.id
    · exact .inl ⟨turn, htarget ▸ hturn, htarget ▸ hgone⟩
    · have hsame : row = row₀ := by
        by_contra hne
        have hkey : row.requestId ≠ row₀.requestId := fun hkey =>
          hne (eq_of_key_eq _ hrow (mem_of_find hrow₀) hkey)
        have hsourceTurnId : row.sourceTurnId = some source.id := by
          by_contra hother
          exact hkept ⟨⟨hrow, hkey⟩, htarget, hother⟩
        exact hne (hinv.unique row hrow row₀ (mem_of_find hrow₀) (by rw [hsourceTurnId]; exact Option.some_ne_none _)
          (hsourceTurnId.trans (sourceTurnId_of_source hsource).symm))
      subst hsame
      refine .inr (.inr ⟨status_of_accepted haccepted, fun other hother => ?_⟩)
      obtain rfl : source = other := Option.some_inj.mp (hsource.symm.trans hother)
      exact hgone
  | completed row₀ receipt hrow₀ haccepted hgone hsteering _ hturns =>
    rw [hsteering, mem_dropAdmission, not_and, not_not] at hkept
    obtain rfl := eq_of_key_eq _ hrow (mem_of_find hrow₀) (hkept hrow)
    refine .inr (.inr ⟨status_of_accepted haccepted, fun source hsource => ?_⟩)
    obtain ⟨-, turn, hturn⟩ := hinv.withdrawn row hrow source hsource
    have hstatus : row.status ≠ .rejected := by
      rw [status_of_accepted haccepted]
      decide
    exact absurd (hturn.queued hstatus) (hgone source hsource turn hturn.find hturn.agent)
  | forgotten row₀ hrow₀ hrejected hsteering =>
    rw [hsteering, mem_dropAdmission, not_and, not_not] at hkept
    obtain rfl := eq_of_key_eq _ hrow (mem_of_find hrow₀) (hkept hrow)
    exact .inr (.inl hrejected)

theorem step_disposed (hinv : Withdrawals db) (operation : Operation) (hrow : row ∈ db.steering.rows)
    (hdropped : (step collation db operation).steering.find row.requestId = none) :
    Disposed db (step collation db operation) row := by
  cases hcopy : operation.isCopy with
  | false => exact (step_transition db hcopy).disposed hinv hrow hdropped
  | true =>
    cases operation with
    | copy turn queueCapacity =>
      rw [step] at hdropped
      split at hdropped
      · next db' h =>
          obtain ⟨submission, h⟩ := map_snd_eq_ok h
          rw [(copy_eq_ok h).2.2.1] at hdropped
          exact absurd hdropped (kept_of_mem hrow)
      · exact absurd hdropped (kept_of_mem hrow)
    | _ => cases hcopy

/-- The admission is where the call would bring it: stored, settled or gone. -/
def Repeated (db : TurnDatabase) : Operation → Prop
  | .prepareSteeringAdmission _ input _ _ => db.steering.find input.idempotencyKey ≠ none
  | .prepareQueuedSteeringAdmission source _ input _ _ =>
    ∃ row ∈ db.steering.rows, row.requestId = input.idempotencyKey ∨ row.sourceTurnId = some source
  | .acceptSteeringAdmission requestId _ | .rejectSteeringAdmission requestId _ =>
    ∀ row, db.steering.find requestId = some row → row.admission.outcome ≠ .pending
  | .completeSteeringAdmission requestId _ _ | .completeRejectedSteeringAdmission requestId =>
    db.steering.find requestId = none
  | _ => False

def Operation.isSteering : Operation → Bool
  | prepareSteeringAdmission _ _ _ _ | prepareQueuedSteeringAdmission _ _ _ _ _ | acceptSteeringAdmission _ _
  | rejectSteeringAdmission _ _ | completeSteeringAdmission _ _ _ | completeRejectedSteeringAdmission _ => true
  | _ => false

theorem not_pending_of_settle (houtcome : outcome ≠ .pending)
    (hrow : db.steering.find row.requestId = some row) (row' : SteeringRow)
    (hrow' : (db.settleAdmission row.requestId outcome).steering.find row.requestId = some row') :
    row'.admission.outcome ≠ .pending := by
  rcases (mem_settleAdmission hrow).mp (mem_of_find hrow') with rfl | ⟨-, hne⟩
  · exact houtcome
  · exact absurd (key_of_find hrow') hne

theorem find_dropAdmission (db : TurnDatabase) (requestId : String) :
    (db.dropAdmission requestId).steering.find requestId = none := by
  rw [find_eq_none]
  intro row hrow
  exact (mem_dropAdmission.mp hrow).2

theorem prepareSteeringAdmission_repeated
    (h : db.prepareSteeringAdmission target input pendingRequestIds now = .ok (admission, db')) :
    db'.steering.find input.idempotencyKey ≠ none ∧ (db.steering.find input.idempotencyKey ≠ none → db' = db) := by
  rw [prepareSteeringAdmission] at h
  split at h
  · next row hrow =>
      obtain ⟨existing, -, hrest⟩ := bind_eq_ok.mp h
      split at hrest <;> cases hrest
      exact ⟨by rw [hrow]; exact Option.some_ne_none _, fun _ => rfl⟩
  · next hnone =>
      obtain ⟨_, -, hrest⟩ := bind_eq_ok.mp h
      obtain ⟨_, -, hrest⟩ := bind_eq_ok.mp hrest
      obtain ⟨db₁, hinsert, ⟨⟩⟩ := bind_eq_ok.mp hrest
      obtain ⟨-, hrows, -⟩ := insertAdmission_eq_ok hinsert
      have hmem : SteeringRow.ofAdmission ⟨target, input, none, false, now, .pending⟩ ∈ db'.steering.rows := by
        rw [hrows]
        exact List.mem_append_right _ (List.mem_singleton_self _)
      exact ⟨kept_of_mem hmem, fun hstored => absurd hnone hstored⟩

theorem prepareQueuedSteeringAdmission_repeated {source : String} {preparation : QueuedSteeringAdmissionPreparation}
    (h : db.prepareQueuedSteeringAdmission source target input pendingRequestIds now = .ok (preparation, db')) :
    (∃ row ∈ db'.steering.rows, row.requestId = input.idempotencyKey ∨ row.sourceTurnId = some source) ∧
      ((∃ row ∈ db.steering.rows, row.requestId = input.idempotencyKey ∨ row.sourceTurnId = some source) →
        db' = db) := by
  rw [prepareQueuedSteeringAdmission] at h
  split at h
  · next first rest hselect =>
      obtain ⟨existing, -, hrest⟩ := bind_eq_ok.mp h
      obtain ⟨others, -, hrest⟩ := bind_eq_ok.mp hrest
      obtain ⟨hmem, hfirst⟩ := mem_select.mp (hselect ▸ List.mem_cons_self : first ∈ _)
      rw [Bool.or_eq_true, decide_eq_true_eq, decide_eq_true_eq] at hfirst
      split at hrest
      · cases hrest
      · split at hrest <;> cases hrest
        exact ⟨⟨first, hmem, hfirst⟩, fun _ => rfl⟩
  · next hunused =>
      obtain ⟨targetTurn, -, hrest⟩ := bind_eq_ok.mp h
      split at hrest
      · cases hrest
      · obtain ⟨sourceTurn, -, hrest⟩ := bind_eq_ok.mp hrest
        split at hrest
        · cases hrest
        · obtain ⟨_, -, hrest⟩ := bind_eq_ok.mp hrest
          obtain ⟨db₁, hinsert, hrest⟩ := bind_eq_ok.mp hrest
          obtain ⟨-, hrows, -⟩ := insertAdmission_eq_ok hinsert
          obtain ⟨⟨updated, db₂⟩, hupdate, hrest⟩ := bind_eq_ok.mp hrest
          obtain ⟨⟨state, db₃⟩, hstate, ⟨⟩⟩ := bind_eq_ok.mp hrest
          obtain ⟨-, -, hsteering, -⟩ := updateQueueState_eq_ok hstate
          have hsteering₂ : db₂.steering = db₁.steering := by
            rcases updateTurn_eq_ok hupdate with ⟨-, rfl⟩ | ⟨row, -, -, -, -, rfl⟩ <;> rfl
          have hmem := List.mem_append_right db.steering.rows (List.mem_singleton_self (SteeringRow.ofAdmission
            ⟨target, input, some sourceTurn, true, now, .pending⟩))
          rw [← hrows, ← hsteering₂, ← hsteering] at hmem
          refine ⟨⟨_, hmem, .inl rfl⟩, ?_⟩
          · rintro ⟨row, hrow, hsame⟩
            refine absurd hunused (List.ne_nil_of_mem (mem_select.mpr ⟨hrow, ?_⟩))
            rwa [Bool.or_eq_true, decide_eq_true_eq, decide_eq_true_eq]

theorem acceptSteeringAdmission_repeated (h : db.acceptSteeringAdmission requestId receipt = .ok (admission, db')) :
    (∀ row, db'.steering.find requestId = some row → row.admission.outcome ≠ .pending) ∧
      ((∀ row, db.steering.find requestId = some row → row.admission.outcome ≠ .pending) → db' = db) := by
  rw [acceptSteeringAdmission] at h
  split at h
  · cases h
  · next row hrow =>
      obtain rfl := key_of_find hrow
      rw [row.decodeAdmission_eq] at h
      obtain ⟨decoded, ⟨⟩, hrest⟩ := bind_eq_ok.mp h
      split at hrest
      · cases hrest
      · next accepted haccepted =>
          split at hrest <;> cases hrest
          refine ⟨fun row' hrow' => ?_, fun _ => rfl⟩
          obtain rfl : row = row' := Option.some_inj.mp (hrow.symm.trans hrow')
          rw [haccepted]
          rintro ⟨⟩
      · next hpending =>
          cases hrest
          exact ⟨not_pending_of_settle (by rintro ⟨⟩) hrow, fun hsettled => absurd hpending (hsettled row hrow)⟩

theorem rejectSteeringAdmission_repeated {failure : SteeringFailure}
    (h : db.rejectSteeringAdmission collation requestId failure = .ok (admission, db')) :
    (∀ row, db'.steering.find requestId = some row → row.admission.outcome ≠ .pending) ∧
      ((∀ row, db.steering.find requestId = some row → row.admission.outcome ≠ .pending) → db' = db) := by
  rw [rejectSteeringAdmission] at h
  split at h
  · cases h
  · next row hrow =>
      obtain rfl := key_of_find hrow
      rw [row.decodeAdmission_eq] at h
      obtain ⟨decoded, ⟨⟩, hrest⟩ := bind_eq_ok.mp h
      split at hrest
      · cases hrest
      · next rejection queue hrejected =>
          split at hrest <;> cases hrest
          refine ⟨fun row' hrow' => ?_, fun _ => rfl⟩
          obtain rfl : row = row' := Option.some_inj.mp (hrow.symm.trans hrow')
          rw [hrejected]
          rintro ⟨⟩
      · next hpending =>
          obtain ⟨⟨queue, db₁⟩, hreturn, ⟨⟩⟩ := bind_eq_ok.mp hrest
          have hsteering : db₁.steering = db.steering := by
            rcases returnSource_eq_ok hreturn with ⟨-, rfl, -⟩ | ⟨_, _, -, -, -, -, -, hsteering, -⟩
            · rfl
            · exact hsteering
          exact ⟨not_pending_of_settle (by rintro ⟨⟩) (hsteering ▸ hrow),
            fun hsettled => absurd hpending (hsettled row hrow)⟩

theorem completeSteeringAdmission_repeated {queue : Option QueueItemChange}
    (h : db.completeSteeringAdmission requestId target receipt = .ok (queue, db')) :
    db'.steering.find requestId = none ∧ (db.steering.find requestId = none → db' = db) := by
  rw [completeSteeringAdmission] at h
  split at h
  · next hnone =>
      cases h
      exact ⟨hnone, fun _ => rfl⟩
  · next row hrow =>
      obtain ⟨decoded, -, hrest⟩ := bind_eq_ok.mp h
      refine ⟨?_, fun hnone => absurd (hrow.symm.trans hnone) (Option.some_ne_none row)⟩
      split at hrest
      · cases hrest
      · rcases consumeSource_eq_ok hrest with ⟨rfl, -⟩ | ⟨_, _, -, -, -, -, -, hsteering, -⟩
        · exact find_dropAdmission db requestId
        · rw [hsteering, find_eq_none]
          intro row' hrow'
          exact (mem_dropAdmission.mp (mem_deleteTurn.mp hrow').1).2

theorem completeRejectedSteeringAdmission_repeated {done : Bool}
    (h : db.completeRejectedSteeringAdmission requestId = .ok (done, db')) :
    db'.steering.find requestId = none ∧ (db.steering.find requestId = none → db' = db) := by
  rw [completeRejectedSteeringAdmission] at h
  split at h
  · next hnone =>
      cases h
      exact ⟨hnone, fun _ => rfl⟩
  · next row hrow =>
      refine ⟨?_, fun hnone => absurd (hrow.symm.trans hnone) (Option.some_ne_none row)⟩
      split at h
      · cases h
        exact find_dropAdmission db requestId
      · next hstatus =>
          rw [row.decodeAdmission_eq] at h
          obtain ⟨decoded, ⟨⟩, hrest⟩ := bind_eq_ok.mp h
          split at hrest
          · next hrejected => exact absurd (row.consistent.2.2.2.2.trans (congrArg _ hrejected)) hstatus
          · cases hrest

section

variable (hsteering : operation.isSteering = true)

include hsteering

theorem execute_repeated (h : db.execute collation operation = .ok db') :
    db'.Repeated operation ∧ (db.Repeated operation → db' = db) := by
  cases operation with
  | prepareSteeringAdmission target input pendingRequestIds now =>
    obtain ⟨_, h⟩ := map_snd_eq_ok h
    exact prepareSteeringAdmission_repeated h
  | prepareQueuedSteeringAdmission source target input pendingRequestIds now =>
    obtain ⟨_, h⟩ := map_snd_eq_ok h
    exact prepareQueuedSteeringAdmission_repeated h
  | acceptSteeringAdmission requestId receipt =>
    obtain ⟨_, h⟩ := map_snd_eq_ok h
    exact acceptSteeringAdmission_repeated h
  | rejectSteeringAdmission requestId failure =>
    obtain ⟨_, h⟩ := map_snd_eq_ok h
    exact rejectSteeringAdmission_repeated h
  | completeSteeringAdmission requestId target receipt =>
    obtain ⟨_, h⟩ := map_snd_eq_ok h
    exact completeSteeringAdmission_repeated h
  | completeRejectedSteeringAdmission requestId =>
    obtain ⟨_, h⟩ := map_snd_eq_ok h
    exact completeRejectedSteeringAdmission_repeated h
  | _ => cases hsteering

theorem step_of_repeated (hrepeated : db.Repeated operation) : step collation db operation = db := by
  rw [step]
  split
  · next db' h => exact (execute_repeated hsteering h).2 hrepeated
  · rfl

theorem step_step :
    step collation (step collation db operation) operation = step collation db operation := by
  cases hexecute : db.execute collation operation with
  | ok db' =>
    have hstep : step collation db operation = db' := by rw [step, hexecute]
    rw [hstep]
    exact step_of_repeated hsteering (execute_repeated hsteering hexecute).1
  | error error =>
    have hstep : step collation db operation = db := by rw [step, hexecute]
    rw [hstep, hstep]

end

theorem visible_of_rejected (hinv : Withdrawals db) (hinv' : Withdrawals db') {row' : SteeringRow}
    (hrow : row ∈ db.steering.rows) (hpending : row.admission.outcome = .pending)
    (hsource : row.admission.source = some source) (hrow' : row' ∈ db'.steering.rows)
    (hsame : row'.requestId = row.requestId) (hrejected : row'.status = .rejected) (hadvance : Advance db db' row') :
    ∃ turn, db'.turns.find source.id = some turn ∧ turn.prompt = source.prompt ∧
      db'.visible source.threadId turn = true := by
  have hstatus : row.status ≠ .rejected := by
    rw [row.consistent.2.2.2.2, hpending]
    decide
  cases hadvance with
  | kept hold =>
    rw [eq_of_key_eq _ hold hrow hsame] at hrejected
    exact absurd hrejected hstatus
  | prepared hfree =>
    rw [hsame, find_key hrow] at hfree
    cases hfree
  | settled old outcome hold hpending' houtcome hsettled hturns =>
    subst hsettled
    obtain rfl := eq_of_key_eq _ hold hrow hsame
    obtain ⟨-, turn, hturn⟩ := hinv.withdrawn old hrow source hsource
    refine ⟨turn, hturns ▸ hturn.find, hturn.prompt hstatus, ?_⟩
    refine visible_eq_true.mpr ⟨hturn.thread, hturn.agent, hturn.queued hstatus, ?_⟩
    have hid := key_of_find hturn.find
    by_contra hhidden
    rw [Bool.not_eq_false, hidden_eq_true] at hhidden
    obtain ⟨other, hother, hotherSource, hotherStatus⟩ := hhidden
    have hsettledSource : (old.settled outcome).sourceTurnId = some source.id := sourceTurnId_of_source hsource
    rw [hid] at hotherSource
    rw [hinv'.unique other hother _ hrow' (by rw [hotherSource]; exact Option.some_ne_none _)
      (hotherSource.trans hsettledSource.symm)] at hotherStatus
    exact hotherStatus hrejected

theorem Withdrawn.not_claimed {turn : TurnRow}
    (h : Withdrawn db row source turn) (hrow : row ∈ db.steering.rows) (hsource : row.admission.source = some source)
    (hstatus : row.status ≠ .rejected) {threadId token : String} {claim : QueueClaim}
    (hclaim : db.claimNextQueued collation threadId token = .ok (some claim, db')) : claim.turn.id ≠ turn.id := by
  obtain ⟨claimed, hfind, hvisible, -⟩ := claimNextQueued_least hclaim
  intro hsame
  rw [hsame, key_of_find h.find, h.find] at hfind
  obtain rfl := Option.some_inj.mp hfind
  exact hstatus (h.rejected_of_visible hrow hsource (visible_eq_true.mp hvisible).2.2.2)

section

variable (collation : Collation) (operations : List Operation) (operation : Operation)

theorem run_append :
    run collation (operations ++ [operation]) = step collation (run collation operations) operation := by
  rw [run, List.foldl_append]
  rfl

/-- An admission is prepared pending, gets one outcome and goes with it, and a repeated call changes nothing. -/
theorem steering_exactly_once : (∀ row ∈ (run collation (operations ++ [operation])).steering.rows,
      Advance (run collation operations) (run collation (operations ++ [operation])) row) ∧
    (∀ row ∈ (run collation operations).steering.rows,
      (run collation (operations ++ [operation])).steering.find row.requestId = none →
        Disposed (run collation operations) (run collation (operations ++ [operation])) row) ∧
    (∀ row ∈ (run collation operations).steering.rows, ∀ source, row.admission.source = some source →
      ∃ turn, Withdrawn (run collation operations) row source turn ∧
        (row.status ≠ .rejected → (run collation operations).hidden turn.id = true ∧
          ∀ threadId token claim db', (run collation operations).claimNextQueued collation threadId token =
            .ok (some claim, db') → claim.turn.id ≠ turn.id)) ∧
    (∀ row ∈ (run collation operations).steering.rows, ∀ source, row.admission.source = some source →
      row.admission.outcome = .pending →
        ∀ row' ∈ (run collation (operations ++ [operation])).steering.rows, row'.requestId = row.requestId →
          row'.status = .rejected →
            ∃ turn, (run collation (operations ++ [operation])).turns.find source.id = some turn ∧
              turn.prompt = source.prompt ∧
                (run collation (operations ++ [operation])).visible source.threadId turn = true) ∧
    (operation.isSteering = true →
      ((run collation operations).Repeated operation →
        run collation (operations ++ [operation]) = run collation operations) ∧
      run collation (operations ++ [operation, operation]) = run collation (operations ++ [operation])) := by
  have hinv := run_withdrawals collation operations
  have hinv' := run_withdrawals collation (operations ++ [operation])
  have htwice : run collation (operations ++ [operation, operation]) =
      step collation (step collation (run collation operations) operation) operation := by
    rw [run, List.foldl_append]
    rfl
  rw [run_append] at hinv' ⊢
  rw [htwice]
  refine ⟨fun row hrow => step_advance operation hrow, fun row hrow => step_disposed hinv operation hrow, ?_, ?_, ?_⟩
  · intro row hrow source hsource
    obtain ⟨-, turn, hturn⟩ := hinv.withdrawn row hrow source hsource
    refine ⟨turn, hturn, fun hstatus => ⟨?_, fun threadId token claim db' => hturn.not_claimed hrow hsource hstatus⟩⟩
    rw [key_of_find hturn.find]
    exact hidden_of_source hrow hsource hstatus
  · intro row hrow source hsource hpending row' hrow' hsame hrejected
    exact visible_of_rejected hinv hinv' hrow hpending hsource hrow' hsame hrejected (step_advance operation hrow')
  · intro hsteering
    exact ⟨step_of_repeated hsteering, step_step hsteering⟩

end

def sampleLink : ExecutionLink := ⟨"run", none, none, "first", "thread"⟩

def sampleSteering : List Operation :=
  [sampleSubmission "first" 1,
    .prepareExecutionAdmission ⟨"thread", "first", "workspace", "prompt", none, "route", none, none⟩ 2,
    .attachExecutionLink "first" sampleLink 3, .prepareSteeringAdmission sampleLink ⟨"text", "key"⟩ [] 4,
    .acceptSteeringAdmission "key" ⟨"entry", 1⟩, .completeSteeringAdmission "key" sampleLink ⟨"entry", 1⟩]

/-- A completed admission is forgotten: its preparation, repeated, prepares it
once more. -/
theorem repeated_preparation_readmits :
    .prepareSteeringAdmission sampleLink ⟨"text", "key"⟩ [] 4 ∈ sampleSteering ∧
      (run .codePoint sampleSteering).steering.rows = [] ∧
        (run .codePoint (sampleSteering ++ [.prepareSteeringAdmission sampleLink ⟨"text", "key"⟩ [] 4])).steering.rows =
          [SteeringRow.ofAdmission ⟨sampleLink, ⟨"text", "key"⟩, none, false, 4, .pending⟩] := by
  refine ⟨?_, by decide, by decide⟩
  simp [sampleSteering]

end Rika.TurnDatabase
