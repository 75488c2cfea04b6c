import Rika.TurnTransition

namespace Rika.TurnDatabase

open Fold Function

variable {collation : Collation} {scope : Scope} {db db' : TurnDatabase}

theorem Transition.refl : Transition collation scope db db := .quiet (List.Subset.refl _) rfl rfl rfl

theorem claimNextQueued_transition {threadId token : String} {claim : Option QueueClaim}
    (h : db.claimNextQueued collation threadId token = .ok (claim, db')) : Transition collation scope db db' := by
  rw [claimNextQueued] at h
  split at h
  · next next _ hnext =>
      obtain ⟨⟨updated, db₁⟩, hupdate, hrest⟩ := bind_eq_ok.mp h
      rcases updateTurn_eq_ok hupdate with ⟨rfl, rfl⟩ | ⟨row, hrow, hid, hp, rfl, rfl⟩
      · cases hrest
        exact .refl
      · obtain ⟨turn, -, ⟨⟩⟩ := bind_eq_ok.mp hrest
        simp only [Bool.and_eq_true, Bool.not_eq_true'] at hp
        exact .claimed threadId token next hnext hp.1.2 hp.2 (by rw [hid]) (List.Subset.refl _) rfl rfl
  · cases h
    exact .refl

variable {claim : QueueClaim} {now : Finite} {id requestId : String} {capacity : Int} {submission : Submission}
    {turn : AgentExecutionTurn} {target : ExecutionLink} {admission : SteeringAdmission} {input : SteeringInput}
    {pendingRequestIds : List String} {receipt : SteeringReceipt} {queue : Option QueueItemChange} {operation : Operation}

theorem finishQueuedClaim_transition {status : ClaimStatus}
    {finish : QueueClaimFinish} (h : db.finishQueuedClaim claim status now = .ok (finish, db')) :
    Transition collation scope db db' := by
  rw [finishQueuedClaim] at h
  obtain ⟨⟨updated, db₁⟩, hupdate, hrest⟩ := bind_eq_ok.mp h
  rcases updateTurn_eq_ok hupdate with ⟨rfl, rfl⟩ | ⟨row, hrow, -, hp, rfl, rfl⟩
  · cases hrest
    exact .refl
  · obtain ⟨turn, hturn, hrest⟩ := bind_eq_ok.mp hrest
    obtain ⟨⟨state, db₂⟩, hstate, ⟨⟩⟩ := bind_eq_ok.mp hrest
    obtain ⟨hqueue, hturns, hsteering, hadmissions⟩ := updateQueueState_eq_ok hstate
    obtain ⟨-, -, hthread, -⟩ := decodeAgent_eq_ok hturn
    rw [hthread] at hqueue
    simp only [isClaim, Bool.and_eq_true, decide_eq_true_eq] at hp
    exact .finished row status now hrow hp.1.1 hp.1.2 (by simp [hp.2]) hturns (hadmissions ▸ List.Subset.refl _)
      hsteering hqueue

theorem releaseQueuedClaim_transition (h : db.releaseQueuedClaim claim = .ok db') : Transition collation scope db db' := by
  rw [releaseQueuedClaim] at h
  obtain ⟨⟨updated, db₁⟩, hupdate, ⟨⟩⟩ := bind_eq_ok.mp h
  rcases updateTurn_eq_ok hupdate with ⟨rfl, rfl⟩ | ⟨row, hrow, -, hp, rfl, rfl⟩
  · exact .refl
  · exact .released _ rfl (List.Subset.refl _) rfl rfl

theorem resetQueueClaims_transition (h : db.resetQueueClaims = .ok db') : Transition collation scope db db' := by
  obtain rfl := writeTurns_eq_ok h
  exact .released _ rfl (List.Subset.refl _) rfl rfl

theorem editQueued_transition {prompt : String} {edit : AgentExecutionTurn × QueueItemChange}
    (h : db.editQueued id prompt now = .ok (edit, db')) : Transition collation scope db db' := by
  rw [editQueued] at h
  obtain ⟨⟨updated, db₁⟩, hupdate, hrest⟩ := bind_eq_ok.mp h
  rcases updateTurn_eq_ok hupdate with ⟨rfl, rfl⟩ | ⟨row, hrow, -, hp, rfl, rfl⟩
  · cases hrest
  · obtain ⟨turn, hturn, hrest⟩ := bind_eq_ok.mp hrest
    obtain ⟨⟨state, db₂⟩, hstate, ⟨⟩⟩ := bind_eq_ok.mp hrest
    obtain ⟨hqueue, hturns, hsteering, hadmissions⟩ := updateQueueState_eq_ok hstate
    obtain ⟨-, -, hthread, -⟩ := decodeAgent_eq_ok hturn
    rw [hthread] at hqueue
    exact .edited row prompt now hrow hp hturns (hadmissions ▸ List.Subset.refl _) hsteering hqueue

theorem deleteTurn_admissions (db : TurnDatabase) (id : String) :
    (db.deleteTurn id).executionAdmissions.rows ⊆ db.executionAdmissions.rows :=
  fun _ h => (Table.mem_delete.mp h).1

theorem dequeue_transition {change : QueueItemChange}
    (hdeletes : ∀ turn, db.turns.find id = some turn → db.eligibleQueued turn = true → scope.deletes id)
    (h : db.dequeue id = .ok (change, db')) : Transition collation scope db db' := by
  rw [dequeue] at h
  split at h
  · cases h
  · next row hrow =>
      obtain ⟨hfind, heligible⟩ := Option.filter_eq_some_iff.mp hrow
      obtain rfl := Table.key_of_find hfind
      obtain ⟨turn, hturn, h⟩ := bind_eq_ok.mp h
      obtain ⟨⟨state, db₂⟩, hstate, ⟨⟩⟩ := bind_eq_ok.mp h
      obtain ⟨hqueue, hturns, hsteering, hadmissions⟩ := updateQueueState_eq_ok hstate
      obtain ⟨-, -, hthread, -⟩ := decodeAgent_eq_ok hturn
      rw [hthread] at hqueue
      exact .dequeued row hfind heligible hturns hsteering (hadmissions ▸ deleteTurn_admissions db row.id) hqueue
        (hdeletes row hfind heligible)

theorem requeueAccepted_transition {requeue : AgentExecutionTurn × QueueItemChange} (hcapacity : scope.capacity capacity)
    (h : db.requeueAccepted id capacity now = .ok (requeue, db')) : Transition collation scope db db' := by
  rw [requeueAccepted] at h
  split at h
  · cases h
  · next row hselect =>
      obtain ⟨hfind, hrow⟩ := Option.filter_eq_some_iff.mp hselect
      obtain rfl := Table.key_of_find hfind
      obtain ⟨hlane, h⟩ := ite_error_eq_ok.mp h
      obtain ⟨⟨state, db₁⟩, hstate, h⟩ := bind_eq_ok.mp h
      obtain ⟨hroom, hqueue, hturns, hsteering, hadmissions⟩ := reserveQueueEntry_eq_ok hstate
      obtain ⟨⟨updated, db₂⟩, hupdate, hrest⟩ := bind_eq_ok.mp h
      rcases updateTurn_eq_ok hupdate with ⟨rfl, rfl⟩ | ⟨row', hrow', hid, -, rfl, rfl⟩
      · cases hrest
      · obtain ⟨turn, -, ⟨⟩⟩ := bind_eq_ok.mp hrest
        simp only [Bool.and_eq_true, decide_eq_true_eq] at hrow
        refine .requeued row capacity now hfind hrow.1 hrow.2 ?_ hroom (by rw [hid, hturns])
          (hadmissions ▸ List.Subset.refl _) hsteering hqueue hcapacity
        intro other hother hthread hexecuting
        by_contra hne
        exact hlane (List.any_eq_true.mpr ⟨other, hother, by simp [hthread, hexecuting, hne]⟩)

theorem admitted_eq (db : TurnDatabase) (row : TurnRow) : db.admitted row = row ∨
      row.isAgent = true ∧ row.status = .accepted ∧ db.busy row.threadId = true ∧
        db.admitted row = { row with status := .queued } := by
  rw [admitted]
  split
  · next h =>
      rw [Bool.and_eq_true, Bool.and_eq_true, decide_eq_true_eq] at h
      exact .inr ⟨h.1.1, h.1.2, h.2, rfl⟩
  · exact .inl rfl

theorem submittedRow_status (db : TurnDatabase) (input : CreateInput) :
    (db.submittedRow input).status =
      if db.busy (db.submittedRow input).threadId then .queued else .accepted := rfl

theorem admitted_submittedRow (db : TurnDatabase) (input : CreateInput) :
    db.admitted (db.submittedRow input) = db.submittedRow input := by
  refine (admitted_eq db (db.submittedRow input)).resolve_right ?_
  rintro ⟨-, hstatus, hbusy, -⟩
  rw [submittedRow_status, if_pos hbusy] at hstatus
  cases hstatus

theorem createForSubmission_transition {input : CreateInput}
    (hcapacity : scope.capacity input.queueCapacity)
    (h : db.createForSubmission input = .ok (submission, db')) : Transition collation scope db db' := by
  rw [createForSubmission] at h
  obtain ⟨⟨row, db₁⟩, hinsert, hrest⟩ := bind_eq_ok.mp h
  obtain ⟨hinserted, hfree, hrows, hsteering₁, hstates, hadmissions₁⟩ := insertTurn_eq_ok hinsert
  rw [admitted_submittedRow] at hinserted
  obtain ⟨turn, hturn, hrest⟩ := bind_eq_ok.mp hrest
  obtain ⟨hagent, -, -, hstatus, -⟩ := decodeAgent_eq_ok hturn
  have hqueue₁ := queueState_congr hstates
  dsimp only at hrest
  split at hrest
  · next haccepted =>
      cases hrest
      have hidle : db.busy row.threadId = false := by
        by_contra hbusy
        rw [Bool.not_eq_false, hinserted] at hbusy
        rw [hstatus, hinserted, submittedRow_status, if_pos hbusy] at haccepted
        exact haccepted rfl
      refine .submitted row hfree hagent ?_ (hinserted ▸ rfl) (hinserted ▸ rfl) hidle hrows
        (hadmissions₁ ▸ List.Subset.refl _) hsteering₁ hqueue₁
      rw [hinserted] at hidle ⊢
      rw [submittedRow_status, if_neg (by rw [hidle]; decide)]
  · next hqueued =>
      obtain ⟨⟨state, db₂⟩, hstate, ⟨⟩⟩ := bind_eq_ok.mp hrest
      obtain ⟨hroom, hqueue, hturns, hsteering, hadmissions⟩ := reserveQueueEntry_eq_ok hstate
      have hthread : input.threadId = row.threadId := hinserted ▸ rfl
      rw [hqueue₁, reserved, hsteering₁, hthread] at hroom
      rw [hqueue₁, hthread] at hqueue
      exact .enqueued row input.queueCapacity hfree hagent (hstatus ▸ not_not.mp hqueued) (hinserted ▸ rfl)
        (hinserted ▸ rfl) hroom (hturns ▸ hrows) (hadmissions ▸ hadmissions₁ ▸ List.Subset.refl _)
        (hsteering.trans hsteering₁) hqueue hcapacity

theorem insertRecordedShell_transition {turn : RecordedShellTurn} (h : db.insertRecordedShell turn = .ok db') :
    Transition collation scope db db' := by
  rw [insertRecordedShell] at h
  obtain ⟨⟨row, db₁⟩, hinsert, ⟨⟩⟩ := bind_eq_ok.mp h
  obtain ⟨hinserted, hfree, hrows, hsteering, hstates, hadmissions⟩ := insertTurn_eq_ok hinsert
  have hrow : row = turn.row := by
    rw [hinserted]
    refine (admitted_eq db turn.row).resolve_right ?_
    rintro ⟨hagent, -⟩
    cases hagent
  exact .recorded row hfree (hrow ▸ rfl) (hrow ▸ rfl) hrows (hadmissions ▸ List.Subset.refl _) hsteering
    (queueState_congr hstates)

theorem settleRecordedShell_transition {expected : RecordedShellTurn} {status : TerminalStatus} {updatedAt : Finite}
    {settled : Bool} (h : db.settleRecordedShell expected status updatedAt = .ok (settled, db')) :
    Transition collation scope db db' := by
  rw [settleRecordedShell] at h
  obtain ⟨⟨updated, db₁⟩, hupdate, ⟨⟩⟩ := bind_eq_ok.mp h
  rcases updateTurn_eq_ok hupdate with ⟨rfl, rfl⟩ | ⟨row, hrow, -, hp, rfl, rfl⟩
  · exact .refl
  · simp only [Bool.and_eq_true, decide_eq_true_eq] at hp
    have hrunning := hp.1.2
    refine .moved row status.status updatedAt hrow (by rw [hrunning]; decide) (by rw [hrunning]; decide) ?_ rfl
      (List.Subset.refl _) rfl rfl
    cases status <;> decide

theorem setStatus_transition {status : Status}
    (h : db.setStatus id status now = .ok (turn, db')) : Transition collation scope db db' := by
  rw [setStatus] at h
  obtain ⟨hnext, h⟩ := ite_error_eq_ok.mp h
  split at h
  · cases h
  · next before hselect =>
      obtain ⟨existing, hexisting, hrest⟩ := bind_eq_ok.mp h
      obtain ⟨-, -, -, hstatus, -⟩ := decodeAgent_eq_ok hexisting
      obtain ⟨hqueued, hrest⟩ := ite_error_eq_ok.mp hrest
      obtain ⟨⟨updated, db₁⟩, hupdate, hmoved⟩ := bind_eq_ok.mp hrest
      rcases updateTurn_eq_ok hupdate with ⟨rfl, rfl⟩ | ⟨row, hrow, hid, hp, rfl, rfl⟩
      · cases hmoved
        exact .refl
      · obtain ⟨moved, -, ⟨⟩⟩ := bind_eq_ok.mp hmoved
        have hbefore : before = row := by
          have hfind := (Option.filter_eq_some_iff.mp hselect).1
          rw [← hid, hrow] at hfind
          exact (Option.some_inj.mp hfind).symm
        rw [Bool.and_eq_true, Bool.not_eq_true'] at hp
        exact .moved row status now hrow (hbefore ▸ hstatus ▸ hqueued) hp.2 hnext rfl (List.Subset.refl _)
          rfl rfl

theorem startAccepted_transition {started : Bool}
    (h : db.startAccepted id now = .ok (started, db')) : Transition collation scope db db' := by
  rw [startAccepted] at h
  obtain ⟨⟨updated, db₁⟩, hupdate, ⟨⟩⟩ := bind_eq_ok.mp h
  rcases updateTurn_eq_ok hupdate with ⟨rfl, rfl⟩ | ⟨row, hrow, -, hp, rfl, rfl⟩
  · exact .refl
  · rw [Bool.and_eq_true, decide_eq_true_eq] at hp
    exact .moved row .running now hrow (by rw [hp.2]; decide) (by rw [hp.2]; decide) (by decide) rfl
      (List.Subset.refl _) rfl rfl

theorem cancelUnlinked_transition {cancelled : Bool}
    (h : db.cancelUnlinked id now = .ok (cancelled, db')) : Transition collation scope db db' := by
  rw [cancelUnlinked] at h
  obtain ⟨⟨updated, db₁⟩, hupdate, ⟨⟩⟩ := bind_eq_ok.mp h
  rcases updateTurn_eq_ok hupdate with ⟨rfl, rfl⟩ | ⟨row, hrow, -, hp, rfl, rfl⟩
  · exact .refl
  · simp only [Bool.and_eq_true, Bool.or_eq_true, decide_eq_true_eq] at hp
    refine .moved row .cancelled now hrow ?_ ?_ (by decide) rfl (List.Subset.refl _) rfl rfl
    · rcases hp.1.2 with h | h <;> rw [h] <;> decide
    · rcases hp.1.2 with h | h <;> rw [h] <;> decide

theorem prepareExecutionAdmission_transition {prepared persisted : StartTurn}
    (h : db.prepareExecutionAdmission prepared now = .ok (persisted, db')) : Transition collation scope db db' := by
  rw [prepareExecutionAdmission] at h
  split at h
  · cases h
  · split at h
    · cases h
      cases hinserted : ((db.turns.find prepared.turnId).filter fun row =>
          row.threadId = prepared.threadId && row.isAgent).bind
        fun _ => db.executionAdmissions.insert ⟨prepared.turnId, prepared, now⟩ with
      | none => exact .refl
      | some admissions =>
        obtain ⟨row, hselect, hadmissions⟩ := Option.bind_eq_some_iff.mp hinserted
        obtain ⟨hfind, hrow⟩ := Option.filter_eq_some_iff.mp hselect
        rw [Bool.and_eq_true, decide_eq_true_eq] at hrow
        exact .admissionPrepared row prepared now hfind hrow.1 (Table.insert_eq_some.mp hadmissions).2 rfl rfl rfl
    · cases h

theorem attachExecutionLink_transition {link : ExecutionLink} (h : db.attachExecutionLink id link now = .ok (turn, db')) :
    Transition collation scope db db' := by
  have hdropped : (db.dropExecutionAdmission id).executionAdmissions.rows ⊆ db.executionAdmissions.rows :=
    fun _ h => (Table.mem_delete.mp h).1
  rw [attachExecutionLink] at h
  split at h
  · cases h
  · obtain ⟨existing, hexisting, hrest⟩ := bind_eq_ok.mp h
    split at hrest
    · obtain ⟨-, hrest⟩ := ite_error_eq_ok.mp hrest
      cases hrest
      exact .quiet hdropped rfl rfl rfl
    · split at hrest
      · cases hrest
      · next admission hadmission =>
          obtain ⟨hlink, hrest⟩ := ite_error_eq_ok.mp hrest
          obtain ⟨⟨updated, db₁⟩, hupdate, hattached⟩ := bind_eq_ok.mp hrest
          rcases updateTurn_eq_ok hupdate with ⟨rfl, rfl⟩ | ⟨row, hrow, hid, hp, rfl, rfl⟩
          · cases hattached
          · obtain ⟨attached, -, ⟨⟩⟩ := bind_eq_ok.mp hattached
            simp only [not_or, not_not] at hlink
            rw [Bool.and_eq_true] at hp
            exact .linked row admission link now hrow hp.1 (hid ▸ hadmission) hlink.2 rfl hdropped rfl rfl

theorem validateTarget_eq_ok (h : db.validateTarget target = .ok turn) :
    ∃ row, db.turns.find target.turnId = some row ∧ row.isExecuting = true ∧ row.executionLink = some target ∧
      turn.threadId = row.threadId := by
  rw [validateTarget] at h
  split at h
  · cases h
  · next row hselect =>
      obtain ⟨hfind, hexecuting⟩ := Option.filter_eq_some_iff.mp hselect
      obtain ⟨turn', hturn, hrest⟩ := bind_eq_ok.mp h
      obtain ⟨-, -, hthread, -, hlink, -⟩ := decodeAgent_eq_ok hturn
      obtain ⟨hsame, hrest⟩ := ite_error_eq_ok.mp hrest
      cases hrest
      exact ⟨row, hfind, hexecuting, hlink ▸ not_not.mp hsame, hthread⟩

theorem insertAdmission_eq_ok (h : db.insertAdmission admission = .ok db') :
    db.steering.find admission.input.idempotencyKey = none ∧
      db'.steering.rows = db.steering.rows ++ [SteeringRow.ofAdmission admission] ∧ db'.turns = db.turns ∧
        db'.queueStates = db.queueStates ∧ db'.executionAdmissions = db.executionAdmissions := by
  rw [insertAdmission] at h
  obtain ⟨-, h⟩ := ite_error_eq_ok.mp h
  split at h
  · cases h
  · next steering hinsert =>
      cases h
      obtain ⟨hfree, hrows⟩ := Table.insert_eq_some.mp hinsert
      exact ⟨hfree, hrows, rfl, rfl, rfl⟩

theorem prepareSteeringAdmission_transition
    (h : db.prepareSteeringAdmission target input pendingRequestIds now = .ok (admission, db')) :
    Transition collation scope db db' := by
  rw [prepareSteeringAdmission] at h
  split at h
  · obtain ⟨existing, -, hrest⟩ := bind_eq_ok.mp h
    split at hrest <;> cases hrest
    exact .refl
  · obtain ⟨_, -, hrest⟩ := bind_eq_ok.mp h
    obtain ⟨_, -, hrest⟩ := bind_eq_ok.mp hrest
    obtain ⟨db₁, hinsert, ⟨⟩⟩ := bind_eq_ok.mp hrest
    obtain ⟨hfree, hrows, hturns, hstates, hadmissions⟩ := insertAdmission_eq_ok hinsert
    exact .prepared _ hfree rfl rfl rfl hrows (hadmissions ▸ List.Subset.refl _) hturns (queueState_congr hstates)

theorem prepareQueuedSteeringAdmission_transition {source : String} {preparation : QueuedSteeringAdmissionPreparation}
    (h : db.prepareQueuedSteeringAdmission source target input pendingRequestIds now = .ok (preparation, db')) :
    Transition collation scope db db' := by
  rw [prepareQueuedSteeringAdmission] at h
  split at h
  · obtain ⟨existing, -, hrest⟩ := bind_eq_ok.mp h
    obtain ⟨others, -, hrest⟩ := bind_eq_ok.mp hrest
    obtain ⟨-, hrest⟩ := ite_error_eq_ok.mp hrest
    split at hrest <;> cases hrest
    exact .refl
  · next hunused =>
      obtain ⟨targetTurn, htarget, hrest⟩ := bind_eq_ok.mp h
      obtain ⟨targetRow, hfind, hexecuting, hlink, htargetThread⟩ := validateTarget_eq_ok htarget
      split at hrest
      · cases hrest
      · next row hselect =>
          obtain ⟨hrow, hqueued⟩ := Option.filter_eq_some_iff.mp hselect
          obtain rfl := Table.key_of_find hrow
          rw [Bool.and_eq_true, decide_eq_true_eq] at hqueued
          obtain ⟨sourceTurn, hsource, hrest⟩ := bind_eq_ok.mp hrest
          obtain ⟨-, hid, hthread, -⟩ := decodeAgent_eq_ok hsource
          obtain ⟨hsame, hrest⟩ := ite_error_eq_ok.mp hrest
          obtain ⟨_, -, hrest⟩ := bind_eq_ok.mp hrest
          obtain ⟨db₁, hinsert, hrest⟩ := bind_eq_ok.mp hrest
          obtain ⟨hfree, hrows, hturns₁, hstates₁, hadmissions₁⟩ := insertAdmission_eq_ok hinsert
          obtain ⟨⟨updated, db₂⟩, hupdate, hrest⟩ := bind_eq_ok.mp hrest
          obtain ⟨⟨state, db₃⟩, hstate, ⟨⟩⟩ := bind_eq_ok.mp hrest
          obtain ⟨hqueue, hturns, hsteering, hadmissions⟩ := updateQueueState_eq_ok hstate
          rw [hid] at hupdate
          obtain ⟨-, rfl⟩ := updateTurn_of_find (by rw [hturns₁, hrow]) rfl hupdate
          have hqueue₁ (turns) : queueState { db₁ with turns := turns } = db.queueState := queueState_congr hstates₁
          rw [hqueue₁, hthread] at hqueue
          refine .withdrawn row targetRow sourceTurn _ hfree ?_ hrow hqueued.1 hqueued.2 hsource hfind hexecuting
            hlink ?_ rfl rfl rfl (hsteering ▸ hrows) ?_ (hadmissions ▸ hadmissions₁ ▸ List.Subset.refl _)
            hqueue
          · intro other hother hsourceId
            refine List.ne_nil_of_mem (Table.mem_select.mpr ⟨hother, ?_⟩) hunused
            rw [hsourceId, decide_eq_true rfl, Bool.or_true]
          · rw [← hthread, not_not.mp hsame, htargetThread]
          · rw [hturns, hturns₁]

theorem acceptSteeringAdmission_transition (h : db.acceptSteeringAdmission requestId receipt = .ok (admission, db')) :
    Transition collation scope db db' := by
  rw [acceptSteeringAdmission] at h
  split at h
  · cases h
  · next row hrow =>
      obtain rfl := Table.key_of_find hrow
      rw [row.decodeAdmission_eq] at h
      obtain ⟨decoded, ⟨⟩, hrest⟩ := bind_eq_ok.mp h
      split at hrest
      · cases hrest
      · split at hrest <;> cases hrest
        exact .refl
      · next hpending =>
          cases hrest
          exact .accepted row receipt hrow hpending rfl (List.Subset.refl _) rfl rfl

theorem returnSource_eq_ok (h : db.returnSource collation admission = .ok (queue, db')) :
    (queue = none ∧ db' = db ∧
        ∀ source, admission.source = some source → ∀ turn, db.turns.find source.id = some turn →
          turn.status ≠ .queued) ∨
      ∃ source turn, admission.source = some source ∧ db.turns.find source.id = some turn ∧ turn.isAgent = true ∧
        turn.status = .queued ∧ db'.turns = db.turns ∧ db'.steering = db.steering ∧
          db'.executionAdmissions = db.executionAdmissions ∧
            db'.queueState = update db.queueState source.threadId
              (if admission.sourceWithdrawn then (db.queueState source.threadId).added
                else (db.queueState source.threadId).touched) := by
  rw [returnSource] at h
  split at h
  · next hnone =>
      cases h
      refine .inl ⟨rfl, rfl, ?_⟩
      rw [hnone]
      rintro source ⟨⟩
  · next source hsource =>
      split at h
      · next hfind =>
          cases h
          refine .inl ⟨rfl, rfl, ?_⟩
          rw [hsource]
          rintro _ ⟨⟩ turn hturn
          rw [hfind] at hturn
          cases hturn
      · next turn hturn =>
          obtain ⟨existing, hexisting, hrest⟩ := bind_eq_ok.mp h
          obtain ⟨hagent, -, -, hstatus, -⟩ := decodeAgent_eq_ok hexisting
          split at hrest
          · next hmoved =>
              cases hrest
              refine .inl ⟨rfl, rfl, ?_⟩
              rw [hsource]
              rintro _ ⟨⟩ turn' hturn'
              rw [hturn] at hturn'
              cases hturn'
              exact hstatus ▸ hmoved
          · next hqueued =>
              obtain ⟨⟨state, db₁⟩, hstate, ⟨⟩⟩ := bind_eq_ok.mp hrest
              obtain ⟨hqueue, hturns, hsteering, hadmissions⟩ := updateQueueState_eq_ok hstate
              exact .inr ⟨source, turn, hsource, hturn, hagent, hstatus ▸ not_not.mp hqueued, hturns, hsteering,
                hadmissions, hqueue⟩

theorem rejectSteeringAdmission_transition {failure : SteeringFailure}
    (h : db.rejectSteeringAdmission collation requestId failure = .ok (admission, db')) :
    Transition collation scope db db' := by
  rw [rejectSteeringAdmission] at h
  split at h
  · cases h
  · next row hrow =>
      obtain rfl := Table.key_of_find hrow
      rw [row.decodeAdmission_eq] at h
      obtain ⟨decoded, ⟨⟩, hrest⟩ := bind_eq_ok.mp h
      split at hrest
      · cases hrest
      · split at hrest <;> cases hrest
        exact .refl
      · next hpending =>
          obtain ⟨⟨queue, db₁⟩, hreturn, ⟨⟩⟩ := bind_eq_ok.mp hrest
          rcases returnSource_eq_ok hreturn with ⟨rfl, rfl, hgone⟩ |
            ⟨source, turn, hsource, hturn, hagent, hqueued, hturns, hsteering, hadmissions, hqueue⟩
          · exact .rejected row failure hrow hpending hgone rfl (List.Subset.refl _) rfl rfl
          · exact .returned row failure queue source turn hrow hpending hsource hturn hagent hqueued
              (by rw [settleAdmission, settleAdmission, hsteering]) (hadmissions ▸ List.Subset.refl _) hturns hqueue

theorem consumeSource_eq_ok (h : db.consumeSource admission = .ok (queue, db')) : (db' = db ∧
        ∀ source, admission.source = some source → ∀ turn, db.turns.find source.id = some turn →
          turn.isAgent = true → turn.status ≠ .queued) ∨
      ∃ source turn, admission.source = some source ∧ db.turns.find source.id = some turn ∧ turn.isAgent = true ∧
        turn.status = .queued ∧ db'.turns = (db.deleteTurn source.id).turns ∧
          db'.steering = (db.deleteTurn source.id).steering ∧
            db'.executionAdmissions = (db.deleteTurn source.id).executionAdmissions ∧
              db'.queueState = if admission.sourceWithdrawn then db.queueState
                else update db.queueState source.threadId (db.queueState source.threadId).removed := by
  rw [consumeSource] at h
  split at h
  · next hnone =>
      cases h
      refine .inl ⟨rfl, ?_⟩
      rw [hnone]
      rintro source ⟨⟩
  · next source hsource =>
      split at h
      · next hselect =>
          cases h
          refine .inl ⟨rfl, ?_⟩
          rw [hsource]
          rintro _ ⟨⟩ turn hturn hagent hqueued
          rw [hturn, Option.filter_some, if_pos (by simp [hagent, hqueued])] at hselect
          cases hselect
      · next turn hselect =>
          obtain ⟨hturn, hqueued⟩ := Option.filter_eq_some_iff.mp hselect
          rw [Bool.and_eq_true, decide_eq_true_eq] at hqueued
          right
          split at h
          · next hwithdrawn =>
              cases h
              exact ⟨source, turn, hsource, hturn, hqueued.1, hqueued.2, rfl, rfl, rfl, (if_pos hwithdrawn).symm⟩
          · next hwithdrawn =>
              obtain ⟨⟨state, db₁⟩, hstate, ⟨⟩⟩ := bind_eq_ok.mp h
              obtain ⟨hqueue, hturns, hsteering, hadmissions⟩ := updateQueueState_eq_ok hstate
              exact ⟨source, turn, hsource, hturn, hqueued.1, hqueued.2, hturns, hsteering, hadmissions,
                hqueue.trans (if_neg hwithdrawn).symm⟩

theorem completeSteeringAdmission_transition
    (hdeletes : ∀ row, db.steering.find requestId = some row → row.admission.outcome = .accepted receipt →
      row.admission.target = target → ∀ source, row.admission.source = some source → scope.deletes source.id)
    (h : db.completeSteeringAdmission requestId target receipt = .ok (queue, db')) :
    Transition collation scope db db' := by
  rw [completeSteeringAdmission] at h
  split at h
  · cases h
    exact .refl
  · next row hrow =>
      obtain rfl := Table.key_of_find hrow
      rw [row.decodeAdmission_eq] at h
      obtain ⟨decoded, ⟨⟩, hrest⟩ := bind_eq_ok.mp h
      obtain ⟨hsettled, hrest⟩ := ite_error_eq_ok.mp hrest
      simp only [not_or, not_not] at hsettled
      rcases consumeSource_eq_ok hrest with ⟨rfl, hgone⟩ |
        ⟨source, turn, hsource, hturn, hagent, hqueued, hturns, hsteering, hadmissions, hqueue⟩
      · exact .completed row receipt hrow hsettled.1 hgone rfl (List.Subset.refl _) rfl rfl
      · exact .consumed row receipt source turn hrow hsettled.1 hsource hturn hagent hqueued hturns hsteering
          (hadmissions ▸ deleteTurn_admissions (db.dropAdmission row.requestId) source.id) hqueue
          (hdeletes row hrow hsettled.1 hsettled.2 source hsource)

theorem completeRejectedSteeringAdmission_transition {done : Bool}
    (h : db.completeRejectedSteeringAdmission requestId = .ok (done, db')) : Transition collation scope db db' := by
  rw [completeRejectedSteeringAdmission] at h
  split at h
  · cases h
    exact .refl
  · next row hrow =>
      obtain rfl := Table.key_of_find hrow
      split at h
      · next hrejected =>
          cases h
          exact .forgotten row hrow hrejected rfl (List.Subset.refl _) rfl rfl
      · obtain ⟨decoded, -, hrest⟩ := bind_eq_ok.mp h
        split at hrest <;> cases hrest
        exact .refl

/-- The turn enters as it is, unless the trigger queues it, and only one copied as queued takes a queue entry. -/
theorem copy_eq_ok (h : db.copy turn capacity = .ok (submission, db')) :
    db.turns.find turn.id = none ∧ db'.turns.rows = db.turns.rows ++ [db.admitted turn.row] ∧
      db'.steering = db.steering ∧
        (turn.status ≠ .queued ∧ db'.queueState = db.queueState ∨
          turn.status = .queued ∧
            db'.queueState = update db.queueState turn.threadId (db.queueState turn.threadId).added) := by
  rw [copy] at h
  obtain ⟨⟨row, db₁⟩, hinsert, hrest⟩ := bind_eq_ok.mp h
  obtain ⟨rfl, hfree, hrows, hsteering₁, hstates, -⟩ := insertTurn_eq_ok hinsert
  have hqueue₁ := queueState_congr hstates
  have hid : (db.admitted turn.row).id = turn.id := by
    rcases admitted_eq db turn.row with hsame | ⟨-, -, -, hsame⟩ <;> rw [hsame] <;> rfl
  rw [hid] at hfree
  dsimp only at hrest
  split at hrest
  · next hstatus =>
      cases hrest
      exact ⟨hfree, hrows, hsteering₁, .inl ⟨hstatus, hqueue₁⟩⟩
  · next hstatus =>
      obtain ⟨⟨state, db₂⟩, hstate, ⟨⟩⟩ := bind_eq_ok.mp hrest
      obtain ⟨-, hqueue, hturns, hsteering, -⟩ := reserveQueueEntry_eq_ok hstate
      rw [hqueue₁] at hqueue
      exact ⟨hfree, hturns ▸ hrows, hsteering.trans hsteering₁, .inr ⟨not_not.mp hstatus, hqueue⟩⟩

/-- A call of the store, with the clock and the random numbers it reads. -/
inductive Operation
  | createForSubmission (input : CreateInput)
  | copy (turn : AgentExecutionTurn) (queueCapacity : Int)
  | createRecordedShell (turn : RecordedShellTurn)
  | copyRecordedShell (turn : RecordedShellTurn)
  | settleRecordedShell (expected : RecordedShellTurn) (status : TerminalStatus) (updatedAt : Finite)
  | claimNextQueued (threadId token : String)
  | finishQueuedClaim (claim : QueueClaim) (status : ClaimStatus) (now : Finite)
  | releaseQueuedClaim (claim : QueueClaim)
  | resetQueueClaims
  | editQueued (id prompt : String) (now : Finite)
  | dequeue (id : String)
  | requeueAccepted (id : String) (queueCapacity : Int) (now : Finite)
  | setStatus (id : String) (status : Status) (now : Finite)
  | startAccepted (id : String) (now : Finite)
  | cancelUnlinked (id : String) (now : Finite)
  | prepareExecutionAdmission (prepared : StartTurn) (now : Finite)
  | attachExecutionLink (id : String) (link : ExecutionLink) (now : Finite)
  | prepareSteeringAdmission (target : ExecutionLink) (input : SteeringInput) (pendingRequestIds : List String)
      (now : Finite)
  | prepareQueuedSteeringAdmission (source : String) (target : ExecutionLink) (input : SteeringInput)
      (pendingRequestIds : List String) (now : Finite)
  | acceptSteeringAdmission (requestId : String) (receipt : SteeringReceipt)
  | rejectSteeringAdmission (requestId : String) (failure : SteeringFailure)
  | completeSteeringAdmission (requestId : String) (target : ExecutionLink) (receipt : SteeringReceipt)
  | completeRejectedSteeringAdmission (requestId : String)

def Operation.isCopy : Operation → Bool
  | copy _ _ => true
  | _ => false

def Operation.scopeIn (db : TurnDatabase) : Operation → Scope
  | createForSubmission input => ⟨fun _ => False, fun capacity => capacity = input.queueCapacity⟩
  | requeueAccepted _ queueCapacity _ => ⟨fun _ => False, fun capacity => capacity = queueCapacity⟩
  | dequeue id =>
    ⟨fun turnId => turnId = id ∧ ∃ turn, db.turns.find id = some turn ∧ db.eligibleQueued turn = true, fun _ => False⟩
  | completeSteeringAdmission requestId target receipt =>
    ⟨fun turnId => ∃ row, db.steering.find requestId = some row ∧ row.admission.outcome = .accepted receipt ∧
      row.admission.target = target ∧ row.sourceTurnId = some turnId, fun _ => False⟩
  | _ => ⟨fun _ => False, fun _ => False⟩

def execute (collation : Collation) (db : TurnDatabase) : Operation → Except TurnError TurnDatabase
  | .createForSubmission input => (db.createForSubmission input).map Prod.snd
  | .copy turn queueCapacity => (db.copy turn queueCapacity).map Prod.snd
  | .createRecordedShell turn => db.createRecordedShell turn
  | .copyRecordedShell turn => db.copyRecordedShell turn
  | .settleRecordedShell expected status updatedAt => (db.settleRecordedShell expected status updatedAt).map Prod.snd
  | .claimNextQueued threadId token => (db.claimNextQueued collation threadId token).map Prod.snd
  | .finishQueuedClaim claim status now => (db.finishQueuedClaim claim status now).map Prod.snd
  | .releaseQueuedClaim claim => db.releaseQueuedClaim claim
  | .resetQueueClaims => db.resetQueueClaims
  | .editQueued id prompt now => (db.editQueued id prompt now).map Prod.snd
  | .dequeue id => (db.dequeue id).map Prod.snd
  | .requeueAccepted id queueCapacity now => (db.requeueAccepted id queueCapacity now).map Prod.snd
  | .setStatus id status now => (db.setStatus id status now).map Prod.snd
  | .startAccepted id now => (db.startAccepted id now).map Prod.snd
  | .cancelUnlinked id now => (db.cancelUnlinked id now).map Prod.snd
  | .prepareExecutionAdmission prepared now => (db.prepareExecutionAdmission prepared now).map Prod.snd
  | .attachExecutionLink id link now => (db.attachExecutionLink id link now).map Prod.snd
  | .prepareSteeringAdmission target input pendingRequestIds now =>
    (db.prepareSteeringAdmission target input pendingRequestIds now).map Prod.snd
  | .prepareQueuedSteeringAdmission source target input pendingRequestIds now =>
    (db.prepareQueuedSteeringAdmission source target input pendingRequestIds now).map Prod.snd
  | .acceptSteeringAdmission requestId receipt => (db.acceptSteeringAdmission requestId receipt).map Prod.snd
  | .rejectSteeringAdmission requestId failure =>
    (db.rejectSteeringAdmission collation requestId failure).map Prod.snd
  | .completeSteeringAdmission requestId target receipt =>
    (db.completeSteeringAdmission requestId target receipt).map Prod.snd
  | .completeRejectedSteeringAdmission requestId => (db.completeRejectedSteeringAdmission requestId).map Prod.snd

/-- A call as one transaction: a failed one rolls back. -/
def step (collation : Collation) (db : TurnDatabase) (operation : Operation) : TurnDatabase :=
  match db.execute collation operation with
  | .ok db' => db'
  | .error _ => db

def run (collation : Collation) (operations : List Operation) : TurnDatabase :=
  operations.foldl (step collation) empty

theorem execute_transition (hcopy : operation.isCopy = false)
    (h : db.execute collation operation = .ok db') : Transition collation (operation.scopeIn db) db db' := by
  cases operation with
  | createForSubmission input =>
    obtain ⟨_, h⟩ := map_snd_eq_ok h
    exact createForSubmission_transition rfl h
  | copy turn queueCapacity => cases hcopy
  | createRecordedShell turn =>
    rw [execute, createRecordedShell] at h
    obtain ⟨-, h⟩ := ite_else_error_eq_ok.mp h
    exact insertRecordedShell_transition h
  | copyRecordedShell turn =>
    rw [execute, copyRecordedShell] at h
    obtain ⟨-, h⟩ := ite_else_error_eq_ok.mp h
    exact insertRecordedShell_transition h
  | settleRecordedShell expected status updatedAt =>
    obtain ⟨_, h⟩ := map_snd_eq_ok h
    exact settleRecordedShell_transition h
  | claimNextQueued threadId token =>
    obtain ⟨_, h⟩ := map_snd_eq_ok h
    exact claimNextQueued_transition h
  | finishQueuedClaim claim status now =>
    obtain ⟨_, h⟩ := map_snd_eq_ok h
    exact finishQueuedClaim_transition h
  | releaseQueuedClaim claim => exact releaseQueuedClaim_transition h
  | resetQueueClaims => exact resetQueueClaims_transition h
  | editQueued id prompt now =>
    obtain ⟨_, h⟩ := map_snd_eq_ok h
    exact editQueued_transition h
  | dequeue id =>
    obtain ⟨_, h⟩ := map_snd_eq_ok h
    exact dequeue_transition (fun turn hturn heligible => ⟨rfl, turn, hturn, heligible⟩) h
  | requeueAccepted id queueCapacity now =>
    obtain ⟨_, h⟩ := map_snd_eq_ok h
    exact requeueAccepted_transition rfl h
  | setStatus id status now =>
    obtain ⟨_, h⟩ := map_snd_eq_ok h
    exact setStatus_transition h
  | startAccepted id now =>
    obtain ⟨_, h⟩ := map_snd_eq_ok h
    exact startAccepted_transition h
  | cancelUnlinked id now =>
    obtain ⟨_, h⟩ := map_snd_eq_ok h
    exact cancelUnlinked_transition h
  | prepareExecutionAdmission prepared now =>
    obtain ⟨_, h⟩ := map_snd_eq_ok h
    exact prepareExecutionAdmission_transition h
  | attachExecutionLink id link now =>
    obtain ⟨_, h⟩ := map_snd_eq_ok h
    exact attachExecutionLink_transition h
  | prepareSteeringAdmission target input pendingRequestIds now =>
    obtain ⟨_, h⟩ := map_snd_eq_ok h
    exact prepareSteeringAdmission_transition h
  | prepareQueuedSteeringAdmission source target input pendingRequestIds now =>
    obtain ⟨_, h⟩ := map_snd_eq_ok h
    exact prepareQueuedSteeringAdmission_transition h
  | acceptSteeringAdmission requestId receipt =>
    obtain ⟨_, h⟩ := map_snd_eq_ok h
    exact acceptSteeringAdmission_transition h
  | rejectSteeringAdmission requestId failure =>
    obtain ⟨_, h⟩ := map_snd_eq_ok h
    exact rejectSteeringAdmission_transition h
  | completeSteeringAdmission requestId target receipt =>
    obtain ⟨_, h⟩ := map_snd_eq_ok h
    refine completeSteeringAdmission_transition (fun row hrow haccepted htarget source hsource => ?_) h
    refine ⟨row, hrow, haccepted, htarget, ?_⟩
    rw [row.consistent.2.2.1, hsource, Option.map_some]
  | completeRejectedSteeringAdmission requestId =>
    obtain ⟨_, h⟩ := map_snd_eq_ok h
    exact completeRejectedSteeringAdmission_transition h

theorem step_transition (db : TurnDatabase) (hcopy : operation.isCopy = false) :
    Transition collation (operation.scopeIn db) db (step collation db operation) := by
  rw [step]
  split
  · next h => exact execute_transition hcopy h
  · exact .refl

end Rika.TurnDatabase
