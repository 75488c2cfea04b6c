import Rika.Lane

namespace Rika.TurnDatabase

variable {collation : Collation} {scope : Scope} {db db' : TurnDatabase}

/-- The source of an admission that is not rejected stays queued and unclaimed, with the prompt it had. -/
structure Withdrawn (db : TurnDatabase) (row : SteeringRow) (source : AgentExecutionTurn) (turn : TurnRow) :
    Prop where
  find : db.turns.find source.id = some turn
  thread : turn.threadId = source.threadId
  agent : turn.isAgent = true
  queued : row.status ≠ .rejected → turn.status = .queued
  unclaimed : row.status ≠ .rejected → turn.queueClaimToken = none
  prompt : row.status ≠ .rejected → turn.prompt = source.prompt

structure Withdrawals (db : TurnDatabase) : Prop where
  unique : ∀ row ∈ db.steering.rows, ∀ other ∈ db.steering.rows, row.sourceTurnId ≠ none →
    row.sourceTurnId = other.sourceTurnId → row = other
  withdrawn : ∀ row ∈ db.steering.rows, ∀ source, row.admission.source = some source →
    row.admission.sourceWithdrawn = true ∧ ∃ turn, Withdrawn db row source turn

variable {row : SteeringRow} {source : AgentExecutionTurn} {row₀ turn : TurnRow} {outcome : SteeringOutcome}

theorem sourceTurnId_of_source (h : row.admission.source = some source) : row.sourceTurnId = some source.id := by
  rw [row.consistent.2.2.1, h]
  rfl

theorem hidden_eq_true {turnId : String} :
    db.hidden turnId = true ↔ ∃ row ∈ db.steering.rows, row.sourceTurnId = some turnId ∧ row.status ≠ .rejected := by
  simp [hidden]

theorem hidden_of_source (hrow : row ∈ db.steering.rows)
    (hsource : row.admission.source = some source) (hstatus : row.status ≠ .rejected) :
    db.hidden source.id = true :=
  hidden_eq_true.mpr ⟨row, hrow, sourceTurnId_of_source hsource, hstatus⟩

/-- What a step does to a turn leaves a withdrawn one queued, unclaimed and unedited. -/
structure Keeps (row : SteeringRow) (turn turn' : TurnRow) : Prop where
  thread : turn'.threadId = turn.threadId
  agent : turn'.isAgent = turn.isAgent
  queued : row.status ≠ .rejected → turn'.status = turn.status
  unclaimed : row.status ≠ .rejected → turn.queueClaimToken = none → turn'.queueClaimToken = none
  prompt : row.status ≠ .rejected → turn'.prompt = turn.prompt

theorem Keeps.refl (row : SteeringRow) (turn : TurnRow) : Keeps row turn turn :=
  ⟨rfl, rfl, fun _ => rfl, fun _ => id, fun _ => rfl⟩

section

variable (h : Withdrawals db)

include h

theorem Withdrawals.of_subset (hsteering : db'.steering.rows ⊆ db.steering.rows)
    (hturns : ∀ row ∈ db'.steering.rows, ∀ source turn, row.admission.source = some source →
      Withdrawn db row source turn → ∃ turn', db'.turns.find source.id = some turn' ∧ Keeps row turn turn') :
    Withdrawals db' := by
  constructor
  · intro row hrow other hother
    exact h.unique row (hsteering hrow) other (hsteering hother)
  · intro row hrow source hsource
    obtain ⟨hwithdrawn, turn, hturn⟩ := h.withdrawn row (hsteering hrow) source hsource
    obtain ⟨turn', hfind, hkeeps⟩ := hturns row hrow source turn hsource hturn
    exact ⟨hwithdrawn, turn', hfind, hkeeps.thread.trans hturn.thread, hkeeps.agent.trans hturn.agent,
      fun hstatus => (hkeeps.queued hstatus).trans (hturn.queued hstatus),
      fun hstatus => hkeeps.unclaimed hstatus (hturn.unclaimed hstatus),
      fun hstatus => (hkeeps.prompt hstatus).trans (hturn.prompt hstatus)⟩

theorem Withdrawals.of_turns (hsteering : db'.steering.rows ⊆ db.steering.rows)
    (hturns : db'.turns = db.turns) : Withdrawals db' :=
  h.of_subset hsteering fun row _ source turn _ hturn => ⟨turn, by rw [hturns, hturn.find], Keeps.refl row turn⟩

/-- One turn is rewritten, and it is not a withdrawn one unless the rewriting
keeps it. -/
theorem Withdrawals.of_update (hrow₀ : db.turns.find row₀.id = some row₀)
    {f : TurnRow → TurnRow} {hf : ∀ row, (f row).id = row.id}
    (hturns : db'.turns = db.turns.update (fun other => other.id = row₀.id) f hf)
    (hsteering : db'.steering = db.steering)
    (hkeeps : ∀ row ∈ db.steering.rows, ∀ source, row.admission.source = some source →
      Withdrawn db row source row₀ → Keeps row row₀ (f row₀)) : Withdrawals db' := by
  apply h.of_subset (hsteering ▸ List.Subset.refl _)
  intro row hrow source turn hsource hturn
  rw [hsteering] at hrow
  rw [hturns, Table.find_update_key hrow₀]
  split
  · next hid =>
      obtain rfl : row₀ = turn := Option.some_inj.mp (hrow₀.symm.trans (hid ▸ hturn.find))
      exact ⟨_, rfl, hkeeps row hrow source hsource hturn⟩
  · exact ⟨turn, hturn.find, Keeps.refl row turn⟩

theorem Withdrawals.of_append (hfree : db.turns.find row₀.id = none)
    (hturns : db'.turns.rows = db.turns.rows ++ [row₀]) (hsteering : db'.steering = db.steering) :
    Withdrawals db' := by
  apply h.of_subset (hsteering ▸ List.Subset.refl _)
  intro row _ source turn _ hturn
  refine ⟨turn, ?_, Keeps.refl row turn⟩
  rw [Table.find_of_rows_append hturns, if_neg, hturn.find]
  intro hid
  rw [← hid, hturn.find] at hfree
  cases hfree

theorem Withdrawals.of_delete {id : String}
    (hturns : db'.turns = db.turns.delete fun row => row.id = id)
    (hsteering : ∀ row ∈ db'.steering.rows, row ∈ db.steering.rows ∧ row.sourceTurnId ≠ some id) :
    Withdrawals db' := by
  apply h.of_subset fun row hrow => (hsteering row hrow).1
  intro row hrow source turn hsource hturn
  refine ⟨turn, ?_, Keeps.refl row turn⟩
  rw [hturns, Table.find_delete, hturn.find, Option.filter_some, if_pos]
  rw [Bool.not_eq_true', decide_eq_false_iff_not]
  intro hid
  apply (hsteering row hrow).2
  rw [sourceTurnId_of_source hsource, ← Table.key_of_find hturn.find, hid]

end

theorem mem_settleAdmission {row' : SteeringRow} (hrow : db.steering.find row.requestId = some row) :
    row' ∈ (db.settleAdmission row.requestId outcome).steering.rows ↔
      row' = row.settled outcome ∨ row' ∈ db.steering.rows ∧ row'.requestId ≠ row.requestId := by
  rw [settleAdmission, Table.mem_update_key hrow]

theorem Withdrawals.of_settle (h : Withdrawals db) {row₀ : SteeringRow}
    (hrow₀ : db.steering.find row₀.requestId = some row₀) (hpending : row₀.admission.outcome = .pending)
    (hsteering : db'.steering = (db.settleAdmission row₀.requestId outcome).steering)
    (hturns : db'.turns = db.turns) : Withdrawals db' := by
  have hstatus : row₀.status ≠ .rejected := by
    rw [row₀.consistent.2.2.2.2, hpending]
    decide
  have hmem : ∀ row' ∈ db'.steering.rows, row' = row₀.settled outcome ∨ row' ∈ db.steering.rows ∧
      row'.requestId ≠ row₀.requestId := by
    intro row' hrow'
    rw [hsteering] at hrow'
    exact (mem_settleAdmission hrow₀).mp hrow'
  constructor
  · intro row hrow other hother hsource hsame
    rcases hmem row hrow with rfl | ⟨hrow, hne⟩ <;> rcases hmem other hother with rfl | ⟨hother, hne'⟩
    · rfl
    · exact absurd (congrArg SteeringRow.requestId
        (h.unique row₀ (Table.mem_of_find hrow₀) other hother hsource hsame)).symm hne'
    · exact absurd (congrArg SteeringRow.requestId
        (h.unique row hrow row₀ (Table.mem_of_find hrow₀) hsource hsame)) hne
    · exact h.unique row hrow other hother hsource hsame
  · intro row hrow source hsource
    rcases hmem row hrow with rfl | ⟨hrow, -⟩
    · obtain ⟨hwithdrawn, turn, hturn⟩ := h.withdrawn row₀ (Table.mem_of_find hrow₀) source hsource
      exact ⟨hwithdrawn, turn, hturns ▸ hturn.find, hturn.thread, hturn.agent, fun _ => hturn.queued hstatus,
        fun _ => hturn.unclaimed hstatus, fun _ => hturn.prompt hstatus⟩
    · obtain ⟨hwithdrawn, turn, hturn⟩ := h.withdrawn row hrow source hsource
      exact ⟨hwithdrawn, turn, hturns ▸ hturn.find, hturn.thread, hturn.agent, hturn.queued, hturn.unclaimed,
        hturn.prompt⟩

theorem Withdrawn.rejected_of_visible
    (h : Withdrawn db row source turn) (hrow : row ∈ db.steering.rows) (hsource : row.admission.source = some source)
    (hvisible : db.hidden turn.id = false) : row.status = .rejected := by
  by_contra hstatus
  have hhidden := hidden_of_source hrow hsource hstatus
  rw [← Table.key_of_find h.find, hvisible] at hhidden
  cases hhidden

theorem Keeps.of_rejected {turn' : TurnRow} (hstatus : row.status = .rejected)
    (hthread : turn'.threadId = turn.threadId) (hagent : turn'.isAgent = turn.isAgent) : Keeps row turn turn' :=
  ⟨hthread, hagent, fun h => absurd hstatus h, fun h => absurd hstatus h, fun h => absurd hstatus h⟩

theorem eligibleQueued_eq_true {row : TurnRow} :
    db.eligibleQueued row = true ↔ row.isAgent = true ∧ row.status = .queued ∧ db.hidden row.id = false := by
  simp [eligibleQueued, and_assoc]

theorem Withdrawals.withdraw (h : Withdrawals db)
    {admission : SteeringAdmission} (hunused : ∀ other ∈ db.steering.rows, other.sourceTurnId ≠ some row₀.id)
    (hrow₀ : db.turns.find row₀.id = some row₀) (hagent : row₀.isAgent = true) (hqueued : row₀.status = .queued)
    (hdecoded : row₀.decodeAgent = .ok source) (hsource : admission.source = some source)
    (hwithdrawn : admission.sourceWithdrawn = true)
    (hsteering : db'.steering.rows = db.steering.rows ++ [SteeringRow.ofAdmission admission])
    (hturns : db'.turns = db.turns.update (fun other => other.id = row₀.id)
      fun other => { other with queueClaimToken := none }) : Withdrawals db' := by
  obtain ⟨-, hid, hthread, -, -, hprompt⟩ := decodeAgent_eq_ok hdecoded
  have hnew : (SteeringRow.ofAdmission admission).sourceTurnId = some row₀.id := by
    rw [← hid]
    exact sourceTurnId_of_source hsource
  have hfind : ∀ k, db'.turns.find k =
      if k = row₀.id then some { row₀ with queueClaimToken := none } else db.turns.find k := by
    intro k
    rw [hturns]
    exact Table.find_update_key hrow₀ _ _ k
  constructor
  · intro row hrow other hother hne hsame
    rw [hsteering, List.mem_append, List.mem_singleton] at hrow hother
    rcases hrow with hrow | rfl <;> rcases hother with hother | rfl
    · exact h.unique row hrow other hother hne hsame
    · exact absurd (hsame.trans hnew) (hunused row hrow)
    · exact absurd (hsame.symm.trans hnew) (hunused other hother)
    · rfl
  · intro row hrow source' hsource'
    rw [hsteering, List.mem_append, List.mem_singleton] at hrow
    rcases hrow with hrow | rfl
    · obtain ⟨hrowWithdrawn, turn, hturn⟩ := h.withdrawn row hrow source' hsource'
      have hother : source'.id ≠ row₀.id := by
        intro hsame
        exact hunused row hrow (hsame ▸ sourceTurnId_of_source hsource')
      refine ⟨hrowWithdrawn, turn, ?_, hturn.thread, hturn.agent, hturn.queued, hturn.unclaimed, hturn.prompt⟩
      rw [hfind, if_neg hother, hturn.find]
    · obtain rfl : source = source' := Option.some_inj.mp (hsource.symm.trans hsource')
      refine ⟨hwithdrawn, { row₀ with queueClaimToken := none }, ?_, hthread.symm, hagent, fun _ => hqueued,
        fun _ => rfl, fun _ => hprompt.symm⟩
      rw [hfind, if_pos hid]

theorem Transition.withdrawals (h : Transition collation scope db db') (hinv : Withdrawals db) : Withdrawals db' := by
  cases h with
  | quiet _ hturns hsteering | admissionPrepared _ _ _ _ _ _ hturns hsteering =>
    exact hinv.of_turns (hsteering ▸ List.Subset.refl _) hturns
  | linked _ _ _ _ hrow₀ _ _ _ hturns _ hsteering =>
    exact hinv.of_update hrow₀ hturns hsteering fun _ _ _ _ _ => ⟨rfl, rfl, fun _ => rfl, fun _ => id, fun _ => rfl⟩
  | released p hturns _ hsteering =>
    apply hinv.of_subset (hsteering ▸ List.Subset.refl _)
    intro row _ source turn _ hturn
    rw [hturns, Table.find_update, hturn.find, Option.map_some]
    refine ⟨_, rfl, ?_⟩
    split
    · exact ⟨rfl, rfl, fun _ => rfl, fun _ _ => rfl, fun _ => rfl⟩
    · exact Keeps.refl row turn
  | claimed threadId _ next hnext _ _ hturns _ hsteering =>
    obtain ⟨hmem, hvisible, -⟩ := nextQueued_eq_some hnext
    refine hinv.of_update (Table.find_key hmem) hturns hsteering fun row hrow source hsource hturn => ?_
    exact Keeps.of_rejected (hturn.rejected_of_visible hrow hsource (visible_eq_true.mp hvisible).2.2.2) rfl rfl
  | finished _ _ _ hrow₀ _ _ htoken hturns _ hsteering =>
    refine hinv.of_update hrow₀ hturns hsteering fun row hrow source hsource hturn => ?_
    exact Keeps.of_rejected (by_contra fun hstatus => htoken (hturn.unclaimed hstatus)) rfl rfl
  | edited _ _ _ hrow₀ heligible hturns _ hsteering =>
    refine hinv.of_update hrow₀ hturns hsteering fun row hrow source hsource hturn => ?_
    exact Keeps.of_rejected (hturn.rejected_of_visible hrow hsource (eligibleQueued_eq_true.mp heligible).2.2) rfl
      rfl
  | dequeued row₀ _ _ hturns hsteering =>
    refine hinv.of_delete hturns fun row hrow => ?_
    rw [hsteering] at hrow
    obtain ⟨hmem, hdropped⟩ := Table.mem_delete.mp hrow
    rw [Bool.or_eq_false_iff, decide_eq_false_iff_not, decide_eq_false_iff_not] at hdropped
    exact ⟨hmem, hdropped.2⟩
  | requeued _ _ _ hrow₀ _ hstatus _ _ hturns _ hsteering =>
    refine hinv.of_update hrow₀ hturns hsteering fun row hrow source hsource hturn => ?_
    refine Keeps.of_rejected (by_contra fun hpending => ?_) rfl rfl
    rw [hturn.queued hpending] at hstatus
    cases hstatus
  | submitted _ hfree _ _ _ _ _ hturns _ hsteering | enqueued _ _ hfree _ _ _ _ _ hturns _ hsteering =>
    exact hinv.of_append hfree hturns hsteering
  | moved _ _ _ hrow₀ hstatus _ _ hturns _ hsteering =>
    refine hinv.of_update hrow₀ hturns hsteering fun row hrow source hsource hturn => ?_
    exact Keeps.of_rejected (by_contra fun hpending => hstatus (hturn.queued hpending)) rfl rfl
  | recorded _ hfree _ _ hturns _ hsteering => exact hinv.of_append hfree hturns hsteering
  | prepared admission _ hsource _ _ hsteering _ hturns =>
    have hnew : (SteeringRow.ofAdmission admission).sourceTurnId = none := by
      change Option.map _ admission.source = none
      rw [hsource, Option.map_none]
    constructor
    · intro row hrow other hother hne hsame
      rw [hsteering, List.mem_append, List.mem_singleton] at hrow hother
      rcases hrow with hrow | rfl
      · rcases hother with hother | rfl
        · exact hinv.unique row hrow other hother hne hsame
        · exact absurd (hsame.trans hnew) hne
      · exact absurd hnew hne
    · intro row hrow source hrowSource
      rw [hsteering, List.mem_append, List.mem_singleton] at hrow
      rcases hrow with hrow | rfl
      · obtain ⟨hwithdrawn, turn, hturn⟩ := hinv.withdrawn row hrow source hrowSource
        exact ⟨hwithdrawn, turn, hturns ▸ hturn.find, hturn.thread, hturn.agent, hturn.queued, hturn.unclaimed,
          hturn.prompt⟩
      · cases hsource.symm.trans hrowSource
  | withdrawn _ _ _ _ _ hunused hrow₀ hagent hstatus hdecoded _ _ _ _ hsource _ hwithdrawn hsteering hturns =>
    exact hinv.withdraw hunused hrow₀ hagent hstatus hdecoded hsource hwithdrawn hsteering hturns
  | accepted _ _ hrow₀ hpending hsteering _ hturns
  | returned _ _ _ _ _ hrow₀ hpending _ _ _ _ hsteering _ hturns
  | rejected _ _ hrow₀ hpending _ hsteering _ hturns => exact hinv.of_settle hrow₀ hpending hsteering hturns
  | consumed _ _ _ _ _ _ _ _ _ _ hturns hsteering =>
    refine hinv.of_delete hturns fun row hrow => ?_
    rw [hsteering] at hrow
    obtain ⟨hmem, hdropped⟩ := Table.mem_delete.mp hrow
    rw [Bool.or_eq_false_iff, decide_eq_false_iff_not, decide_eq_false_iff_not] at hdropped
    exact ⟨(Table.mem_delete.mp hmem).1, hdropped.2⟩
  | completed _ _ _ _ _ hsteering _ hturns | forgotten _ _ _ hsteering _ hturns =>
    exact hinv.of_turns (hsteering ▸ fun _ hrow => (Table.mem_delete.mp hrow).1) hturns

theorem step_withdrawals (hinv : Withdrawals db) (operation : Operation) :
    Withdrawals (step collation db operation) := by
  cases hcopy : operation.isCopy with
  | false => exact (step_transition db hcopy).withdrawals hinv
  | true =>
    cases operation with
    | copy turn queueCapacity =>
      rw [step]
      split
      · next db' h =>
          obtain ⟨submission, h⟩ := Fold.map_snd_eq_ok h
          obtain ⟨hfree, hturns, hsteering, -⟩ := copy_eq_ok h
          refine hinv.of_append ?_ hturns hsteering
          rcases admitted_eq db turn.row with hsame | ⟨-, -, -, hsame⟩ <;> rw [hsame] <;> exact hfree
      · exact hinv
    | _ => cases hcopy

theorem run_withdrawals (collation : Collation) (operations : List Operation) :
    Withdrawals (run collation operations) :=
  List.foldlRecOn operations (step collation) ⟨by rintro row ⟨⟩, by rintro row ⟨⟩⟩
    fun _ hinv operation _ => step_withdrawals hinv operation

end Rika.TurnDatabase
