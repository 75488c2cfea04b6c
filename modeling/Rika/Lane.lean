import Rika.TurnStore

namespace Rika.TurnDatabase

open Fold

/-- A thread's lane: one executing turn or one claimed turn at most, and a
claimed turn is still queued. -/
structure Lane (db : TurnDatabase) : Prop where
  executing : ∀ row ∈ db.turns.rows, ∀ other ∈ db.turns.rows, row.isExecuting = true → other.isExecuting = true →
    row.threadId = other.threadId → row.id = other.id
  claimed : ∀ row ∈ db.turns.rows, ∀ other ∈ db.turns.rows, row.queueClaimToken ≠ none →
    other.queueClaimToken ≠ none → row.threadId = other.threadId → row.id = other.id
  queued : ∀ row ∈ db.turns.rows, row.queueClaimToken ≠ none → row.isAgent = true ∧ row.status = .queued
  idle : ∀ row ∈ db.turns.rows, ∀ other ∈ db.turns.rows, row.queueClaimToken ≠ none → other.isExecuting = true →
    row.threadId ≠ other.threadId

variable {collation : Collation} {scope : Scope} {db db' : TurnDatabase}

theorem Lane.of_weaker (h : Lane db)
    (hweaker : ∀ row' ∈ db'.turns.rows, ∃ row ∈ db.turns.rows, row.id = row'.id ∧ row.threadId = row'.threadId ∧
      (row'.isExecuting = true → row.isExecuting = true) ∧
        (row'.queueClaimToken ≠ none →
          row.queueClaimToken ≠ none ∧ row.isAgent = row'.isAgent ∧ row.status = row'.status)) :
    Lane db' := by
  constructor
  · intro row' hrow' other' hother' hexecuting hexecuting' hthread'
    obtain ⟨row, hrow, hid, hthread, hrowExecuting, -⟩ := hweaker row' hrow'
    obtain ⟨other, hother, hotherId, hotherThread, hotherExecuting, -⟩ := hweaker other' hother'
    have := h.executing row hrow other hother (hrowExecuting hexecuting) (hotherExecuting hexecuting')
      (by rw [hthread, hotherThread, hthread'])
    rw [← hid, ← hotherId, this]
  · intro row' hrow' other' hother' htoken htoken' hthread'
    obtain ⟨row, hrow, hid, hthread, -, hrowToken⟩ := hweaker row' hrow'
    obtain ⟨other, hother, hotherId, hotherThread, -, hotherToken⟩ := hweaker other' hother'
    have := h.claimed row hrow other hother (hrowToken htoken).1 (hotherToken htoken').1
      (by rw [hthread, hotherThread, hthread'])
    rw [← hid, ← hotherId, this]
  · intro row' hrow' htoken
    obtain ⟨row, hrow, -, -, -, hrowToken⟩ := hweaker row' hrow'
    obtain ⟨hclaimed, hagent, hstatus⟩ := hrowToken htoken
    exact hagent ▸ hstatus ▸ h.queued row hrow hclaimed
  · intro row' hrow' other' hother' htoken hexecuting
    obtain ⟨row, hrow, -, hthread, -, hrowToken⟩ := hweaker row' hrow'
    obtain ⟨other, hother, -, hotherThread, hotherExecuting, -⟩ := hweaker other' hother'
    rw [← hthread, ← hotherThread]
    exact h.idle row hrow other hother (hrowToken htoken).1 (hotherExecuting hexecuting)

theorem Lane.of_subset (h : Lane db) (hsubset : db'.turns.rows ⊆ db.turns.rows) : Lane db' :=
  h.of_weaker fun row hrow => ⟨row, hsubset hrow, rfl, rfl, id, fun htoken => ⟨htoken, rfl, rfl⟩⟩

variable {row next : TurnRow} {f : TurnRow → TurnRow} {hf : ∀ row, (f row).id = row.id} {threadId token : String}
    {operations : List Operation}

theorem Lane.of_update (h : Lane db) (hrow : db.turns.find row.id = some row)
    (hturns : db'.turns = db.turns.update (fun other => other.id = row.id) f hf)
    (hthread : (f row).threadId = row.threadId) (hexecuting : (f row).isExecuting = true → row.isExecuting = true)
    (htoken : (f row).queueClaimToken ≠ none →
      row.queueClaimToken ≠ none ∧ row.isAgent = (f row).isAgent ∧ row.status = (f row).status) : Lane db' := by
  apply h.of_weaker
  intro row' hrow'
  rw [hturns, Table.mem_update_key hrow] at hrow'
  rcases hrow' with rfl | ⟨hrow', -⟩
  · exact ⟨row, Table.mem_of_find hrow, (hf row).symm, hthread.symm, hexecuting, htoken⟩
  · exact ⟨row', hrow', rfl, rfl, id, fun h => ⟨h, rfl, rfl⟩⟩

theorem Lane.of_append (h : Lane db) (hturns : db'.turns.rows = db.turns.rows ++ [row]) (htoken : row.queueClaimToken = none)
    (hexecuting : row.isExecuting = true → db.busy row.threadId = false) : Lane db' := by
  -- an open turn keeps the appended one from executing
  have hopen : row.isExecuting = true → ∀ other ∈ db.turns.rows, other.threadId = row.threadId →
      other.isOpen = false := by
    intro hrow other hother hthread
    have hidle := List.any_eq_false.mp (hexecuting hrow) other hother
    simpa [hthread] using hidle
  have hbusy : ∀ other : TurnRow, other.isExecuting = true → other.isOpen = true := by
    intro other
    rw [TurnRow.isExecuting, TurnRow.isOpen, Status.isActiveStatus]
    cases other.isAgent <;> cases other.status.isTerminalStatus <;> simp
  have hqueued : ∀ other ∈ db.turns.rows, other.queueClaimToken ≠ none → other.isOpen = true := by
    intro other hother hclaimed
    obtain ⟨hagent, hstatus⟩ := h.queued other hother hclaimed
    rw [TurnRow.isOpen, hagent, hstatus]
    rfl
  constructor
  · intro row₁ hrow₁ row₂ hrow₂ h₁ h₂ hthread
    rw [hturns, List.mem_append, List.mem_singleton] at hrow₁ hrow₂
    rcases hrow₁ with hrow₁ | rfl <;> rcases hrow₂ with hrow₂ | rfl
    · exact h.executing row₁ hrow₁ row₂ hrow₂ h₁ h₂ hthread
    · exact absurd (hbusy row₁ h₁) (by simp [hopen h₂ row₁ hrow₁ hthread])
    · exact absurd (hbusy row₂ h₂) (by simp [hopen h₁ row₂ hrow₂ hthread.symm])
    · rfl
  · intro row₁ hrow₁ row₂ hrow₂ h₁ h₂ hthread
    rw [hturns, List.mem_append, List.mem_singleton] at hrow₁ hrow₂
    rcases hrow₁ with hrow₁ | rfl
    · rcases hrow₂ with hrow₂ | rfl
      · exact h.claimed row₁ hrow₁ row₂ hrow₂ h₁ h₂ hthread
      · exact absurd htoken h₂
    · exact absurd htoken h₁
  · intro row₁ hrow₁ h₁
    rw [hturns, List.mem_append, List.mem_singleton] at hrow₁
    rcases hrow₁ with hrow₁ | rfl
    · exact h.queued row₁ hrow₁ h₁
    · exact absurd htoken h₁
  · intro row₁ hrow₁ row₂ hrow₂ h₁ h₂ hthread
    rw [hturns, List.mem_append, List.mem_singleton] at hrow₁ hrow₂
    rcases hrow₁ with hrow₁ | rfl
    · rcases hrow₂ with hrow₂ | rfl
      · exact h.idle row₁ hrow₁ row₂ hrow₂ h₁ h₂ hthread
      · exact absurd (hqueued row₁ hrow₁ h₁) (by simp [hopen h₂ row₁ hrow₁ hthread])
    · exact absurd htoken h₁

theorem not_executing_of_queued (row : TurnRow) (h : row.status = .queued) : ¬ row.isExecuting = true := by
  rw [TurnRow.isExecuting, h]
  simp [Status.isActiveStatus]

theorem nextQueued_eq_some (h : db.nextQueued collation threadId = some next) :
    next ∈ db.turns.rows ∧ db.visible threadId next = true ∧ next.queueClaimToken = none := by
  have hmem := List.mem_of_head? h
  rw [StableSort.mem_toSorted, Table.mem_select, Bool.and_eq_true, Option.isNone_iff_eq_none] at hmem
  exact hmem

theorem visible_eq_true : db.visible threadId row = true ↔
      row.threadId = threadId ∧ row.isAgent = true ∧ row.status = .queued ∧ db.hidden row.id = false := by
  simp [visible, eligibleQueued, and_assoc]

theorem Lane.claim (h : Lane db)
    (hnext : db.nextQueued collation threadId = some next) (hexecuting : db.executing threadId = false)
    (hclaimed : db.claimed threadId = false)
    (hturns : db'.turns = db.turns.update (fun row => row.id = next.id)
      fun row => { row with queueClaimToken := some token }) : Lane db' := by
  obtain ⟨hmem, hvisible, -⟩ := nextQueued_eq_some hnext
  obtain ⟨hthread, hagent, hstatus, -⟩ := visible_eq_true.mp hvisible
  -- no other turn of the thread is claimed or executes
  have hfree : ∀ row ∈ db.turns.rows, row.threadId = threadId → row.queueClaimToken = none := by
    intro row hrow hsame
    by_contra htoken
    have := List.any_eq_false.mp hclaimed row hrow
    obtain ⟨hagent, -⟩ := h.queued row hrow htoken
    obtain ⟨token', htoken'⟩ := Option.ne_none_iff_exists'.mp htoken
    simp [hsame, hagent, htoken'] at this
  have hidle : ∀ row ∈ db.turns.rows, row.threadId = threadId → row.isExecuting = false := by
    intro row hrow hsame
    have := List.any_eq_false.mp hexecuting row hrow
    simpa [hsame] using this
  have hrows : ∀ {row' : TurnRow}, row' ∈ db'.turns.rows ↔
      row' = { next with queueClaimToken := some token } ∨ row' ∈ db.turns.rows ∧ row'.id ≠ next.id := by
    intro row'
    rw [hturns]
    exact Table.mem_update_key (Table.find_key hmem)
  constructor
  · intro row₁ hrow₁ row₂ hrow₂ h₁ h₂ hsame
    rcases hrows.mp hrow₁ with rfl | ⟨hrow₁, -⟩
    · exact absurd h₁ (not_executing_of_queued _ hstatus)
    · rcases hrows.mp hrow₂ with rfl | ⟨hrow₂, -⟩
      · exact absurd h₂ (not_executing_of_queued _ hstatus)
      · exact h.executing row₁ hrow₁ row₂ hrow₂ h₁ h₂ hsame
  · intro row₁ hrow₁ row₂ hrow₂ h₁ h₂ hsame
    rcases hrows.mp hrow₁ with rfl | ⟨hrow₁, -⟩ <;> rcases hrows.mp hrow₂ with rfl | ⟨hrow₂, -⟩
    · rfl
    · exact absurd (hfree row₂ hrow₂ (hsame.symm.trans hthread)) h₂
    · exact absurd (hfree row₁ hrow₁ (hsame.trans hthread)) h₁
    · exact h.claimed row₁ hrow₁ row₂ hrow₂ h₁ h₂ hsame
  · intro row₁ hrow₁ h₁
    rcases hrows.mp hrow₁ with rfl | ⟨hrow₁, -⟩
    · exact ⟨hagent, hstatus⟩
    · exact h.queued row₁ hrow₁ h₁
  · intro row₁ hrow₁ row₂ hrow₂ h₁ h₂ hsame
    rcases hrows.mp hrow₂ with rfl | ⟨hrow₂, -⟩
    · exact absurd h₂ (not_executing_of_queued _ hstatus)
    · rcases hrows.mp hrow₁ with rfl | ⟨hrow₁, -⟩
      · exact absurd h₂ (by simp [hidle row₂ hrow₂ (hsame.symm.trans hthread)])
      · exact h.idle row₁ hrow₁ row₂ hrow₂ h₁ h₂ hsame

/-- The claimed turn leaves the queue: until then nothing else of the thread
executes or is claimed. -/
theorem Lane.finish (h : Lane db) (hrow : db.turns.find row.id = some row) (htoken : row.queueClaimToken ≠ none)
    (hturns : db'.turns = db.turns.update (fun other => other.id = row.id) f hf)
    (hthread : (f row).threadId = row.threadId) (hreleased : (f row).queueClaimToken = none) : Lane db' := by
  have hmem := Table.mem_of_find hrow
  have hrows : ∀ {row' : TurnRow}, row' ∈ db'.turns.rows ↔ row' = f row ∨ row' ∈ db.turns.rows ∧ row'.id ≠ row.id := by
    intro row'
    rw [hturns]
    exact Table.mem_update_key hrow
  constructor
  · intro row₁ hrow₁ row₂ hrow₂ h₁ h₂ hsame
    rcases hrows.mp hrow₁ with rfl | ⟨hrow₁, -⟩ <;> rcases hrows.mp hrow₂ with rfl | ⟨hrow₂, -⟩
    · rfl
    · exact absurd (hthread.symm.trans hsame) (h.idle row hmem row₂ hrow₂ htoken h₂)
    · exact absurd (hthread.symm.trans hsame.symm) (h.idle row hmem row₁ hrow₁ htoken h₁)
    · exact h.executing row₁ hrow₁ row₂ hrow₂ h₁ h₂ hsame
  · intro row₁ hrow₁ row₂ hrow₂ h₁ h₂ hsame
    rcases hrows.mp hrow₁ with rfl | ⟨hrow₁, -⟩
    · exact absurd hreleased h₁
    · rcases hrows.mp hrow₂ with rfl | ⟨hrow₂, -⟩
      · exact absurd hreleased h₂
      · exact h.claimed row₁ hrow₁ row₂ hrow₂ h₁ h₂ hsame
  · intro row₁ hrow₁ h₁
    rcases hrows.mp hrow₁ with rfl | ⟨hrow₁, -⟩
    · exact absurd hreleased h₁
    · exact h.queued row₁ hrow₁ h₁
  · intro row₁ hrow₁ row₂ hrow₂ h₁ h₂ hsame
    rcases hrows.mp hrow₁ with rfl | ⟨hrow₁, hne⟩
    · exact absurd hreleased h₁
    · rcases hrows.mp hrow₂ with rfl | ⟨hrow₂, -⟩
      · exact hne (h.claimed row₁ hrow₁ row hmem h₁ htoken (hsame.trans hthread))
      · exact h.idle row₁ hrow₁ row₂ hrow₂ h₁ h₂ hsame

theorem Transition.lane (h : Transition collation scope db db') (hlane : Lane db) : Lane db' := by
  cases h with
  | quiet _ hturns | admissionPrepared _ _ _ _ _ _ hturns | prepared _ _ _ _ _ _ _ hturns
  | accepted _ _ _ _ _ _ hturns | returned _ _ _ _ _ _ _ _ _ _ _ _ _ hturns | rejected _ _ _ _ _ _ _ hturns
  | completed _ _ _ _ _ _ _ hturns | forgotten _ _ _ _ _ hturns => exact hlane.of_subset (hturns ▸ List.Subset.refl _)
  | linked row _ _ _ hrow _ _ _ hturns =>
    exact hlane.of_update hrow hturns rfl id fun htoken => ⟨htoken, rfl, rfl⟩
  | released p hturns =>
    apply hlane.of_weaker
    intro row' hrow'
    rw [hturns, Table.mem_update] at hrow'
    obtain ⟨row, hrow, rfl⟩ := hrow'
    refine ⟨row, hrow, ?_⟩
    split
    · exact ⟨rfl, rfl, id, fun htoken => absurd rfl htoken⟩
    · exact ⟨rfl, rfl, id, fun htoken => ⟨htoken, rfl, rfl⟩⟩
  | claimed _ _ _ hnext hexecuting hclaimed hturns => exact hlane.claim hnext hexecuting hclaimed hturns
  | finished row _ _ hrow _ _ htoken hturns => exact hlane.finish hrow htoken hturns rfl rfl
  | edited row _ _ hrow _ hturns => exact hlane.of_update hrow hturns rfl id fun htoken => absurd rfl htoken
  | dequeued row _ _ hturns =>
    apply hlane.of_subset
    rw [hturns]
    exact fun _ h => (Table.mem_delete.mp h).1
  | requeued row _ _ hrow _ hstatus _ _ hturns =>
    refine hlane.of_update hrow hturns rfl (fun h => ?_) fun htoken => ?_
    · exact absurd h (by simp [TurnRow.isExecuting, Status.isActiveStatus])
    · have hqueued := (hlane.queued row (Table.mem_of_find hrow) htoken).2
      exact absurd (hstatus.symm.trans hqueued) (by decide)
  | submitted row _ _ _ _ htoken hidle hturns => exact hlane.of_append hturns htoken fun _ => hidle
  | enqueued row _ _ _ hstatus _ htoken _ hturns =>
    exact hlane.of_append hturns htoken fun h => absurd h (not_executing_of_queued row hstatus)
  | moved row _ _ hrow hstatus hterminal _ hturns =>
    refine hlane.of_update hrow hturns rfl (fun h => ?_) fun htoken => ?_
    · rw [TurnRow.isExecuting, Bool.and_eq_true] at h ⊢
      exact ⟨h.1, by simp [Status.isActiveStatus, hterminal, hstatus]⟩
    · exact absurd (hlane.queued row (Table.mem_of_find hrow) htoken).2 hstatus
  | recorded row _ hshell htoken hturns =>
    exact hlane.of_append hturns htoken fun h => absurd h (by simp [TurnRow.isExecuting, hshell])
  | withdrawn row _ _ _ _ _ hrow _ _ _ _ _ _ _ _ _ _ _ hturns =>
    exact hlane.of_update hrow hturns rfl id fun htoken => absurd rfl htoken
  | consumed _ _ _ _ _ _ _ _ _ _ hturns =>
    apply hlane.of_subset
    rw [hturns]
    exact fun _ h => (Table.mem_delete.mp h).1

section

variable {k : String} {row row₀ : TurnRow}

theorem status_of_update (hrow : db.turns.find k = some row) (hterminal : row.status.isTerminalStatus = true)
    (hrow₀ : db.turns.find row₀.id = some row₀) {f : TurnRow → TurnRow} {hf : ∀ row, (f row).id = row.id}
    (hturns : db'.turns = db.turns.update (fun other => other.id = row₀.id) f hf)
    (hstatus : row₀.status.isTerminalStatus = true → (f row₀).status = row₀.status) :
    ∃ row', db'.turns.find k = some row' ∧ row'.status = row.status := by
  rw [hturns, Table.find_update_key hrow₀]
  split
  · next hk =>
      obtain rfl : row₀ = row := by
        rw [hk, hrow₀] at hrow
        exact Option.some_inj.mp hrow
      exact ⟨_, rfl, hstatus hterminal⟩
  · exact ⟨row, hrow, rfl⟩

theorem status_of_append (hrow : db.turns.find k = some row) (hfree : db.turns.find row₀.id = none)
    (hturns : db'.turns.rows = db.turns.rows ++ [row₀]) :
    ∃ row', db'.turns.find k = some row' ∧ row'.status = row.status := by
  refine ⟨row, ?_, rfl⟩
  rw [Table.find_of_rows_append hturns, if_neg, hrow]
  rintro rfl
  rw [hrow] at hfree
  cases hfree

theorem status_of_delete (hrow : db.turns.find k = some row) (hterminal : row.status.isTerminalStatus = true)
    (hrow₀ : db.turns.find row₀.id = some row₀) (hqueued : row₀.status = .queued)
    (hturns : db'.turns = db.turns.delete fun other => other.id = row₀.id) :
    ∃ row', db'.turns.find k = some row' ∧ row'.status = row.status := by
  refine ⟨row, ?_, rfl⟩
  rw [hturns, Table.find_delete, hrow, Option.filter_some, if_pos]
  rw [Bool.not_eq_true', decide_eq_false_iff_not]
  intro hid
  obtain rfl : row = row₀ := by
    rw [← hid, Table.key_of_find hrow, hrow] at hrow₀
    exact Option.some_inj.mp hrow₀
  rw [hqueued] at hterminal
  cases hterminal

theorem Transition.terminal (h : Transition collation scope db db') (hrow : db.turns.find k = some row)
    (hterminal : row.status.isTerminalStatus = true) :
    ∃ row', db'.turns.find k = some row' ∧ row'.status = row.status := by
  have hsame : db'.turns = db.turns → ∃ row', db'.turns.find k = some row' ∧ row'.status = row.status := by
    intro hturns
    rw [hturns]
    exact ⟨row, hrow, rfl⟩
  cases h with
  | quiet _ hturns => exact hsame hturns
  | admissionPrepared _ _ _ _ _ _ hturns => exact hsame hturns
  | prepared _ _ _ _ _ _ _ hturns => exact hsame hturns
  | accepted _ _ _ _ _ _ hturns => exact hsame hturns
  | returned _ _ _ _ _ _ _ _ _ _ _ _ _ hturns => exact hsame hturns
  | rejected _ _ _ _ _ _ _ hturns => exact hsame hturns
  | completed _ _ _ _ _ _ _ hturns => exact hsame hturns
  | forgotten _ _ _ _ _ hturns => exact hsame hturns
  | linked _ _ _ _ hrow₀ _ _ _ hturns => exact status_of_update hrow hterminal hrow₀ hturns fun _ => rfl
  | released p hturns =>
    rw [hturns, Table.find_update, hrow, Option.map_some]
    refine ⟨_, rfl, ?_⟩
    split <;> rfl
  | claimed _ _ _ hnext _ _ hturns =>
    exact status_of_update hrow hterminal (Table.find_key (nextQueued_eq_some hnext).1) hturns fun _ => rfl
  | finished _ _ _ hrow₀ _ hstatus _ hturns =>
    refine status_of_update hrow hterminal hrow₀ hturns fun h => ?_
    rw [hstatus] at h
    cases h
  | edited _ _ _ hrow₀ _ hturns => exact status_of_update hrow hterminal hrow₀ hturns fun _ => rfl
  | dequeued row₀ hrow₀ heligible hturns =>
    rw [eligibleQueued, Bool.and_eq_true, Bool.and_eq_true, decide_eq_true_eq] at heligible
    exact status_of_delete hrow hterminal hrow₀ heligible.1.2 hturns
  | requeued _ _ _ hrow₀ _ hstatus _ _ hturns =>
    refine status_of_update hrow hterminal hrow₀ hturns fun h => ?_
    rw [hstatus] at h
    cases h
  | submitted _ hfree _ _ _ _ _ hturns | enqueued _ _ hfree _ _ _ _ _ hturns => exact status_of_append hrow hfree hturns
  | moved _ _ _ hrow₀ _ hmoving _ hturns =>
    refine status_of_update hrow hterminal hrow₀ hturns fun h => ?_
    rw [hmoving] at h
    cases h
  | recorded _ hfree _ _ hturns => exact status_of_append hrow hfree hturns
  | withdrawn _ _ _ _ _ _ hrow₀ _ _ _ _ _ _ _ _ _ _ _ hturns =>
    exact status_of_update hrow hterminal hrow₀ hturns fun _ => rfl
  | consumed _ _ source turn _ _ _ hturn _ hqueued hturns =>
    obtain hid := Table.key_of_find hturn
    rw [← hid] at hturn hturns
    exact status_of_delete hrow hterminal hturn hqueued hturns

end

instance (collation : Collation) : Std.TransCmp (TurnRow.queueOrder collation) :=
  inferInstanceAs (Std.TransCmp (compareLex (fun left right => compare left.createdAt right.createdAt)
    fun left right : TurnRow => collation.compare left.id right.id))

theorem claimNextQueued_least {claim : QueueClaim} (h : db.claimNextQueued collation threadId token = .ok (some claim, db')) :
    ∃ row, db.turns.find claim.turn.id = some row ∧ db.visible threadId row = true ∧
      ∀ other ∈ db.turns.rows, db.visible threadId other = true →
        (TurnRow.queueOrder collation row other).isLE = true := by
  rw [claimNextQueued] at h
  split at h
  · next next _ hnext =>
      obtain ⟨⟨updated, db₁⟩, hupdate, hrest⟩ := bind_eq_ok.mp h
      rcases updateTurn_eq_ok hupdate with ⟨rfl, rfl⟩ | ⟨row, hrow, hid, hp, rfl, rfl⟩
      · cases hrest
      · obtain ⟨turn, hturn, ⟨⟩⟩ := bind_eq_ok.mp hrest
        obtain ⟨-, hturnId, -⟩ := decodeAgent_eq_ok hturn
        obtain ⟨hmem, hvisible, -⟩ := nextQueued_eq_some hnext
        have hfind : db.turns.find turn.id = some next := by
          rw [hturnId, hid]
          exact Table.find_key hmem
        refine ⟨next, hfind, hvisible, fun other hother hothervisible => ?_⟩
        -- nothing of the thread is claimed, so the claim chooses among all visible turns
        simp only [Bool.and_eq_true, Bool.not_eq_true'] at hp
        obtain ⟨hthread, hagent, -⟩ := visible_eq_true.mp hothervisible
        have hunclaimed : other.queueClaimToken = none := by
          have := List.any_eq_false.mp hp.2 other hother
          simpa [hthread, hagent] using this
        have hcandidate : other ∈ StableSort.toSorted (TurnRow.queueOrder collation)
            (db.turns.select fun row => db.visible threadId row && row.queueClaimToken.isNone) := by
          rw [StableSort.mem_toSorted, Table.mem_select]
          exact ⟨hother, by simp [hothervisible, hunclaimed]⟩
        obtain ⟨tail, htail⟩ := List.head?_eq_some_iff.mp hnext
        have hsorted : StableSort.Sorted (TurnRow.queueOrder collation)
            (StableSort.toSorted (TurnRow.queueOrder collation)
              (db.turns.select fun row => db.visible threadId row && row.queueClaimToken.isNone)) :=
          StableSort.toSorted_sorted _
        rw [htail] at hcandidate hsorted
        rcases List.mem_cons.mp hcandidate with rfl | htailMem
        · exact Std.ReflCmp.isLE_rfl
        · exact List.rel_of_pairwise_cons hsorted htailMem
  · cases h

def CopyFree (operations : List Operation) : Prop := ∀ operation ∈ operations, operation.isCopy = false

instance (operations : List Operation) : Decidable (CopyFree operations) :=
  inferInstanceAs (Decidable (∀ operation ∈ operations, operation.isCopy = false))

theorem foldl_lane (hcopy : CopyFree operations) (hlane : Lane db) : Lane (operations.foldl (step collation) db) :=
  List.foldlRecOn operations (step collation) hlane fun db hlane operation hmem =>
    (step_transition db (hcopy operation hmem)).lane hlane

theorem foldl_terminal (hcopy : CopyFree operations) {k : String}
    (hrow : db.turns.find k = some row) (hterminal : row.status.isTerminalStatus = true) :
    ∃ row', (operations.foldl (step collation) db).turns.find k = some row' ∧ row'.status = row.status := by
  induction operations generalizing db row with
  | nil => exact ⟨row, hrow, rfl⟩
  | cons operation operations ih =>
    rw [List.foldl_cons]
    have hfirst : operation.isCopy = false := hcopy operation List.mem_cons_self
    have htransition : Transition collation (operation.scopeIn db) db (step collation db operation) :=
      step_transition db hfirst
    obtain ⟨row₁, hrow₁, hstatus₁⟩ := htransition.terminal hrow hterminal
    obtain ⟨row₂, hrow₂, hstatus₂⟩ := ih (fun other hother => hcopy other (List.mem_cons_of_mem _ hother)) hrow₁
      (hstatus₁ ▸ hterminal)
    exact ⟨row₂, hrow₂, hstatus₂.trans hstatus₁⟩

/-- From an empty store a thread has one executing and one claimed turn at most, and a claim takes the least visible
turn. -/
theorem single_lane (collation : Collation) (operations : List Operation) (hcopy : CopyFree operations) :
    (∀ row ∈ (run collation operations).turns.rows, ∀ other ∈ (run collation operations).turns.rows,
      row.isExecuting = true → other.isExecuting = true → row.threadId = other.threadId → row = other) ∧
    (∀ row ∈ (run collation operations).turns.rows, ∀ other ∈ (run collation operations).turns.rows,
      row.queueClaimToken ≠ none → other.queueClaimToken ≠ none → row.threadId = other.threadId → row = other) ∧
    (∀ row ∈ (run collation operations).turns.rows, row.queueClaimToken ≠ none → row.status = .queued) ∧
    (∀ row ∈ (run collation operations).turns.rows, row.status.isTerminalStatus = true →
      ∀ later, CopyFree later → ∃ row', (run collation (operations ++ later)).turns.find row.id = some row' ∧
        row'.status = row.status) ∧
    ∀ threadId token claim db', (run collation operations).claimNextQueued collation threadId token =
        .ok (some claim, db') →
      ∃ row, (run collation operations).turns.find claim.turn.id = some row ∧
        (run collation operations).visible threadId row = true ∧
          ∀ other ∈ (run collation operations).turns.rows, (run collation operations).visible threadId other = true →
            (TurnRow.queueOrder collation row other).isLE = true := by
  have hlane : Lane (run collation operations) :=
    foldl_lane hcopy ⟨by rintro row ⟨⟩, by rintro row ⟨⟩, by rintro row ⟨⟩, by rintro row ⟨⟩⟩
  refine ⟨?_, ?_, fun row hrow htoken => (hlane.queued row hrow htoken).2, ?_, ?_⟩
  · intro row hrow other hother h h' hthread
    exact Table.eq_of_key_eq _ hrow hother (hlane.executing row hrow other hother h h' hthread)
  · intro row hrow other hother h h' hthread
    exact Table.eq_of_key_eq _ hrow hother (hlane.claimed row hrow other hother h h' hthread)
  · intro row hrow hterminal later hlater
    rw [run, List.foldl_append]
    exact foldl_terminal hlater (Table.find_key hrow) hterminal
  · intro threadId token claim db' h
    exact claimNextQueued_least h

def sampleSubmission (id : String) (now : Finite) : Operation :=
  .createForSubmission ⟨id, "thread", "prompt", none, "route", none, none, 10, now⟩

def sampleOperations : List Operation :=
  [sampleSubmission "first" 1, sampleSubmission "second" 2, .setStatus "first" .completed 3]

def sampleRow (id : String) (status : Status) (createdAt updatedAt : Finite) : TurnRow :=
  ⟨id, "thread", .agentExecution "route", "prompt", none, status, none, .human, .original, none, createdAt, updatedAt⟩

theorem single_lane_sample :
    (∃ row', (run .codePoint (sampleOperations ++ [.startAccepted "first" 4])).turns.find "first" = some row' ∧
      row'.status = .completed) ∧
    ∃ row, (run .codePoint sampleOperations).turns.find "second" = some row ∧
      (run .codePoint sampleOperations).visible "thread" row = true ∧
        ∀ other ∈ (run .codePoint sampleOperations).turns.rows,
          (run .codePoint sampleOperations).visible "thread" other = true →
            (TurnRow.queueOrder .codePoint row other).isLE = true := by
  obtain ⟨-, -, -, hterminal, hleast⟩ := single_lane .codePoint sampleOperations (by decide)
  constructor
  · exact hterminal (sampleRow "first" .completed 1 3) (by decide) (by decide) [.startAccepted "first" 4] (by decide)
  · exact hleast "thread" "token" ⟨⟨"second", "thread", "prompt", none, .queued, "route", none, .human, .original, 2, 2⟩,
      "token"⟩ _ rfl

end Rika.TurnDatabase
