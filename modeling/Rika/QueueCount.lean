import Rika.SteeringRuns

namespace Rika

structure QueueEntry where
  id : String
  prompt : String
  promptParts : Option String
  createdAt : Finite
deriving DecidableEq

def TurnRow.entry (row : TurnRow) : QueueEntry := ⟨row.id, row.prompt, row.promptParts, row.createdAt⟩

def QueueEntry.queueOrder (collation : Collation) (left right : QueueEntry) : Ordering :=
  (compare left.createdAt right.createdAt).then (collation.compare left.id right.id)

namespace TurnDatabase

open Fold Function

variable {collation : Collation} {scope : Scope} {db db' : TurnDatabase} {threadId : String}

section

variable (db : TurnDatabase) (threadId : String)

def depth : Nat := db.turns.rows.countP (db.visible threadId)

def entries : List QueueEntry :=
  (db.turns.select (db.visible threadId)).map TurnRow.entry

theorem entries_eq : (db.visibleQueue collation threadId).map TurnRow.entry =
      StableSort.toSorted (QueueEntry.queueOrder collation) (db.entries threadId) :=
  (StableSort.toSorted_map (QueueEntry.queueOrder collation) TurnRow.entry _ fun _ _ => rfl).symm

theorem depth_eq : db.depth threadId = (db.entries threadId).length := by
  rw [depth, entries, List.length_map, List.countP_eq_length_filter, Table.select]

end

/-- A withdrawn turn waits on this one: an admission that is not rejected
steers this turn with it. -/
def awaited (db : TurnDatabase) (turnId : String) : Bool :=
  db.steering.rows.any fun row => row.targetTurnId = turnId && row.sourceTurnId.isSome && row.status ≠ .rejected

/-- What a step does to the visible queue of a thread and to its stored state. -/
inductive QueueStep (db db' : TurnDatabase) (threadId : String) : Prop
  | same (hentries : db'.entries threadId = db.entries threadId)
      (hqueue : db'.queueState threadId = db.queueState threadId)
  | touched (hdepth : db'.depth threadId = db.depth threadId)
      (hqueue : db'.queueState threadId = (db.queueState threadId).touched)
  | added (hdepth : db'.depth threadId = db.depth threadId + 1)
      (hqueue : db'.queueState threadId = (db.queueState threadId).added)
  | removed (hdepth : db'.depth threadId + 1 = db.depth threadId)
      (hqueue : db'.queueState threadId = (db.queueState threadId).removed)

theorem QueueStep.count (h : QueueStep db db' threadId)
    (hcount : (db.queueState threadId).queuedCount = db.depth threadId) :
    (db'.queueState threadId).queuedCount = db'.depth threadId := by
  cases h with
  | same hentries hqueue => rw [hqueue, hcount, depth_eq, depth_eq, hentries]
  | touched hdepth hqueue =>
    rw [hqueue, hdepth, ← hcount]
    rfl
  | added hdepth hqueue =>
    rw [hqueue, hdepth, Nat.cast_succ, ← hcount]
    rfl
  | removed hdepth hqueue =>
    have hpositive : (db.queueState threadId).queuedCount > 0 := by omega
    rw [hqueue, QueueState.removed]
    dsimp only
    rw [if_pos hpositive]
    omega

theorem QueueStep.revision (h : QueueStep db db' threadId)
    (hchanged : (db'.visibleQueue collation threadId).map TurnRow.entry ≠
      (db.visibleQueue collation threadId).map TurnRow.entry) :
    (db.queueState threadId).revision < (db'.queueState threadId).revision := by
  cases h with
  | same hentries _ =>
    rw [entries_eq, entries_eq, hentries] at hchanged
    exact absurd rfl hchanged
  | touched _ hqueue | added _ hqueue | removed _ hqueue =>
    rw [hqueue]
    exact Nat.lt_succ_self _

section Frames

variable {row₀ : TurnRow} {g : TurnRow → TurnRow}

theorem visible_congr (h : db'.steering = db.steering) : db'.visible = db.visible := by
  funext threadId row
  rw [visible, eligibleQueued, hidden, h, visible, eligibleQueued, hidden]

variable {row : TurnRow} {turnId : String}

theorem visible_of_hidden (h : db'.hidden row.id = db.hidden row.id) : db'.visible threadId row = db.visible threadId row := by
  rw [visible, eligibleQueued, h, visible, eligibleQueued]

theorem visible_of_hidden_eq_true (h : db.hidden row.id = true) : db.visible threadId row = false := by
  rw [visible, eligibleQueued, h, Bool.not_true, Bool.and_false, Bool.and_false]

theorem visible_of_ne (h : threadId ≠ row.threadId) : db.visible threadId row = false := by
  rw [visible, decide_eq_false h.symm, Bool.false_and]

theorem visible_of_status (h : row.status ≠ .queued) : db.visible threadId row = false := by
  rw [visible, eligibleQueued, decide_eq_false h, Bool.and_false, Bool.false_and, Bool.and_false]

theorem entries_of_map (hrows : db'.turns.rows = db.turns.rows.map g)
    (hvisible : ∀ row ∈ db.turns.rows, db'.visible threadId (g row) = db.visible threadId row)
    (hentry : ∀ row ∈ db.turns.rows, db.visible threadId row = true → (g row).entry = row.entry) :
    db'.entries threadId = db.entries threadId := by
  rw [entries, entries, Table.select, Table.select, hrows, List.filter_map, List.map_map]
  have hfilter : db.turns.rows.filter (db'.visible threadId ∘ g) = db.turns.rows.filter (db.visible threadId) :=
    List.filter_congr hvisible
  rw [hfilter]
  apply List.map_congr_left
  intro row hrow
  obtain ⟨hmem, hrowVisible⟩ := List.mem_filter.mp hrow
  exact hentry row hmem hrowVisible

theorem depth_of_map (hrow₀ : db.turns.find row₀.id = some row₀) (hrows : db'.turns.rows = db.turns.rows.map g)
    (hvisible : ∀ row ∈ db.turns.rows, row.id ≠ row₀.id → db'.visible threadId (g row) = db.visible threadId row) :
    db'.depth threadId + (db.visible threadId row₀).toNat =
      db.depth threadId + (db'.visible threadId (g row₀)).toNat := by
  have hcount := Table.countP_change hrow₀ hvisible
  rw [depth, hrows, List.countP_map, depth]
  exact hcount

theorem entries_of_append (hrows : db'.turns.rows = db.turns.rows ++ [row₀]) (hsteering : db'.steering = db.steering)
    (hhidden : db.visible threadId row₀ = false) : db'.entries threadId = db.entries threadId := by
  rw [entries, entries, Table.select, Table.select, hrows, visible_congr hsteering, List.filter_append,
    List.filter_singleton, hhidden]
  simp

theorem depth_of_append (hrows : db'.turns.rows = db.turns.rows ++ [row₀]) (hsteering : db'.steering = db.steering)
    (hvisible : db.visible threadId row₀ = true) : db'.depth threadId = db.depth threadId + 1 := by
  rw [depth, depth, hrows, visible_congr hsteering, List.countP_append, List.countP_singleton, if_pos hvisible]

theorem entries_of_delete (hrows : db'.turns.rows = db.turns.rows.filter fun row => row.id ≠ row₀.id)
    (hrow₀ : db.turns.find row₀.id = some row₀)
    (hvisible : ∀ row ∈ db.turns.rows, row.id ≠ row₀.id → db'.visible threadId row = db.visible threadId row)
    (hhidden : db.visible threadId row₀ = false) : db'.entries threadId = db.entries threadId := by
  rw [entries, entries, Table.select, Table.select, hrows, List.filter_filter]
  congr 1
  apply List.filter_congr
  intro row hrow
  by_cases hid : row.id = row₀.id
  · obtain rfl := Table.eq_of_key_eq _ hrow (Table.mem_of_find hrow₀) hid
    simp [hhidden]
  · rw [hvisible row hrow hid, decide_eq_true hid, Bool.and_true]

theorem depth_of_delete (hrows : db'.turns.rows = db.turns.rows.filter fun row => row.id ≠ row₀.id)
    (hrow₀ : db.turns.find row₀.id = some row₀)
    (hothers : ∀ row ∈ db.turns.rows, row.id ≠ row₀.id → db'.visible threadId row = db.visible threadId row)
    (hvisible : db.visible threadId row₀ = true) : db'.depth threadId + 1 = db.depth threadId := by
  have hcount := Table.countP_change (p := fun row => db'.visible threadId row && decide (row.id ≠ row₀.id)) hrow₀
    fun row hrow hid => by rw [hothers row hrow hid, decide_eq_true hid, Bool.and_true]
  rw [decide_eq_false (not_not.mpr rfl), Bool.and_false, hvisible] at hcount
  rw [depth, depth, hrows, List.countP_filter]
  exact hcount

theorem hidden_of_subset (hsubset : db'.steering.rows ⊆ db.steering.rows)
    (hkept : ∀ row ∈ db.steering.rows, row.sourceTurnId = some turnId → row.status ≠ .rejected →
      row ∈ db'.steering.rows) : db'.hidden turnId = db.hidden turnId := by
  rw [Bool.eq_iff_iff, hidden_eq_true, hidden_eq_true]
  constructor
  · rintro ⟨row, hrow, hsource, hstatus⟩
    exact ⟨row, hsubset hrow, hsource, hstatus⟩
  · rintro ⟨row, hrow, hsource, hstatus⟩
    exact ⟨row, hkept row hrow hsource hstatus, hsource, hstatus⟩

theorem hidden_of_append {admission : SteeringAdmission}
    (hrows : db'.steering.rows = db.steering.rows ++ [SteeringRow.ofAdmission admission])
    (hsource : (SteeringRow.ofAdmission admission).sourceTurnId ≠ some turnId) :
    db'.hidden turnId = db.hidden turnId := by
  have hlast : decide ((SteeringRow.ofAdmission admission).sourceTurnId = some turnId) = false :=
    decide_eq_false hsource
  rw [hidden, hrows, List.any_append, List.any_cons, List.any_nil, hlast, Bool.false_and, Bool.or_false,
    Bool.or_false, hidden]

theorem hidden_of_settle {row₀ : SteeringRow} {outcome : SteeringOutcome} (hrow₀ : db.steering.find row₀.requestId = some row₀)
    (hsteering : db'.steering = (db.settleAdmission row₀.requestId outcome).steering)
    (hstatus : row₀.sourceTurnId = some turnId → (outcome.status = .rejected ↔ row₀.status = .rejected)) :
    db'.hidden turnId = db.hidden turnId := by
  rw [Bool.eq_iff_iff, hidden_eq_true, hidden_eq_true, hsteering]
  constructor
  · rintro ⟨row, hrow, hsource, hrejected⟩
    rcases (mem_settleAdmission hrow₀).mp hrow with rfl | ⟨hrow, -⟩
    · exact ⟨row₀, Table.mem_of_find hrow₀, hsource, fun h => hrejected ((hstatus hsource).mpr h)⟩
    · exact ⟨row, hrow, hsource, hrejected⟩
  · rintro ⟨row, hrow, hsource, hrejected⟩
    by_cases hkey : row.requestId = row₀.requestId
    · obtain rfl := Table.eq_of_key_eq _ hrow (Table.mem_of_find hrow₀) hkey
      exact ⟨row.settled outcome, (mem_settleAdmission hrow₀).mpr (.inl rfl), hsource,
        fun h => hrejected ((hstatus hsource).mp h)⟩
    · exact ⟨row, (mem_settleAdmission hrow₀).mpr (.inr ⟨hrow, hkey⟩), hsource, hrejected⟩

theorem QueueStep.of_map (hrows : db'.turns.rows = db.turns.rows.map g)
    (hvisible : ∀ row ∈ db.turns.rows, db'.visible threadId (g row) = db.visible threadId row)
    (hentry : ∀ row ∈ db.turns.rows, db.visible threadId row = true → (g row).entry = row.entry)
    (hqueue : db'.queueState = db.queueState) : QueueStep db db' threadId :=
  .same (entries_of_map hrows hvisible hentry) (by rw [hqueue])

theorem QueueStep.of_hidden (hturns : db'.turns = db.turns)
    (hhidden : ∀ row ∈ db.turns.rows, db'.hidden row.id = db.hidden row.id)
    (hqueue : db'.queueState = db.queueState) : QueueStep db db' threadId :=
  .of_map (g := id) (by rw [hturns, List.map_id]) (fun row hrow => visible_of_hidden (hhidden row hrow)) (fun _ _ _ => rfl)
    hqueue

theorem QueueStep.of_append (hrows : db'.turns.rows = db.turns.rows ++ [row₀])
    (hsteering : db'.steering = db.steering) (hhidden : ∀ threadId, db.visible threadId row₀ = false)
    (hqueue : db'.queueState = db.queueState) : QueueStep db db' threadId :=
  .same (entries_of_append hrows hsteering (hhidden threadId)) (by rw [hqueue])

theorem QueueStep.of_enqueue (hrows : db'.turns.rows = db.turns.rows ++ [row₀])
    (hsteering : db'.steering = db.steering) (hvisible : db.visible row₀.threadId row₀ = true)
    (hqueue : db'.queueState = update db.queueState row₀.threadId (db.queueState row₀.threadId).added) :
    QueueStep db db' threadId := by
  by_cases hthread : threadId = row₀.threadId
  · subst hthread
    exact .added (depth_of_append hrows hsteering hvisible) (by rw [hqueue, update_self])
  · exact .same (entries_of_append hrows hsteering (visible_of_ne hthread)) (by rw [hqueue, update_of_ne hthread])

theorem QueueStep.of_delete (hrows : db'.turns.rows = db.turns.rows.filter fun row => row.id ≠ row₀.id)
    (hrow₀ : db.turns.find row₀.id = some row₀)
    (hhidden : ∀ row ∈ db.turns.rows, row.id ≠ row₀.id → db'.hidden row.id = db.hidden row.id)
    (hvisible : db.visible row₀.threadId row₀ = true)
    (hqueue : db'.queueState = update db.queueState row₀.threadId (db.queueState row₀.threadId).removed) :
    QueueStep db db' threadId := by
  have hothers : ∀ row ∈ db.turns.rows, row.id ≠ row₀.id → db'.visible threadId row = db.visible threadId row :=
    fun row hrow hid => visible_of_hidden (hhidden row hrow hid)
  by_cases hthread : threadId = row₀.threadId
  · subst hthread
    exact .removed (depth_of_delete hrows hrow₀ hothers hvisible) (by rw [hqueue, update_self])
  · exact .same (entries_of_delete hrows hrow₀ hothers (visible_of_ne hthread)) (by rw [hqueue, update_of_ne hthread])

/-- What becomes of one turn in the visible queue of its thread, and the change
of the stored state that goes with it. -/
inductive QueueMove (before after : Bool) (state : QueueState) : QueueState → Prop
  | touched (h : after = before) : QueueMove before after state state.touched
  | added (hbefore : before = false) (hafter : after = true) : QueueMove before after state state.added
  | removed (hbefore : before = true) (hafter : after = false) : QueueMove before after state state.removed

theorem QueueStep.of_move {state : QueueState} (hrow₀ : db.turns.find row₀.id = some row₀)
    (hrows : db'.turns.rows = db.turns.rows.map g) (hg : ∀ row ∈ db.turns.rows, row.id ≠ row₀.id → g row = row)
    (hthread : (g row₀).threadId = row₀.threadId)
    (hhidden : ∀ row ∈ db.turns.rows, row.id ≠ row₀.id → db'.hidden row.id = db.hidden row.id)
    (hqueue : db'.queueState = update db.queueState row₀.threadId state)
    (hmove : QueueMove (db.visible row₀.threadId row₀) (db'.visible row₀.threadId (g row₀))
      (db.queueState row₀.threadId) state) : QueueStep db db' threadId := by
  have hothers : ∀ row ∈ db.turns.rows, row.id ≠ row₀.id → db'.visible threadId (g row) = db.visible threadId row := by
    intro row hrow hid
    rw [hg row hrow hid]
    exact visible_of_hidden (hhidden row hrow hid)
  by_cases hsame : threadId = row₀.threadId
  · subst hsame
    have hdepth := depth_of_map hrow₀ hrows hothers
    have hstate : db'.queueState row₀.threadId = state := by rw [hqueue, update_self]
    cases hmove with
    | touched h =>
      rw [h] at hdepth
      exact .touched (Nat.add_right_cancel hdepth) hstate
    | added hbefore hafter =>
      rw [hbefore, hafter] at hdepth
      exact .added hdepth hstate
    | removed hbefore hafter =>
      rw [hbefore, hafter] at hdepth
      exact .removed hdepth hstate
  · refine .same (entries_of_map hrows ?_ ?_) (by rw [hqueue, update_of_ne hsame])
    · intro row hrow
      by_cases hid : row.id = row₀.id
      · obtain rfl := Table.eq_of_key_eq _ hrow (Table.mem_of_find hrow₀) hid
        rw [visible_of_ne hsame, visible_of_ne (hthread.symm ▸ hsame)]
      · exact hothers row hrow hid
    · intro row hrow hvisible
      by_cases hid : row.id = row₀.id
      · obtain rfl := Table.eq_of_key_eq _ hrow (Table.mem_of_find hrow₀) hid
        rw [visible_of_ne hsame] at hvisible
        cases hvisible
      · rw [hg row hrow hid]

end Frames

variable {turnId : String} {operation : Operation}

theorem Withdrawals.of_hidden (hinv : Withdrawals db) (hhidden : db.hidden turnId = true) :
    ∃ turn, db.turns.find turnId = some turn ∧ turn.isAgent = true ∧ turn.status = .queued ∧
      turn.queueClaimToken = none := by
  obtain ⟨row, hrow, hsourceTurnId, hstatus⟩ := hidden_eq_true.mp hhidden
  obtain ⟨source, hsource, rfl⟩ := Option.map_eq_some_iff.mp (row.consistent.2.2.1.symm.trans hsourceTurnId)
  obtain ⟨-, turn, hturn⟩ := hinv.withdrawn row hrow source hsource
  exact ⟨turn, hturn.find, hturn.agent, hturn.queued hstatus, hturn.unclaimed hstatus⟩

theorem Withdrawals.not_hidden (hinv : Withdrawals db)
    (h : ∀ turn, db.turns.find turnId = some turn → turn.status = .queued → turn.queueClaimToken ≠ none) :
    db.hidden turnId = false := by
  by_contra hhidden
  rw [Bool.not_eq_false] at hhidden
  obtain ⟨turn, hturn, -, hstatus, htoken⟩ := hinv.of_hidden hhidden
  exact h turn hturn hstatus htoken

theorem hidden_of_deleteTurn {other : String} (hawaited : db.awaited turnId = false) (hne : other ≠ turnId)
    (hsteering : db'.steering.rows ⊆ db.steering.rows)
    (hkept : ∀ row ∈ (db.deleteTurn turnId).steering.rows, row.sourceTurnId = some other → row ∈ db'.steering.rows) :
    db'.hidden other = db.hidden other := by
  apply hidden_of_subset hsteering
  intro row hrow hsource hstatus
  refine hkept row (mem_deleteTurn.mpr ⟨hrow, ?_, ?_⟩) hsource
  · intro htarget
    have hrowAwaited := List.any_eq_false.mp hawaited row hrow
    simp [htarget, hsource, hstatus] at hrowAwaited
  · rw [hsource]
    exact fun h => hne (Option.some_inj.mp h)

theorem hidden_of_drop {requestId : String} (hsteering : db'.steering = (db.dropAdmission requestId).steering)
    (hkept : ∀ row ∈ db.steering.rows, row.sourceTurnId = some turnId → row.status ≠ .rejected →
      row.requestId ≠ requestId) : db'.hidden turnId = db.hidden turnId := by
  apply hidden_of_subset
  · rw [hsteering]
    exact fun row hrow => (mem_dropAdmission.mp hrow).1
  · rw [hsteering]
    exact fun row hrow hsource hstatus => mem_dropAdmission.mpr ⟨hrow, hkept row hrow hsource hstatus⟩

theorem Withdrawals.source_eq_none (hinv : Withdrawals db) {row : SteeringRow}
    (hrow : db.steering.find row.requestId = some row) (hstatus : row.status ≠ .rejected)
    (hgone : ∀ source, row.admission.source = some source → ∀ turn, db.turns.find source.id = some turn →
      turn.isAgent = true → turn.status ≠ .queued) : row.sourceTurnId = none := by
  rw [row.consistent.2.2.1, Option.map_eq_none_iff]
  cases hsource : row.admission.source with
  | none => rfl
  | some source =>
    obtain ⟨-, turn, hturn⟩ := hinv.withdrawn row (Table.mem_of_find hrow) source hsource
    exact absurd (hturn.queued hstatus) (hgone source hsource turn hturn.find hturn.agent)

/-- A step of the store keeps count of the queue, unless it deletes a turn that
a withdrawn one waits on. -/
theorem Transition.queueStep (h : Transition collation scope db db') (hinv : Withdrawals db)
    (hdeletes : ∀ turnId, scope.deletes turnId → db.awaited turnId = false) (threadId : String) :
    QueueStep db db' threadId := by
  cases h with
  | quiet _ hturns hsteering hqueue | admissionPrepared _ _ _ _ _ _ hturns hsteering hqueue =>
    exact .of_hidden hturns (fun row _ => by rw [hidden, hsteering, hidden]) hqueue
  | linked _ _ _ _ _ _ _ _ hturns _ hsteering hqueue | released _ hturns _ hsteering hqueue
  | claimed _ _ _ _ _ _ hturns _ hsteering hqueue =>
    refine .of_map (by rw [hturns, Table.rows_update]) (fun row _ => ?_) (fun row _ _ => ?_) hqueue
    · rw [visible_congr hsteering]
      split <;> rfl
    · split <;> rfl
  | finished row₀ status now hrow₀ hagent hstatus htoken hturns _ hsteering hqueue =>
    have hhidden : db.hidden row₀.id = false := by
      refine hinv.not_hidden fun turn hturn _ => ?_
      obtain rfl : row₀ = turn := Option.some_inj.mp (hrow₀.symm.trans hturn)
      exact htoken
    refine .of_move hrow₀ (by rw [hturns, Table.rows_update]) (fun row _ hid => if_neg (by simpa using hid)) ?_
      (fun row _ _ => by rw [hidden, hsteering, hidden]) hqueue ?_
    · rw [if_pos (decide_eq_true rfl)]
    · rw [if_pos (decide_eq_true rfl)]
      refine .removed (visible_eq_true.mpr ⟨rfl, hagent, hstatus, hhidden⟩) (visible_of_status ?_)
      cases status <;> simp [ClaimStatus.status]
  | edited row₀ prompt now hrow₀ heligible hturns _ hsteering hqueue =>
    refine .of_move hrow₀ (by rw [hturns, Table.rows_update]) (fun row _ hid => if_neg (by simpa using hid)) ?_
      (fun row _ _ => by rw [hidden, hsteering, hidden]) hqueue ?_
    · rw [if_pos (decide_eq_true rfl)]
    · rw [if_pos (decide_eq_true rfl), visible_congr hsteering]
      exact .touched rfl
  | dequeued row₀ hrow₀ heligible hturns hsteering _ hqueue hdeleted =>
    refine .of_delete (by rw [hturns]; simp [deleteTurn, Table.rows_delete]) hrow₀ (fun row _ hid => ?_) ?_ hqueue
    · refine hidden_of_deleteTurn (hdeletes row₀.id hdeleted) hid ?_ (fun other hother _ => by rw [hsteering]; exact hother)
      rw [hsteering]
      exact fun other hother => (mem_deleteTurn.mp hother).1
    · rw [visible, heligible, decide_eq_true rfl, Bool.and_self]
  | requeued row₀ capacity now hrow₀ hagent hstatus _ _ hturns _ hsteering hqueue =>
    have hhidden : db.hidden row₀.id = false := by
      refine hinv.not_hidden fun turn hturn hqueued => ?_
      obtain rfl : row₀ = turn := Option.some_inj.mp (hrow₀.symm.trans hturn)
      rw [hstatus] at hqueued
      cases hqueued
    refine .of_move hrow₀ (by rw [hturns, Table.rows_update]) (fun row _ hid => if_neg (by simpa using hid)) ?_
      (fun row _ _ => by rw [hidden, hsteering, hidden]) hqueue ?_
    · rw [if_pos (decide_eq_true rfl)]
    · rw [if_pos (decide_eq_true rfl), visible_congr hsteering]
      exact .added (visible_of_status (by rw [hstatus]; decide)) (visible_eq_true.mpr ⟨rfl, hagent, rfl, hhidden⟩)
  | submitted row₀ _ _ hstatus _ _ _ hturns _ hsteering hqueue =>
    exact .of_append hturns hsteering (fun threadId => visible_of_status (by rw [hstatus]; decide)) hqueue
  | enqueued row₀ _ hfree hagent hstatus _ _ _ hturns _ hsteering hqueue =>
    refine .of_enqueue hturns hsteering (visible_eq_true.mpr ⟨rfl, hagent, hstatus, ?_⟩) hqueue
    refine hinv.not_hidden fun turn hturn => ?_
    rw [hfree] at hturn
    cases hturn
  | moved row₀ status now hrow₀ hstatus _ hnext hturns _ hsteering hqueue =>
    refine .of_map (by rw [hturns, Table.rows_update]) (fun row hrow => ?_) (fun row _ _ => ?_) hqueue
    · rw [visible_congr hsteering]
      split
      · next hid =>
          obtain rfl := Table.eq_of_key_eq _ hrow (Table.mem_of_find hrow₀) (of_decide_eq_true hid)
          rw [visible_of_status hstatus, visible_of_status hnext]
      · rfl
    · split <;> rfl
  | recorded row₀ _ hshell _ hturns _ hsteering hqueue =>
    refine .of_append hturns hsteering (fun threadId => ?_) hqueue
    rw [visible, eligibleQueued, hshell, Bool.false_and, Bool.false_and, Bool.and_false]
  | prepared admission _ hsource _ _ hsteering _ hturns hqueue =>
    refine .of_hidden hturns (fun row _ => hidden_of_append hsteering ?_) hqueue
    change Option.map _ admission.source ≠ _
    rw [hsource]
    rintro ⟨⟩
  | withdrawn row₀ _ source admission _ hunused hrow₀ hagent hstatus hdecoded _ _ _ _ hsource hpending _ hsteering hturns _
      hqueue =>
      have hnew : (SteeringRow.ofAdmission admission).sourceTurnId = some row₀.id := by
        rw [← (decodeAgent_eq_ok hdecoded).2.1]
        exact sourceTurnId_of_source hsource
      refine .of_move hrow₀ (by rw [hturns, Table.rows_update]) (fun row _ hid => if_neg (by simpa using hid)) ?_
        (fun row _ hid => hidden_of_append hsteering ?_) hqueue ?_
      · rw [if_pos (decide_eq_true rfl)]
      · rw [hnew]
        exact fun h => hid (Option.some_inj.mp h).symm
      · rw [if_pos (decide_eq_true rfl)]
        refine .removed (visible_eq_true.mpr ⟨rfl, hagent, hstatus, ?_⟩) ?_
        · rw [hidden, List.any_eq_false]
          intro other hother
          simp [hunused other hother]
        · refine visible_of_hidden_eq_true (hidden_eq_true.mpr ⟨_, ?_, hnew, ?_⟩)
          · rw [hsteering]
            exact List.mem_append_right _ (List.mem_singleton_self _)
          · change admission.outcome.status ≠ _
            rw [hpending]
            rintro ⟨⟩
  | accepted row₀ _ hrow₀ hpending hsteering _ hturns hqueue =>
    refine .of_hidden hturns (fun row _ => hidden_of_settle hrow₀ hsteering fun _ => ?_) hqueue
    rw [row₀.consistent.2.2.2.2, hpending]
    constructor <;> rintro ⟨⟩
  | returned row₀ failure queue source turn hrow₀ hpending hsource hturn hagent hqueued hsteering _ hturns hqueue =>
    have hmem := Table.mem_of_find hrow₀
    obtain ⟨hwithdrawn, turn', hsame⟩ := hinv.withdrawn row₀ hmem source hsource
    obtain rfl : turn = turn' := Option.some_inj.mp (hturn.symm.trans hsame.find)
    have hid : turn.id = source.id := Table.key_of_find hturn
    have hsourceTurnId : row₀.sourceTurnId = some turn.id := by rw [hid]; exact sourceTurnId_of_source hsource
    rw [hwithdrawn, if_pos rfl, ← hsame.thread] at hqueue
    refine .of_move (g := id) (hid.symm ▸ hturn) (by rw [hturns, List.map_id]) (fun _ _ _ => rfl) rfl
      (fun row _ hne => hidden_of_settle hrow₀ hsteering fun h => ?_) hqueue (.added ?_ ?_)
    · exact absurd (Option.some_inj.mp (hsourceTurnId.symm.trans h)).symm hne
    · apply visible_of_hidden_eq_true
      refine hidden_eq_true.mpr ⟨row₀, hmem, hsourceTurnId, ?_⟩
      rw [row₀.consistent.2.2.2.2, hpending]
      rintro ⟨⟩
    · refine visible_eq_true.mpr ⟨rfl, hagent, hqueued, ?_⟩
      by_contra hhidden
      rw [Bool.not_eq_false, hidden_eq_true, hsteering] at hhidden
      obtain ⟨other, hother, hotherSource, hotherStatus⟩ := hhidden
      rcases (mem_settleAdmission hrow₀).mp hother with rfl | ⟨hother, hne⟩
      · exact hotherStatus rfl
      · refine hne (congrArg SteeringRow.requestId (hinv.unique other hother row₀ hmem ?_ ?_))
        · rw [hotherSource]
          exact Option.some_ne_none _
        · exact hotherSource.trans hsourceTurnId.symm
  | rejected row₀ _ hrow₀ hpending hgone hsteering _ hturns hqueue =>
    have hsource := hinv.source_eq_none hrow₀ (by rw [row₀.consistent.2.2.2.2, hpending]; rintro ⟨⟩)
      fun source hsource turn hturn _ => hgone source hsource turn hturn
    refine .of_hidden hturns (fun row _ => hidden_of_settle hrow₀ hsteering fun h => ?_) hqueue
    rw [hsource] at h
    cases h
  | consumed row₀ _ source turn hrow₀ haccepted hsource hturn hagent hqueued hturns hsteering _ hqueue hdeleted =>
    have hmem := Table.mem_of_find hrow₀
    obtain ⟨hwithdrawn, -⟩ := hinv.withdrawn row₀ hmem source hsource
    have hid : turn.id = source.id := Table.key_of_find hturn
    have hhidden := hidden_of_source hmem hsource (by rw [status_of_accepted haccepted]; rintro ⟨⟩)
    rw [← hid] at hturn hhidden hturns hsteering hdeleted
    rw [hwithdrawn, if_pos rfl] at hqueue
    refine .same (entries_of_delete (by rw [hturns]; simp [deleteTurn, dropAdmission, Table.rows_delete]) hturn
      (fun row _ hne => visible_of_hidden ?_) (visible_of_hidden_eq_true hhidden)) (by rw [hqueue])
    refine hidden_of_deleteTurn (hdeletes turn.id hdeleted) hne ?_ fun other hother hotherSource => ?_
    · rw [hsteering]
      exact fun other hother => (mem_dropAdmission.mp (mem_deleteTurn.mp hother).1).1
    · obtain ⟨hotherMem, htarget, hotherTurn⟩ := mem_deleteTurn.mp hother
      rw [hsteering]
      refine mem_deleteTurn.mpr ⟨mem_dropAdmission.mpr ⟨hotherMem, fun hkey => ?_⟩, htarget, hotherTurn⟩
      obtain rfl := Table.eq_of_key_eq _ hotherMem hmem hkey
      exact hotherTurn (by rw [hid]; exact sourceTurnId_of_source hsource)
  | completed row₀ _ hrow₀ haccepted hgone hsteering _ hturns hqueue =>
    have hsource := hinv.source_eq_none hrow₀ (by rw [status_of_accepted haccepted]; rintro ⟨⟩)
      fun source hsource turn hturn hagent => hgone source hsource turn hturn hagent
    refine .of_hidden hturns (fun row _ => hidden_of_drop hsteering fun other hother h _ hkey => ?_) hqueue
    rw [Table.eq_of_key_eq _ hother (Table.mem_of_find hrow₀) hkey, hsource] at h
    cases h
  | forgotten row₀ hrow₀ hrejected hsteering _ hturns hqueue =>
    refine .of_hidden hturns (fun row _ => hidden_of_drop hsteering fun other hother _ h hkey => ?_) hqueue
    exact h (Table.eq_of_key_eq _ hother (Table.mem_of_find hrow₀) hkey ▸ hrejected)

/-- A call that keeps count: no accepted turn is copied into a busy thread, and
no turn is deleted that a withdrawn one waits on. -/
def CountKept (db : TurnDatabase) : Operation → Prop
  | .copy turn _ => turn.status = .accepted → db.busy turn.threadId = true → db.turns.find turn.id ≠ none
  | operation => ∀ turnId, (operation.scopeIn db).deletes turnId → db.awaited turnId = false

theorem CountKept.deletes (h : db.CountKept operation) (hcopy : operation.isCopy = false)
    (turnId : String) (hdeletes : (operation.scopeIn db).deletes turnId) : db.awaited turnId = false := by
  cases operation with
  | copy turn queueCapacity => cases hcopy
  | _ => exact h turnId hdeletes

theorem copy_queueStep {turn : AgentExecutionTurn} {capacity : Int} {submission : Submission} (hinv : Withdrawals db)
    (hkept : db.CountKept (.copy turn capacity)) (h : db.copy turn capacity = .ok (submission, db'))
    (threadId : String) : QueueStep db db' threadId := by
  obtain ⟨hfree, hturns, hsteering, hqueue⟩ := copy_eq_ok h
  have hrow : db.admitted turn.row = turn.row := by
    rcases admitted_eq db turn.row with hsame | ⟨-, hstatus, hbusy, -⟩
    · exact hsame
    · exact absurd hfree (hkept hstatus hbusy)
  rw [hrow] at hturns
  rcases hqueue with ⟨hstatus, hqueue⟩ | ⟨hstatus, hqueue⟩
  · exact .of_append hturns hsteering (fun _ => visible_of_status hstatus) hqueue
  · refine .of_enqueue hturns hsteering (visible_eq_true.mpr ⟨rfl, rfl, hstatus, ?_⟩) hqueue
    refine hinv.not_hidden fun other hother => ?_
    cases hfree.symm.trans hother

theorem step_queueStep (hinv : Withdrawals db) (hkept : db.CountKept operation)
    (threadId : String) : QueueStep db (step collation db operation) threadId := by
  cases hcopy : operation.isCopy with
  | false => exact (step_transition db hcopy).queueStep hinv (hkept.deletes hcopy) threadId
  | true =>
    cases operation with
    | copy turn queueCapacity =>
      rw [step]
      split
      · next db' h =>
          obtain ⟨submission, h⟩ := map_snd_eq_ok h
          exact copy_queueStep hinv hkept h threadId
      · exact .same rfl rfl
    | _ => cases hcopy

/-- While every call keeps count, the count stored is that of the visible turns, and a change of them moves the revision.
-/
theorem queue_count_exact (collation : Collation) (operations : List Operation)
    (hkept : Throughout (step collation) CountKept empty operations) (threadId : String) :
    ((run collation operations).queueState threadId).queuedCount = (run collation operations).depth threadId ∧
    0 ≤ ((run collation operations).queueState threadId).queuedCount ∧
    ∀ operation, (run collation operations).CountKept operation →
      ((run collation (operations ++ [operation])).visibleQueue collation threadId).map TurnRow.entry ≠
        ((run collation operations).visibleQueue collation threadId).map TurnRow.entry →
      ((run collation operations).queueState threadId).revision <
        ((run collation (operations ++ [operation])).queueState threadId).revision := by
  have hcount : ((run collation operations).queueState threadId).queuedCount =
      (run collation operations).depth threadId := by
    refine (foldl_invariant (fun db => Withdrawals db ∧ (db.queueState threadId).queuedCount = db.depth threadId) ?_
      ⟨run_withdrawals collation [], rfl⟩ hkept).2
    rintro db operation ⟨hinv, hcount⟩ hoperation
    exact ⟨step_withdrawals hinv operation, (step_queueStep hinv hoperation threadId).count hcount⟩
  refine ⟨hcount, hcount ▸ Int.natCast_nonneg _, fun operation hoperation hchanged => ?_⟩
  rw [run_append] at hchanged ⊢
  exact (step_queueStep (run_withdrawals collation operations) hoperation threadId).revision hchanged

def sampleWithdrawal : List Operation :=
  [sampleSubmission "first" 1,
    .prepareExecutionAdmission ⟨"thread", "first", "workspace", "prompt", none, "route", none, none⟩ 2,
    .attachExecutionLink "first" sampleLink 3, sampleSubmission "second" 4,
    .prepareQueuedSteeringAdmission "second" sampleLink ⟨"text", "key"⟩ [] 5]

theorem queue_count_exact_sample :
    ((run .codePoint sampleWithdrawal).queueState "thread").queuedCount = 0 ∧
      (run .codePoint sampleWithdrawal).depth "thread" = 0 ∧
        ((run .codePoint sampleWithdrawal).queueState "thread").revision <
          ((run .codePoint (sampleWithdrawal ++ [.rejectSteeringAdmission "key" ⟨.rejected, "no"⟩])).queueState
            "thread").revision := by
  obtain ⟨hcount, -, hrevision⟩ := queue_count_exact .codePoint sampleWithdrawal
    ⟨fun _ => False.elim, fun _ => False.elim, fun _ => False.elim, fun _ => False.elim, fun _ => False.elim, trivial⟩
    "thread"
  have hdepth : (run .codePoint sampleWithdrawal).depth "thread" = 0 := by decide
  exact ⟨by rw [hcount, hdepth]; rfl, hdepth, hrevision _ (fun _ => False.elim) (by decide)⟩

def sampleCopy : AgentExecutionTurn :=
  ⟨"copied", "thread", "prompt", none, .accepted, "route", none, .human, .original, 6, 6⟩

/-- A copied turn that the trigger queues is not counted, and neither is a
withdrawn turn whose target is queued again and dequeued. -/
theorem queue_count_skewed :
    ((run .codePoint [sampleSubmission "first" 1, .copy sampleCopy 10]).queueState "thread").queuedCount = 0 ∧
    (run .codePoint [sampleSubmission "first" 1, .copy sampleCopy 10]).depth "thread" = 1 ∧
    ((run .codePoint (sampleWithdrawal ++ [.requeueAccepted "first" 10 6, .dequeue "first"])).queueState
      "thread").queuedCount = 0 ∧
    (run .codePoint (sampleWithdrawal ++ [.requeueAccepted "first" 10 6, .dequeue "first"])).depth "thread" = 1 := by
  decide

end TurnDatabase

end Rika
