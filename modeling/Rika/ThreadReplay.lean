import Rika.LogRetention

namespace Rika.ThreadLog

open Fold

variable {Json Event Snapshot : Type}

def latestCursor (log : ThreadLog Json) : Nat := (log.state.map (·.eventCursor)).getD 0

def requestedCursor (log : ThreadLog Json) (input : ReplayInput) : Nat :=
  min (input.throughCursor.getD log.latestCursor) log.latestCursor

def ReplayInput.position (input : ReplayInput) (snapshot : Option (ThreadProtocolSnapshot Snapshot)) : Nat :=
  (snapshot.map (·.cursor)).getD input.afterCursor

/-- The events of a replay follow its position one by one, up to the requested
cursor or the page limit. -/
def LeavesNoHole (log : ThreadLog Json) (input : ReplayInput) (replay : ThreadReplay Event Snapshot) : Prop :=
  replay.events.map (·.cursor) =
    List.Ico (input.position replay.snapshot + 1)
      (min (input.position replay.snapshot + input.pageLimit) (log.requestedCursor input) + 1)

instance (log : ThreadLog Json) (input : ReplayInput) (replay : ThreadReplay Event Snapshot) :
    Decidable (LeavesNoHole log input replay) := inferInstanceAs (Decidable (_ = _))

/-- The next event is still stored, or a snapshot at or before the requested
cursor may be sent in place of the compacted ones. -/
def Bridges (log : ThreadLog Json) (input : ReplayInput) : Prop :=
  input.afterCursor = log.requestedCursor input ∨
    (∃ row ∈ log.events.rows, row.cursor = input.afterCursor + 1) ∨
      input.includeSnapshot ≠ some false ∧ ∃ row ∈ log.snapshots.rows, row.cursor ≤ log.requestedCursor input

def StoredRowsDecode (contract : Contract Json Event Snapshot) (log : ThreadLog Json) : Prop :=
  (∀ row ∈ log.events.rows, contract.decodeEvent row.event ≠ none) ∧
    ∀ row ∈ log.snapshots.rows, contract.decodeSnapshot row.snapshot ≠ none

variable {contract : Contract Json Event Snapshot} {log : ThreadLog Json} {state : ProtocolState} {compacted : Nat}
  {input : ReplayInput}

theorem requestedCursor_of_state (hstate : log.state = some state) (input : ReplayInput) :
    log.requestedCursor input = input.targetCursor state := by
  rw [requestedCursor, latestCursor, hstate]
  rfl

theorem targetCursor_le (input : ReplayInput) (state : ProtocolState) :
    input.targetCursor state ≤ state.eventCursor := min_le_right _ _

theorem one_le_pageLimit (input : ReplayInput) : 1 ≤ input.pageLimit := by
  rw [ReplayInput.pageLimit]
  omega

theorem take_Ico (low high count : Nat) :
    (List.Ico low high).take count = List.Ico low (min (low + count) high) := by
  rw [List.Ico, List.Ico]
  rcases Nat.le_total (high - low) count with hcount | hcount
  · rw [List.take_range'_of_length_le hcount]
    congr 1
    omega
  · rw [List.take_range'_of_length_ge hcount]
    congr 1
    omega

theorem Retains.select_cursors (h : Retains log state compacted) (target cursor : Nat)
    (htarget : target ≤ state.eventCursor) :
    (log.events.select fun row => row.cursor > cursor && row.cursor ≤ target).map (·.cursor) =
      List.Ico (max compacted cursor + 1) (target + 1) := by
  have hselect : (log.events.select fun row => row.cursor > cursor && row.cursor ≤ target).map (·.cursor) =
      ((log.events.rows.map (·.cursor)).filter (· < target + 1)).filter (cursor + 1 ≤ ·) := by
    rw [List.filter_map, List.filter_map, List.filter_filter, Table.select]
    congr 1
    apply List.filter_congr
    intro row _
    rw [Bool.eq_iff_iff]
    simp only [Function.comp_apply, Bool.and_eq_true, decide_eq_true_eq]
    omega
  rw [hselect, h.cursors, List.Ico.filter_lt, List.Ico.filter_le, min_eq_right (by omega)]
  congr 1
  omega

theorem Retains.sorted (h : Retains log state compacted) :
    StableSort.Sorted (fun left right => compare left.sequence right.sequence) log.events.rows := by
  have hcursors : (log.events.rows.map (·.cursor)).Pairwise (· < ·) := h.cursors ▸ List.Ico.pairwise_lt _ _
  rw [List.pairwise_map] at hcursors
  refine hcursors.imp_of_mem fun {left right} hleft hright hlt => ?_
  dsimp only
  rw [h.sequences left hleft, h.sequences right hright, Nat.isLE_compare]
  exact hlt.le

variable {target : Nat} {access : Except HostedPersistenceError Unit} {replay : ThreadReplay Event Snapshot}

theorem Retains.readEvents_cursors (h : Retains log state compacted) (limit cursor : Nat)
    (htarget : target ≤ state.eventCursor) :
    (readEvents log target limit cursor).map (·.cursor) =
      (List.Ico (max compacted cursor + 1) (target + 1)).take (limit + 1) := by
  have hsorted : StableSort.Sorted (fun left right => compare left.sequence right.sequence)
      (log.events.select fun row => row.cursor > cursor && row.cursor ≤ target) :=
    h.sorted.sublist List.filter_sublist
  rw [readEvents, StableSort.toSorted_of_sorted hsorted, List.map_take, h.select_cursors target cursor htarget]

theorem decodeReplayEvents_cursors {rows : List (EventRow Json)}
    (hdecode : ∀ row ∈ rows, contract.decodeEvent row.event ≠ none) :
    (decodeReplayEvents contract rows).map (·.cursor) = rows.map (·.cursor) := by
  induction rows with
  | nil => rfl
  | cons row rows ih =>
    obtain ⟨event, hevent⟩ := Option.ne_none_iff_exists'.mp (hdecode row List.mem_cons_self)
    rw [decodeReplayEvents, List.filterMap_cons, hevent, Option.map_some, List.map_cons, List.map_cons]
    exact congrArg _ (ih fun other hother => hdecode other (List.mem_cons_of_mem _ hother))

theorem mem_readEvents {limit cursor : Nat} {row : EventRow Json}
    (h : row ∈ readEvents log target limit cursor) : row ∈ log.events.rows := by
  have hsorted := List.mem_of_mem_take h
  rw [StableSort.mem_toSorted] at hsorted
  exact (Table.mem_select.mp hsorted).1

theorem replay_eq_ok (h : log.replay contract access input = .ok replay) :
    ∃ state, log.state = some state ∧ input.afterCursor ≤ input.targetCursor state ∧
      replay.snapshot = replaySnapshot contract log state input ∧
      replay.events = decodeReplayEvents contract
        ((readEvents log (input.targetCursor state) input.pageLimit (input.position replay.snapshot)).take
          input.pageLimit) := by
  rw [ThreadLog.replay] at h
  obtain ⟨_, -, h⟩ := bind_eq_ok.mp h
  split at h
  · cases h
  · next state hstate =>
      obtain ⟨hafter, h⟩ := ite_error_eq_ok.mp h
      obtain ⟨-, h⟩ := ite_error_eq_ok.mp h
      cases h
      exact ⟨state, hstate, not_lt.mp hafter, rfl, rfl⟩

theorem Retains.replay_cursors (h : Retains log state compacted) (hdecode : StoredRowsDecode contract log)
    (hstate : log.state = some state) (hreplay : log.replay contract access input = .ok replay) :
    replay.events.map (·.cursor) =
      List.Ico (max compacted (input.position replay.snapshot) + 1)
        (min (max compacted (input.position replay.snapshot) + input.pageLimit) (log.requestedCursor input) + 1) := by
  obtain ⟨state', hstate', -, -, hevents⟩ := replay_eq_ok hreplay
  cases hstate.symm.trans hstate'
  have hstored : ∀ row ∈ (readEvents log (input.targetCursor state) input.pageLimit
      (input.position replay.snapshot)).take input.pageLimit, contract.decodeEvent row.event ≠ none :=
    fun row hrow => hdecode.1 row (mem_readEvents (List.mem_of_mem_take hrow))
  rw [hevents, decodeReplayEvents_cursors hstored, List.map_take,
    h.readEvents_cursors _ _ (targetCursor_le input state), List.take_take, min_eq_left (Nat.le_succ _), take_Ico,
    requestedCursor_of_state hstate]
  congr 1
  omega

theorem replaySnapshot_eq_some {snapshot : ThreadProtocolSnapshot Snapshot}
    (h : replaySnapshot contract log state input = some snapshot) :
    input.includeSnapshot ≠ some false ∧
      ∃ row ∈ log.snapshots.rows, row.cursor = snapshot.cursor ∧ row.cursor ≤ input.targetCursor state := by
  rw [replaySnapshot] at h
  dsimp only at h
  obtain ⟨hskip, h⟩ := Option.ite_none_left_eq_some.mp h
  rw [skipReplaySnapshot, Bool.or_eq_true, not_or, decide_eq_true_eq] at hskip
  refine ⟨hskip.1, ?_⟩
  rw [decodeReplaySnapshot] at h
  obtain ⟨row, hrow, h⟩ := Option.bind_eq_some_iff.mp h
  obtain ⟨decoded, -, rfl⟩ := Option.map_eq_some_iff.mp h
  have hmem := List.mem_of_head? hrow
  rw [latestFirst, StableSort.mem_toSorted, Table.mem_select, Bool.and_eq_true] at hmem
  refine ⟨row, hmem.1, rfl, ?_⟩
  -- either condition on snapshots bounds them by the requested cursor
  have hcondition := hmem.2.1
  rw [replayCheckpointCondition] at hcondition
  split at hcondition
  · rw [Option.getD_some, Bool.and_eq_true, decide_eq_true_eq] at hcondition
    exact hcondition.2
  · rw [Option.getD_none, replaySnapshotCondition] at hcondition
    split at hcondition
    · exact of_decide_eq_true hcondition
    · rw [Bool.and_eq_true, decide_eq_true_eq, decide_eq_true_eq] at hcondition
      exact hcondition.2

theorem replaySnapshot_eq_none (hdecode : StoredRowsDecode contract log)
    (h : replaySnapshot contract log state input = none) (hinclude : input.includeSnapshot ≠ some false)
    (htail : isDirectReplayTail input.afterCursor (input.targetCursor state)
      ((readEvents log (input.targetCursor state) input.pageLimit input.afterCursor).head?.map (·.cursor)) = false) :
    ∀ row ∈ log.snapshots.rows, row.threadVersion ≤ state.version →
      replaySnapshotCondition input.afterCursor (input.targetCursor state) row = false := by
  intro row hrow hversion
  rw [replaySnapshot] at h
  simp only [htail, isRetainedReplayTail, Bool.false_and, skipReplaySnapshot, replayCheckpointCondition,
    Bool.or_false, decide_eq_true_eq, if_neg hinclude, Bool.false_eq_true, if_false, Option.getD_none] at h
  rw [decodeReplaySnapshot, Option.bind_eq_none_iff] at h
  by_contra hcondition
  have hmem : row ∈ latestFirst (log.snapshots.select fun row =>
      replaySnapshotCondition input.afterCursor (input.targetCursor state) row &&
        decide (row.threadVersion ≤ state.version)) := by
    rw [latestFirst, StableSort.mem_toSorted, Table.mem_select, Bool.and_eq_true]
    exact ⟨hrow, by simpa using hcondition, by simpa using hversion⟩
  obtain ⟨first, hfirst⟩ := Option.ne_none_iff_exists'.mp (mt List.head?_eq_none_iff.mp (List.ne_nil_of_mem hmem))
  have hstored := List.mem_of_head? hfirst
  rw [latestFirst, StableSort.mem_toSorted, Table.mem_select] at hstored
  exact hdecode.2 first hstored.1 (Option.map_eq_none_iff.mp (h first hfirst))

theorem Retains.isDirectReplayTail_iff (h : Retains log state compacted)
    (hafter : input.afterCursor ≤ input.targetCursor state) :
    isDirectReplayTail input.afterCursor (input.targetCursor state)
        ((readEvents log (input.targetCursor state) input.pageLimit input.afterCursor).head?.map (·.cursor)) = true ↔
      input.afterCursor = input.targetCursor state ∨ compacted ≤ input.afterCursor := by
  rw [isDirectReplayTail, Bool.or_eq_true, decide_eq_true_eq, decide_eq_true_eq, ← List.head?_map,
    h.readEvents_cursors _ _ (targetCursor_le input state), take_Ico, List.Ico, List.head?_range']
  have hlimit := one_le_pageLimit input
  constructor
  · rintro (heq | hfirst)
    · exact .inl heq
    · right
      obtain ⟨-, hfirst⟩ := Option.ite_none_left_eq_some.mp hfirst
      have := Option.some_inj.mp hfirst
      omega
  · rintro (heq | hle)
    · exact .inl heq
    · rcases hafter.eq_or_lt with heq | hlt
      · exact .inl heq
      · right
        rw [if_neg (by omega), max_eq_right hle]

/-- A replay leaves no hole exactly when its position is not behind the
compacted events, or there is nothing to replay. -/
theorem Retains.leavesNoHole_iff (h : Retains log state compacted) (hdecode : StoredRowsDecode contract log)
    (hstate : log.state = some state) (hreplay : log.replay contract access input = .ok replay) :
    LeavesNoHole log input replay ↔
      compacted ≤ input.position replay.snapshot ∨ input.position replay.snapshot = log.requestedCursor input := by
  have hposition : input.position replay.snapshot ≤ log.requestedCursor input := by
    obtain ⟨state', hstate', hafter, hsnapshot, -⟩ := replay_eq_ok hreplay
    cases hstate.symm.trans hstate'
    rw [requestedCursor_of_state hstate, ReplayInput.position, hsnapshot]
    cases hresult : replaySnapshot contract log state input with
    | none => exact hafter
    | some snapshot =>
      obtain ⟨-, row, -, hcursor, hle⟩ := replaySnapshot_eq_some hresult
      exact hcursor.ge.trans hle
  have hlimit := one_le_pageLimit input
  rw [LeavesNoHole, h.replay_cursors hdecode hstate hreplay]
  generalize input.position replay.snapshot = position at *
  generalize log.requestedCursor input = requested at *
  constructor
  · intro heq
    by_contra hbehind
    have hfirst : position + 1 ∈ List.Ico (position + 1) (min (position + input.pageLimit) requested + 1) := by
      rw [List.Ico.mem]
      omega
    rw [← heq, List.Ico.mem] at hfirst
    omega
  · rintro (hle | rfl)
    · rw [max_eq_right hle]
    · rw [List.Ico.eq_nil_of_le (by omega), List.Ico.eq_nil_of_le (by omega)]

theorem Retains.bridges_iff (h : Retains log state compacted) (hdecode : StoredRowsDecode contract log)
    (hstate : log.state = some state) (hreplay : log.replay contract access input = .ok replay) :
    Bridges log input ↔
      compacted ≤ input.position replay.snapshot ∨ input.position replay.snapshot = log.requestedCursor input := by
  obtain ⟨state', hstate', hafter, hsnapshot, -⟩ := replay_eq_ok hreplay
  cases hstate.symm.trans hstate'
  have htarget := targetCursor_le input state
  have hnext : (∃ row ∈ log.events.rows, row.cursor = input.afterCursor + 1) ↔
      compacted ≤ input.afterCursor ∧ input.afterCursor < state.eventCursor := by
    rw [← List.mem_map (f := fun row : EventRow Json => row.cursor), h.cursors, List.Ico.mem]
    omega
  rw [Bridges, hnext, requestedCursor_of_state hstate, ReplayInput.position, hsnapshot]
  cases hresult : replaySnapshot contract log state input with
  | some snapshot =>
    obtain ⟨hinclude, row, hrow, hcursor, hle⟩ := replaySnapshot_eq_some hresult
    exact iff_of_true (.inr (.inr ⟨hinclude, row, hrow, hle⟩)) (.inl ((h.snapshot_ge row hrow).trans hcursor.le))
  | none =>
    rw [Option.map_none, Option.getD_none]
    constructor
    · rintro (heq | ⟨hle, -⟩ | ⟨hinclude, row, hrow, hle⟩)
      · exact .inr heq
      · exact .inl hle
      · by_contra hbehind
        have htail := mt (h.isDirectReplayTail_iff hafter).mp (by omega)
        have hcondition := replaySnapshot_eq_none hdecode hresult hinclude (by simpa using htail) row hrow
          (h.version_le row hrow)
        have hge := h.snapshot_ge row hrow
        rw [replaySnapshotCondition] at hcondition
        split at hcondition
        · simp only [decide_eq_false_iff_not] at hcondition
          omega
        · simp only [Bool.and_eq_false_iff, decide_eq_false_iff_not] at hcondition
          omega
    · rintro (hle | heq)
      · rcases hafter.eq_or_lt with heq | hlt
        · exact .inl heq
        · exact .inr (.inl ⟨hle, by omega⟩)
      · exact .inl heq

section

variable (contract : Contract Json Event Snapshot) (transactions : List (Transaction Event Snapshot)) (access : Except HostedPersistenceError Unit) (input : ReplayInput)

/-- In every reachable log, a replay leaves no hole exactly when the next event
is stored or a snapshot may stand for the compacted ones. -/
theorem replay_leaves_no_hole_iff (replay : ThreadReplay Event Snapshot)
    (hdecode : StoredRowsDecode contract (run contract transactions))
    (hreplay : (run contract transactions).replay contract access input = .ok replay) :
    LeavesNoHole (run contract transactions) input replay ↔ Bridges (run contract transactions) input := by
  obtain ⟨state, hstate, -⟩ := replay_eq_ok hreplay
  obtain ⟨compacted, h⟩ := (run_wellFormed contract transactions).retains hstate
  rw [h.leavesNoHole_iff hdecode hstate hreplay, h.bridges_iff hdecode hstate hreplay]

def textContract : Contract String String String where
  encodeEvent := id
  decodeEvent := some
  encodeSnapshot := id
  decodeSnapshot := some
  pendingAuthorizationsEquivalent := fun left right => left = right

def sampleTransactions : List (Transaction String String) :=
  [.initializeThread (.ok ()), .appendEvents ⟨id, id⟩ ⟨["first", "second"], some "snapshot", "now"⟩,
    .acknowledgeCursor (.ok ()) ⟨"client", 2, "now"⟩, .appendEvents ⟨id, id⟩ ⟨["third"], none, "later"⟩]

def sampleReplay : ThreadReplay String String := ⟨0, 3, none, [⟨3, 3, 0, "third", "later"⟩], false⟩

theorem textContract_decodes (log : ThreadLog String) : StoredRowsDecode textContract log :=
  ⟨fun _ _ => Option.some_ne_none _, fun _ _ => Option.some_ne_none _⟩

theorem replay_leaves_no_hole_iff_sample :
    LeavesNoHole (run textContract sampleTransactions) ⟨2, none, none, none, 10⟩ sampleReplay ↔
      Bridges (run textContract sampleTransactions) ⟨2, none, none, none, 10⟩ :=
  replay_leaves_no_hole_iff textContract sampleTransactions (.ok ()) ⟨2, none, none, none, 10⟩ sampleReplay
    (textContract_decodes _) (by rfl)

/-- Event 1 is compacted into the snapshot at cursor 2, and a replay through
cursor 1 returns neither. -/
theorem replay_before_snapshot_leaves_hole : ∃ replay : ThreadReplay String String,
      (run textContract sampleTransactions).replay textContract (.ok ()) ⟨0, none, some 1, none, 10⟩ = .ok replay ∧
        StoredRowsDecode textContract (run textContract sampleTransactions) ∧
          ¬ LeavesNoHole (run textContract sampleTransactions) ⟨0, none, some 1, none, 10⟩ replay :=
  ⟨⟨0, 3, none, [], false⟩, rfl, textContract_decodes _, by decide⟩

/-- A client that follows the thread to its latest cursor and takes snapshots
never meets a hole. -/
theorem replay_to_latest_leaves_no_hole (replay : ThreadReplay Event Snapshot)
    (hdecode : StoredRowsDecode contract (run contract transactions))
    (hreplay : (run contract transactions).replay contract access input = .ok replay)
    (hthrough : input.throughCursor = none) (hinclude : input.includeSnapshot ≠ some false) :
    LeavesNoHole (run contract transactions) input replay := by
  obtain ⟨state, hstate, hafter, -⟩ := replay_eq_ok hreplay
  obtain ⟨compacted, h⟩ := (run_wellFormed contract transactions).retains hstate
  rw [h.leavesNoHole_iff hdecode hstate hreplay, ← h.bridges_iff hdecode hstate hreplay]
  have hrequested : (run contract transactions).requestedCursor input = state.eventCursor := by
    rw [requestedCursor_of_state hstate, ReplayInput.targetCursor, hthrough]
    exact min_self _
  rcases h.bridged with rfl | hsnapshots
  · rw [h.bridges_iff hdecode hstate hreplay]
    exact .inl (Nat.zero_le _)
  · obtain ⟨row, hrow⟩ := List.exists_mem_of_ne_nil _ hsnapshots
    exact .inr (.inr ⟨hinclude, row, hrow, hrequested ▸ h.snapshot_le row hrow⟩)

theorem replay_to_latest_leaves_no_hole_sample :
    LeavesNoHole (run textContract sampleTransactions) ⟨0, none, none, none, 10⟩
      { sampleReplay with snapshot := some ⟨0, 2, "snapshot", "now"⟩ } :=
  replay_to_latest_leaves_no_hole textContract sampleTransactions (.ok ()) _ _ (textContract_decodes _)
    (by rfl) rfl nofun

end

end Rika.ThreadLog
