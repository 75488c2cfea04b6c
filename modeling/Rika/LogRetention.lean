import Rika.ThreadLog
import Mathlib.Data.List.Intervals

namespace Rika.ThreadLog

open Fold

variable {Json Event Snapshot : Type}

inductive Transaction (Event Snapshot : Type)
  | initializeThread (access : Except HostedPersistenceError Unit)
  | admitCommand
  | appendEvents (projection : ProcessObservationProjection Event Snapshot) (input : AppendInput Event Snapshot)
  | checkpoint (projection : ProcessObservationProjection Event Snapshot) (input : CheckpointInput Snapshot)
  | saveSnapshot (projection : ProcessObservationProjection Event Snapshot) (input : CheckpointInput Snapshot)
  | acknowledgeCursor (access : Except HostedPersistenceError Unit) (input : AcknowledgeInput)
  | replay (access : Except HostedPersistenceError Unit) (input : ReplayInput)

def committed (log : ThreadLog Json) : Except HostedPersistenceError (ThreadLog Json) → ThreadLog Json
  | .ok log' => log'
  | .error _ => log

def step (contract : Contract Json Event Snapshot) (log : ThreadLog Json) :
    Transaction Event Snapshot → ThreadLog Json
  | .initializeThread access => committed log (initializeThread access log)
  | .admitCommand => advanceVersion log
  | .appendEvents projection input => committed log ((appendEvents contract projection log input).map Prod.snd)
  | .checkpoint projection input => committed log ((checkpoint contract projection log input).map Prod.snd)
  | .saveSnapshot projection input => committed log (saveSnapshot contract projection log input)
  | .acknowledgeCursor access input => committed log ((acknowledgeCursor access log input).map Prod.snd)
  | .replay _ _ => log

def run (contract : Contract Json Event Snapshot) (transactions : List (Transaction Event Snapshot)) :
    ThreadLog Json :=
  transactions.foldl (step contract) empty

/-- Events up to `compacted` are gone and a snapshot stands for them; every
later event is stored. -/
structure Retains (log : ThreadLog Json) (state : ProtocolState) (compacted : Nat) : Prop where
  compacted_le : compacted ≤ state.eventCursor
  cursors : log.events.rows.map (·.cursor) = List.Ico (compacted + 1) (state.eventCursor + 1)
  sequences : ∀ row ∈ log.events.rows, row.sequence = row.cursor
  bridged : compacted = 0 ∨ log.snapshots.rows ≠ []
  snapshot_ge : ∀ row ∈ log.snapshots.rows, compacted ≤ row.cursor
  snapshot_le : ∀ row ∈ log.snapshots.rows, row.cursor ≤ state.eventCursor
  version_le : ∀ row ∈ log.snapshots.rows, row.threadVersion ≤ state.version

def WellFormed (log : ThreadLog Json) : Prop :=
  match log.state with
  | none => log.events.rows = [] ∧ log.snapshots.rows = []
  | some state => ∃ compacted, Retains log state compacted

variable {contract : Contract Json Event Snapshot} {projection : ProcessObservationProjection Event Snapshot}
  {log log' : ThreadLog Json} {state : ProtocolState} {compacted : Nat}

theorem wellFormed_of_state (hstate : log.state = some state) (h : Retains log state compacted) : log.WellFormed := by
  rw [WellFormed, hstate]
  exact ⟨compacted, h⟩

theorem WellFormed.retains (h : log.WellFormed) (hstate : log.state = some state) :
    ∃ compacted, Retains log state compacted := by
  rwa [WellFormed, hstate] at h

theorem Retains.of_rows (h : Retains log state compacted) (hevents : log'.events.rows = log.events.rows)
    (hsnapshots : log'.snapshots.rows = log.snapshots.rows) : Retains log' state compacted := by
  obtain ⟨hle, hcursors, hsequences, hbridged, hge, hsnapshotle, hversion⟩ := h
  rw [← hevents] at hcursors hsequences
  rw [← hsnapshots] at hbridged hge hsnapshotle hversion
  exact ⟨hle, hcursors, hsequences, hbridged, hge, hsnapshotle, hversion⟩

theorem writtenEvents_cursors (threadVersion firstCursor : Nat) (events : List Event) (createdAt : String) :
    (writtenEvents projection threadVersion firstCursor events createdAt).map (·.cursor) =
      List.Ico firstCursor (firstCursor + events.length) := by
  apply List.ext_getElem
  · simp [writtenEvents]
  · intro index h₁ h₂
    simp [writtenEvents, List.Ico]

variable {firstCursor : Nat} {events : List Event} {createdAt : String} {written : List (ThreadProtocolEvent Event)}
    {input : CheckpointInput Snapshot}

theorem writeEvents_eq_ok {threadVersion : Nat}
    (h : writeEvents contract projection log threadVersion firstCursor events createdAt = .ok (written, log')) :
    written.map (·.cursor) = List.Ico firstCursor (firstCursor + events.length) ∧
      ∃ rows : List (EventRow Json),
        rows.map (·.cursor) = List.Ico firstCursor (firstCursor + events.length) ∧
          (∀ row ∈ rows, row.sequence = row.cursor) ∧
          log'.events.rows = log.events.rows ++ rows ∧
          log'.snapshots = log.snapshots ∧ log'.cursors = log.cursors ∧ log'.state = log.state := by
  rw [writeEvents] at h
  split at h
  · cases h
  · next stored hstored =>
      cases h
      refine ⟨writtenEvents_cursors .., _, ?_, ?_, Table.rows_insertAll hstored, rfl, rfl, rfl⟩
      · rw [List.map_map]
        exact writtenEvents_cursors ..
      · intro row hrow
        obtain ⟨event, hevent, rfl⟩ := List.mem_map.mp hrow
        obtain ⟨index, _, rfl⟩ := List.mem_mapIdx.mp hevent
        rfl

theorem writeSnapshot_retains (h : Retains log state compacted) (snapshot : Snapshot) (createdAt : String)
    (replayRequired : Bool) :
    Retains
      (writeSnapshot contract projection log state.version state.eventCursor snapshot createdAt replayRequired)
      state compacted := by
  have hrows : ∀ row ∈ (writeSnapshot contract projection log state.version state.eventCursor snapshot createdAt
      replayRequired).snapshots.rows, compacted ≤ row.cursor ∧ row.cursor ≤ state.eventCursor ∧
        row.threadVersion ≤ state.version := by
    intro row hrow
    rcases Table.mem_upsert hrow with rfl | hold | ⟨old, hold, hversion, rfl⟩
    · exact ⟨h.compacted_le, le_rfl, le_rfl⟩
    · exact ⟨h.snapshot_ge row hold, h.snapshot_le row hold, h.version_le row hold⟩
    · rw [SnapshotRow.threadVersion_replacedBy, SnapshotRow.replacedBy]
      refine ⟨?_, ?_, h.version_le old hold⟩
      · split
        · exact h.compacted_le
        · exact h.snapshot_ge old hold
      · split
        · exact le_rfl
        · exact h.snapshot_le old hold
  exact
    { compacted_le := h.compacted_le
      cursors := h.cursors
      sequences := h.sequences
      bridged := .inr (Table.rows_upsert_ne_nil _ _ _ _)
      snapshot_ge := fun row hrow => (hrows row hrow).1
      snapshot_le := fun row hrow => (hrows row hrow).2.1
      version_le := fun row hrow => (hrows row hrow).2.2 }

theorem initializeThread_wellFormed (h : log.WellFormed) :
    WellFormed { log with state := some (log.state.getD ⟨0, 0⟩) } := by
  cases hstate : log.state with
  | none =>
    rw [WellFormed, hstate] at h
    obtain ⟨hevents, hsnapshots⟩ := h
    refine wellFormed_of_state rfl (⟨le_rfl, ?_, ?_, .inl rfl, ?_, ?_, ?_⟩ : Retains _ _ 0)
    all_goals simp [hevents, hsnapshots]
  | some state =>
    obtain ⟨compacted, h⟩ := h.retains hstate
    exact wellFormed_of_state rfl (h.of_rows rfl rfl)

theorem advanceVersion_wellFormed (h : log.WellFormed) : (advanceVersion log).WellFormed := by
  cases hstate : log.state with
  | none =>
    rw [WellFormed, hstate] at h
    rw [WellFormed, advanceVersion, hstate]
    exact h
  | some state =>
    obtain ⟨compacted, h⟩ := h.retains hstate
    have hadvanced : (advanceVersion log).state = some ⟨state.version + 1, state.eventCursor⟩ := by
      simp [advanceVersion, hstate]
    refine wellFormed_of_state hadvanced
      ⟨h.compacted_le, h.cursors, h.sequences, h.bridged, h.snapshot_ge, h.snapshot_le, ?_⟩
    intro row hrow
    exact (h.version_le row hrow).trans (Nat.le_succ _)

theorem writeEvents_retains (h : Retains log state compacted) (hfirst : firstCursor = state.eventCursor + 1)
    (hwrite : writeEvents contract projection log state.version firstCursor events createdAt = .ok (written, log')) :
    (written.getLast?.map (·.cursor)).getD state.eventCursor = state.eventCursor + events.length ∧
      Retains log' { state with eventCursor := state.eventCursor + events.length } compacted := by
  obtain ⟨hwritten, rows, hcursors, hsequences, hevents, hsnapshots, -, -⟩ := writeEvents_eq_ok hwrite
  rw [hfirst] at hwritten hcursors
  constructor
  · rw [← List.getLast?_map, hwritten, List.Ico]
    rcases hlength : events.length with _ | length
    · simp
    · rw [List.getLast?_range']
      simp
      omega
  · have hle := h.compacted_le
    refine ⟨?_, ?_, ?_, ?_, ?_, ?_, ?_⟩
    · dsimp only
      omega
    · rw [hevents, List.map_append, h.cursors, hcursors, Nat.add_right_comm]
      exact List.Ico.append_consecutive (by omega) (by omega)
    · intro row hrow
      rw [hevents, List.mem_append] at hrow
      rcases hrow with hrow | hrow
      · exact h.sequences row hrow
      · exact hsequences row hrow
    · rw [hsnapshots]
      exact h.bridged
    · rw [hsnapshots]
      exact h.snapshot_ge
    · rw [hsnapshots]
      intro row hrow
      exact (h.snapshot_le row hrow).trans (Nat.le_add_right _ _)
    · rw [hsnapshots]
      exact h.version_le

theorem compactCursor_eq_some {cursor : Nat} (h : log.compactCursor = some cursor) :
    ∃ row ∈ log.snapshots.rows, row.cursor = cursor := by
  rw [compactCursor] at h
  split at h
  · cases h
  · obtain ⟨row, hrow, rfl⟩ := List.mem_map.mp (List.max?_mem h)
    exact ⟨row, (Table.mem_select.mp hrow).1, rfl⟩

theorem compact_state (log : ThreadLog Json) : (compact log).state = log.state := by
  rw [compact]
  split <;> rfl

theorem compact_retains (h : Retains log state compacted) : ∃ compacted', Retains (compact log) state compacted' := by
  rw [compact]
  split
  · exact ⟨compacted, h⟩
  · next cursor hcursor =>
      obtain ⟨kept, hkept, rfl⟩ := compactCursor_eq_some hcursor
      have hge := h.snapshot_ge kept hkept
      refine ⟨kept.cursor, h.snapshot_le kept hkept, ?_, ?_, .inr ?_, ?_, ?_, ?_⟩
      · have hfilter := List.Ico.filter_le (compacted + 1) (state.eventCursor + 1) (kept.cursor + 1)
        rw [← h.cursors, List.filter_map, max_eq_right (by omega)] at hfilter
        rw [← hfilter, Table.rows_delete]
        congr 1
        apply List.filter_congr
        intro row _
        rw [Function.comp_apply, ← decide_not, decide_eq_decide]
        omega
      · intro row hrow
        exact h.sequences row (Table.mem_delete.mp hrow).1
      · exact List.ne_nil_of_mem (Table.mem_delete.mpr ⟨hkept, by simp⟩)
      · intro row hrow
        simpa using (Table.mem_delete.mp hrow).2
      · intro row hrow
        exact h.snapshot_le row (Table.mem_delete.mp hrow).1
      · intro row hrow
        exact h.version_le row (Table.mem_delete.mp hrow).1

theorem compact_wellFormed (hstate : log.state = some state) (h : Retains log state compacted) :
    (compact log).WellFormed := by
  obtain ⟨compacted', h'⟩ := compact_retains h
  exact wellFormed_of_state ((compact_state log).trans hstate) h'

theorem appendEvents_wellFormed {input : AppendInput Event Snapshot} {events : List (ThreadProtocolEvent Event)}
    (h : log.WellFormed) (happend : appendEvents contract projection log input = .ok (events, log')) :
    log'.WellFormed := by
  rw [appendEvents] at happend
  split at happend
  · cases happend
    exact h
  · split at happend
    · cases happend
    · next state hstate =>
        obtain ⟨compacted, h⟩ := h.retains hstate
        obtain ⟨⟨written, next⟩, hwrite, happend⟩ := bind_eq_ok.mp happend
        obtain ⟨hcursor, hnext⟩ := writeEvents_retains h rfl hwrite
        dsimp only at happend
        rw [hcursor] at happend
        have hadvanced : Retains
            { next with state := some { state with eventCursor := state.eventCursor + input.events.length } }
            { state with eventCursor := state.eventCursor + input.events.length } compacted :=
          hnext.of_rows rfl rfl
        split at happend
        · cases happend
          exact wellFormed_of_state rfl hadvanced
        · split at happend
          · cases happend
            exact wellFormed_of_state rfl (writeSnapshot_retains hadvanced _ _ _)
          · cases happend
            exact wellFormed_of_state rfl hadvanced

theorem checkpoint_wellFormed {written : Bool} (h : log.WellFormed)
    (hcheckpoint : checkpoint contract projection log input = .ok (written, log')) : log'.WellFormed := by
  rw [checkpoint] at hcheckpoint
  split at hcheckpoint
  · cases hcheckpoint
  · next state hstate =>
      obtain ⟨compacted, hretains⟩ := h.retains hstate
      obtain ⟨hcurrent, hcheckpoint⟩ := ite_error_eq_ok.mp hcheckpoint
      simp only [not_or, not_not] at hcurrent
      rw [← hcurrent.1, ← hcurrent.2] at hcheckpoint
      dsimp only at hcheckpoint
      split at hcheckpoint
      · cases hcheckpoint
        exact wellFormed_of_state hstate (writeSnapshot_retains hretains _ _ _)
      · cases hcheckpoint
        exact h

theorem saveSnapshot_wellFormed (h : log.WellFormed)
    (hsave : saveSnapshot contract projection log input = .ok log') : log'.WellFormed := by
  rw [saveSnapshot] at hsave
  obtain ⟨hstate, hsave⟩ := ite_else_error_eq_ok.mp hsave
  obtain ⟨compacted, hretains⟩ := h.retains hstate
  cases hsave
  exact wellFormed_of_state hstate (writeSnapshot_retains hretains _ _ _)

theorem acknowledgeCursor_wellFormed {access : Except HostedPersistenceError Unit} {input : AcknowledgeInput}
    {acknowledgement : Acknowledgement} (h : log.WellFormed)
    (hacknowledge : acknowledgeCursor access log input = .ok (acknowledgement, log')) : log'.WellFormed := by
  rw [acknowledgeCursor] at hacknowledge
  obtain ⟨_, -, hacknowledge⟩ := bind_eq_ok.mp hacknowledge
  split at hacknowledge
  · cases hacknowledge
  · next state hstate =>
      obtain ⟨compacted, h⟩ := h.retains hstate
      obtain ⟨-, hacknowledge⟩ := ite_error_eq_ok.mp hacknowledge
      cases hacknowledge
      exact compact_wellFormed hstate (h.of_rows rfl rfl)

theorem committed_wellFormed {outcome : Except HostedPersistenceError (ThreadLog Json)} (h : log.WellFormed)
    (hcommit : ∀ next, outcome = .ok next → next.WellFormed) : (committed log outcome).WellFormed := by
  cases outcome with
  | error _ => exact h
  | ok next => exact hcommit next rfl

theorem step_wellFormed (h : log.WellFormed) (transaction : Transaction Event Snapshot) :
    (step contract log transaction).WellFormed := by
  cases transaction with
  | initializeThread access =>
    apply committed_wellFormed h
    intro next hnext
    obtain ⟨_, -, ⟨⟩⟩ := bind_eq_ok.mp hnext
    exact initializeThread_wellFormed h
  | admitCommand => exact advanceVersion_wellFormed h
  | appendEvents projection input =>
    apply committed_wellFormed h
    intro next hnext
    obtain ⟨events, hevents⟩ := map_snd_eq_ok hnext
    exact appendEvents_wellFormed h hevents
  | checkpoint projection input =>
    apply committed_wellFormed h
    intro next hnext
    obtain ⟨written, hwritten⟩ := map_snd_eq_ok hnext
    exact checkpoint_wellFormed h hwritten
  | saveSnapshot projection input => exact committed_wellFormed h fun next hnext => saveSnapshot_wellFormed h hnext
  | acknowledgeCursor access input =>
    apply committed_wellFormed h
    intro next hnext
    obtain ⟨acknowledgement, hacknowledgement⟩ := map_snd_eq_ok hnext
    exact acknowledgeCursor_wellFormed h hacknowledgement
  | replay access input => exact h

theorem run_wellFormed (contract : Contract Json Event Snapshot) (transactions : List (Transaction Event Snapshot)) :
    (run contract transactions).WellFormed := by
  have hrun : ∀ log : ThreadLog Json, log.WellFormed → (transactions.foldl (step contract) log).WellFormed := by
    induction transactions with
    | nil => exact fun _ h => h
    | cons transaction transactions ih => exact fun _ h => ih _ (step_wellFormed h transaction)
  exact hrun empty ⟨rfl, rfl⟩

end Rika.ThreadLog
