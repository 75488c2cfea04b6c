import Rika.Hydration

namespace Rika.Accumulator

open InsertionMap (get_eq_some keys mem_values values)
open StableSort (toSorted toSorted_sorted toSorted_of_sorted mem_toSorted toSorted_perm)
open ThreadView

variable {collation : Collation} {a : ThreadViewAccumulator}

theorem mem_view_turns {entry : ThreadViewTurn} : entry ∈ (a.view collation).turns ↔
    ∃ turnId indexed, a.turnsById.get turnId = some indexed ∧ indexed.entry collation = entry := by
  simp only [ThreadViewAccumulator.view, mem_toSorted, List.mem_map, mem_values]
  constructor
  · rintro ⟨indexed, ⟨turnId, hget⟩, rfl⟩
    exact ⟨turnId, indexed, hget, rfl⟩
  · rintro ⟨turnId, indexed, hget, rfl⟩
    exact ⟨indexed, ⟨turnId, hget⟩, rfl⟩

theorem mem_entry_units {indexed : IndexedTurn} {unit : TranscriptUnit.Unit} :
    unit ∈ (indexed.entry collation).units ↔ ∃ key, indexed.units.get key = some unit := by
  simp [IndexedTurn.entry, mem_values]

theorem view_turns_nodup (ha : a.Consistent collation) :
    ((a.view collation).turns.map (·.turn.id)).Nodup := by
  have hperm : ((a.view collation).turns.map (·.turn.id)).Perm
      ((a.turnsById.values.map (·.entry collation)).map (·.turn.id)) := (toSorted_perm _ _).map _
  rw [hperm.nodup_iff, List.map_map]
  have hkeys : a.turnsById.values.map ((·.turn.id) ∘ (·.entry collation)) = a.turnsById.keys := by
    simp only [values, keys, List.map_map]
    refine List.map_congr_left fun e he => ?_
    exact (ha.index.filed e.1 e.2 (get_eq_some.mpr he)).turn_id
  rw [hkeys]
  exact a.turnsById.nodupKeys

theorem entry_units_nodup {threadId turnId : String} {indexed : IndexedTurn} (h : indexed.Filed threadId turnId) :
    ((indexed.entry collation).units.map (·.key)).Nodup := by
  have hperm : ((indexed.entry collation).units.map (·.key)).Perm (indexed.units.values.map (·.key)) :=
    (toSorted_perm _ _).map _
  have hkeys : indexed.units.values.map (·.key) = indexed.units.keys := by
    simp only [values, keys, List.map_map]
    exact List.map_congr_left fun e he => h.unit_key e.1 e.2 (get_eq_some.mpr he)
  rw [hperm.nodup_iff, hkeys]
  exact indexed.units.nodupKeys

section

variable (ha : a.Consistent collation)

include ha

theorem view_units_nodup :
    ((a.view collation).turns.flatMap fun entry => entry.units.map (·.key)).Nodup := by
  rw [List.nodup_flatMap]
  refine ⟨?_, ?_⟩
  · intro entry he
    obtain ⟨turnId, indexed, hget, rfl⟩ := mem_view_turns.mp he
    exact entry_units_nodup (ha.index.filed turnId indexed hget)
  · have hids := List.pairwise_map.mp (view_turns_nodup ha)
    refine hids.imp_of_mem fun {entry entry'} he he' hne => ?_
    obtain ⟨turnId, indexed, hget, rfl⟩ := mem_view_turns.mp he
    obtain ⟨turnId', indexed', hget', rfl⟩ := mem_view_turns.mp he'
    have hfiled := ha.index.filed turnId indexed hget
    have hfiled' := ha.index.filed turnId' indexed' hget'
    -- a key of both turns would have two owners
    intro key hkey hkey'
    obtain ⟨unit, hunit, hk⟩ := List.mem_map.mp hkey
    obtain ⟨unit', hunit', hk'⟩ := List.mem_map.mp hkey'
    obtain ⟨k, hget₁⟩ := mem_entry_units.mp hunit
    obtain ⟨k', hget₂⟩ := mem_entry_units.mp hunit'
    rw [hfiled.unit_key k unit hget₁] at hk
    rw [hfiled'.unit_key k' unit' hget₂] at hk'
    subst hk hk'
    have hsame := ha.index.owner_unique ⟨indexed, unit, hget, hget₁⟩ ⟨indexed', unit', hget', hget₂⟩
    exact hne (hfiled.turn_id.trans (hsame.trans hfiled'.turn_id.symm))

theorem view_valid : Valid (a.view collation) := by
  refine ⟨view_turns_nodup ha, view_units_nodup ha, ha.pending_nodup, ha.pending_le, ?_, ?_⟩
  · intro entry he
    obtain ⟨turnId, indexed, hget, rfl⟩ := mem_view_turns.mp he
    exact (ha.index.filed turnId indexed hget).turn_thread
  · intro entry he unit hunit
    obtain ⟨turnId, indexed, hget, rfl⟩ := mem_view_turns.mp he
    obtain ⟨key, hu⟩ := mem_entry_units.mp hunit
    have hfiled := ha.index.filed turnId indexed hget
    exact (hfiled.unit_turn key unit hu).trans hfiled.turn_id.symm

/-- The entries of a view are already defaulted and sorted, so hydrating them
and reading them back changes nothing. -/
theorem entry_indexedTurn {entry : ThreadViewTurn}
    (he : entry ∈ (a.view collation).turns) : (indexedTurn entry).entry collation = entry := by
  have hunits : (indexedTurn entry).units.values = entry.units := by
    rw [values, (view_valid ha).unit_entries he, List.map_map]
    exact List.map_id _
  obtain ⟨turnId, indexed, hget, rfl⟩ := mem_view_turns.mp he
  have hstate : (indexedTurn (indexed.entry collation)).state = indexed.state :=
    (ha.index.filed turnId indexed hget).defaulted
  rw [IndexedTurn.entry, hunits, hstate]
  simp only [IndexedTurn.entry, StableSort.toSorted_toSorted]

theorem view_hydrated_view : (hydrated (a.view collation)).view collation = a.view collation := by
  have hvalues : (hydrated (a.view collation)).turnsById.values.map (·.entry collation) =
      (a.view collation).turns := by
    rw [values, (view_valid ha).turns_entries, filedTurns, List.map_map, List.map_map]
    exact (List.map_congr_left fun entry he => entry_indexedTurn ha he).trans (List.map_id _)
  have hsorted : toSorted (fun left right : ThreadViewTurn => compareTurns collation left.toThreadViewTurnState
      right.toThreadViewTurnState) (a.view collation).turns = (a.view collation).turns :=
    toSorted_of_sorted (toSorted_sorted _)
  rw [ThreadViewAccumulator.view, hvalues, hsorted]
  rfl

theorem snapshot_fst : (a.snapshot collation).1 = a.view collation := by
  rw [ThreadViewAccumulator.snapshot]
  split
  · next snapshot h => exact ha.materialized snapshot h
  · rfl

theorem snapshot_consistent : (a.snapshot collation).2.Consistent collation := by
  rw [ThreadViewAccumulator.snapshot]
  split
  · exact ha
  · exact ⟨ha.index, ha.pending_nodup, ha.pending_le, fun snapshot h => (Option.some_inj.mp h).symm⟩

end

/-- The calls that reach an accumulator's state: patches, and reads of the
view, which keep what they computed. -/
inductive Call
  | apply (patch : ThreadViewPatch)
  | snapshot

def call (collation : Collation) (a : ThreadViewAccumulator) : Call → Option ThreadViewAccumulator
  | .apply patch => (apply a patch).map Prod.snd
  | .snapshot => some (a.snapshot collation).2

section

variable (ha : a.Consistent collation)

include ha

theorem apply_ne_none (patch : ThreadViewPatch) : apply a patch ≠ none := by
  rcases apply_cases ha patch with ⟨error, h⟩ | ⟨delta, a', h, -⟩ <;> simp [h]

theorem apply_consistent {patch : ThreadViewPatch}
    {result : Except ThreadViewApplyError ThreadViewDelta} {a' : ThreadViewAccumulator}
    (happly : apply a patch = some (result, a')) : a'.Consistent collation := by
  rcases apply_cases ha patch with ⟨error, h⟩ | ⟨delta, a₁, h, -, ha₁, -⟩
  · rw [h] at happly
    cases happly
    exact ha
  · rw [h] at happly
    cases happly
    exact ha₁

theorem call_consistent (c : Call) :
    ∃ a', call collation a c = some a' ∧ a'.Consistent collation := by
  cases c with
  | apply patch =>
    rcases apply_cases ha patch with ⟨error, h⟩ | ⟨delta, a', h, -, ha', -⟩
    · exact ⟨a, by simp [call, h], ha⟩
    · exact ⟨a', by simp [call, h], ha'⟩
  | snapshot => exact ⟨_, rfl, snapshot_consistent ha⟩

theorem calls_consistent (calls : List Call) :
    ∃ a', calls.foldlM (call collation) a = some a' ∧ a'.Consistent collation :=
  Fold.foldlM_some (fun a _ => a.Consistent collation) (fun _ c _ ha => call_consistent ha c) calls a ha

end

/-- What one patch does to an accumulator: nothing if it is rejected, the
next revision if it is accepted; `none` would be a failed `!` lookup. -/
def PatchOutcome (a : ThreadViewAccumulator) (patch : ThreadViewPatch) : Prop :=
  (∃ error, apply a patch = some (.error error, a)) ∨
    ∃ delta a', apply a patch = some (.ok delta, a') ∧ a'.currentRevision = a.currentRevision + 1

theorem patchOutcome_of_consistent (ha : a.Consistent collation) (patch : ThreadViewPatch) :
    PatchOutcome a patch := by
  rcases apply_cases ha patch with h | ⟨delta, a', h, hadmitted, -, hrevision, -⟩
  · exact .inl h
  · exact .inr ⟨delta, a', h, hrevision.trans hadmitted.revision⟩

/-- The view can be handed over: an accumulator made from it shows it again. -/
def HandsOver (collation : Collation) (a : ThreadViewAccumulator) : Prop :=
  ∃ b, fromSnapshot (a.snapshot collation).1 = .ok b ∧ (b.snapshot collation).1 = (a.snapshot collation).1

theorem handsOver_of_consistent (ha : a.Consistent collation) : HandsOver collation a := by
  have hvalid := view_valid ha
  refine ⟨hydrated (a.view collation), ?_, ?_⟩
  · rw [snapshot_fst ha]
    exact fromSnapshot_eq_ok.mpr ⟨hvalid, rfl⟩
  · rw [snapshot_fst ha, snapshot_fst (hvalid.hydrated_consistent collation), view_hydrated_view ha]

/-- Whatever patches reach it, an accumulator fails no lookup, its indexes stay exact, and its view can be handed over.
-/
theorem accumulator_stays_consistent (collation : Collation) {snapshot : ThreadViewSnapshot}
    {a : ThreadViewAccumulator} (h : fromSnapshot snapshot = .ok a) (calls : List Call) :
    ∃ a', calls.foldlM (call collation) a = some a' ∧
      a'.toTurnIndex.Consistent a'.currentHeader.thread.id ∧ HandsOver collation a' ∧
      ∀ patch, PatchOutcome a' patch := by
  obtain ⟨a', hcalls, ha'⟩ := calls_consistent (fromSnapshot_consistent h collation) calls
  exact ⟨a', hcalls, ha'.index, handsOver_of_consistent ha', patchOutcome_of_consistent ha'⟩

section

def sampleThread (id : String) : Thread :=
  ⟨id, "/work", "Thread", [], false, false, .original, 0, 0⟩

def sampleTurn (id threadId : String) (status : Status) : Turn :=
  ⟨id, threadId, "prompt", .human, .original, 0, 0, .agentExecution status ⟨200000, 20000⟩⟩

def sampleSnapshot (threadId : String) (turns : List ThreadViewTurn) : ThreadViewSnapshot :=
  { thread := sampleThread threadId
    source := ⟨7, none, none⟩
    pending := []
    hasOlder := false
    hasNewer := false
    usage := ⟨Usage.emptyUsageState, none⟩
    revision := 0
    turns }

def sampleEntry (turn : Turn) (projectionRevision : Finite) : ThreadViewTurn :=
  ⟨⟨turnRecord turn, projectionRevision, Usage.emptyUsageState, none, none, none⟩,
    [promptUnit turn.id turn.prompt]⟩

def samplePatch : ThreadViewPatch where
  threadId := "thread"
  baseRevision := 0
  revision := 1
  upsert := [promptUnit "second" "prompt"]
  remove := []
  turnChanges :=
    [.removeTurn "first", .upsertTurn (sampleEntry (sampleTurn "second" "thread" .queued) 0).toThreadViewTurnState]
  header := none

theorem accumulator_stays_consistent_sample :
    let snapshot := sampleSnapshot "thread" [sampleEntry (sampleTurn "first" "thread" .running) 0]
    ∃ a a', fromSnapshot snapshot = .ok a ∧
      [Call.apply samplePatch, .snapshot].foldlM (call .codePoint) a = some a' ∧
      a'.toTurnIndex.Consistent a'.currentHeader.thread.id ∧ HandsOver .codePoint a' ∧
      ∀ patch, PatchOutcome a' patch :=
  have h : fromSnapshot (sampleSnapshot "thread" [sampleEntry (sampleTurn "first" "thread" .running) 0]) =
      .ok (hydrated (sampleSnapshot "thread" [sampleEntry (sampleTurn "first" "thread" .running) 0])) := rfl
  have ⟨a', h'⟩ := accumulator_stays_consistent .codePoint h [.apply samplePatch, .snapshot]
  ⟨_, a', h, h'⟩

end

end Rika.Accumulator
