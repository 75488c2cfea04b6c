import Rika.AccumulatorApply

namespace Rika.Accumulator

open Fold (refuse_eq_ok bind_eq_ok)
open InsertionMap (entries_ofList get_eq_some has_iff ofList)
open ThreadView

structure Valid (snapshot : ThreadViewSnapshot) : Prop where
  turns_nodup : (snapshot.turns.map (·.turn.id)).Nodup
  units_nodup : (snapshot.turns.flatMap fun entry => entry.units.map (·.key)).Nodup
  pending_nodup : (snapshot.pending.map (·.id)).Nodup
  pending_le : snapshot.pending.length ≤ limits.pending
  turn_thread : ∀ entry ∈ snapshot.turns, entry.turn.threadId = snapshot.thread.id
  unit_turn : ∀ entry ∈ snapshot.turns, ∀ unit ∈ entry.units, unit.turnId = entry.turn.id

def indexedTurn (entry : ThreadViewTurn) : IndexedTurn :=
  ⟨turnState entry.toThreadViewTurnState, .ofList (entry.units.map fun unit => (unit.key, unit))⟩

section

variable (turns : List ThreadViewTurn)

def filedTurns : List (String × IndexedTurn) :=
  turns.map fun entry => (entry.turn.id, indexedTurn entry)

def ownedUnits : List (String × String) :=
  turns.flatMap fun entry => entry.units.map fun unit => (unit.key, entry.turn.id)

def activeTurns : List (String × Unit) :=
  (turns.filter fun entry => active entry.turn.status).map fun entry => (entry.turn.id, ())

end

def setAll {ν : Type} (m : InsertionMap String ν) (entries : List (String × ν)) : InsertionMap String ν :=
  entries.foldl (fun m entry => m.set entry.1 entry.2) m

def hydratedIndex (index : TurnIndex) (turns : List ThreadViewTurn) : TurnIndex where
  turnsById := setAll index.turnsById (filedTurns turns)
  unitOwners := setAll index.unitOwners (ownedUnits turns)
  activeTurnIds := setAll index.activeTurnIds (activeTurns turns)

def hydrated (snapshot : ThreadViewSnapshot) : ThreadViewAccumulator :=
  { hydratedIndex .empty snapshot.turns with
    currentHeader := snapshot.toThreadViewHeader
    currentRevision := snapshot.revision
    materialized := none }

variable {threadId turnId key : String} {index index' : TurnIndex} {entry : ThreadViewTurn} {a : ThreadViewAccumulator}

theorem hydrateUnits_eq_ok {units : List TranscriptUnit.Unit}
    {acc acc' : InsertionMap String TranscriptUnit.Unit × InsertionMap String String} :
    units.foldlM (hydrateUnit threadId turnId) acc = .ok acc' ↔
      (∀ unit ∈ units, unit.turnId = turnId) ∧
        acc' = (setAll acc.1 (units.map fun unit => (unit.key, unit)),
          setAll acc.2 (units.map fun unit => (unit.key, turnId))) := by
  rw [Fold.foldlM_guarded (P := fun unit => unit.turnId = turnId)
    (g := fun acc unit => (acc.1.set unit.key unit, acc.2.set unit.key turnId))]
  · suffices h : units.foldl (fun acc unit => (acc.1.set unit.key unit, acc.2.set unit.key turnId)) acc =
        (setAll acc.1 (units.map fun unit => (unit.key, unit)),
          setAll acc.2 (units.map fun unit => (unit.key, turnId))) by rw [h]
    induction units generalizing acc with
    | nil => rfl
    | cons unit units ih => rw [List.foldl_cons, ih]; rfl
  · intro acc unit acc'
    by_cases h : unit.turnId = turnId <;> simp [hydrateUnit, h, eq_comm]

theorem hydrateTurn_eq_ok : hydrateTurn threadId index entry = .ok index' ↔
      (entry.turn.threadId = threadId ∧ ∀ unit ∈ entry.units, unit.turnId = entry.turn.id) ∧
        index' = hydratedIndex index [entry] := by
  by_cases h : entry.turn.threadId = threadId
  · simp only [hydrateTurn, h, ne_eq, not_true_eq_false, if_false, bind_eq_ok, hydrateUnits_eq_ok,
      true_and]
    have hactive : (if active (turnState entry.toThreadViewTurnState).turn.status = true then
        index.activeTurnIds.set entry.turn.id () else index.activeTurnIds) =
        setAll index.activeTurnIds (activeTurns [entry]) := by
      by_cases ha : active entry.turn.status <;> simp [activeTurns, ha, setAll]
    constructor
    · rintro ⟨acc, ⟨hunits, rfl⟩, hindex⟩
      refine ⟨hunits, ?_⟩
      rw [hactive] at hindex
      cases hindex
      simp [hydratedIndex, ownedUnits, filedTurns, indexedTurn, ofList, setAll]
    · rintro ⟨hunits, rfl⟩
      refine ⟨_, ⟨hunits, rfl⟩, ?_⟩
      rw [hactive]
      simp [hydratedIndex, ownedUnits, filedTurns, indexedTurn, ofList, setAll]
  · simp [hydrateTurn, h]

theorem hydrateTurns_eq_ok {turns : List ThreadViewTurn} :
    turns.foldlM (hydrateTurn threadId) index = .ok index' ↔
      (∀ entry ∈ turns, entry.turn.threadId = threadId ∧ ∀ unit ∈ entry.units, unit.turnId = entry.turn.id) ∧
        index' = hydratedIndex index turns := by
  rw [Fold.foldlM_guarded (g := fun index entry => hydratedIndex index [entry])
    (fun _ _ _ => hydrateTurn_eq_ok)]
  suffices h : turns.foldl (fun index entry => hydratedIndex index [entry]) index = hydratedIndex index turns by
    rw [h]
  induction turns generalizing index with
  | nil => rfl
  | cons entry turns ih =>
    rw [List.foldl_cons, ih]
    have hactive : activeTurns (entry :: turns) = activeTurns [entry] ++ activeTurns turns := by
      simp only [activeTurns, ← List.map_append, ← List.filter_append, List.singleton_append]
    have howned : ownedUnits (entry :: turns) = ownedUnits [entry] ++ ownedUnits turns := by
      simp [ownedUnits]
    simp only [hydratedIndex, hactive, howned, setAll, List.foldl_append]
    rfl

theorem fromSnapshot_eq_ok {snapshot : ThreadViewSnapshot} :
    fromSnapshot snapshot = .ok a ↔ Valid snapshot ∧ a = hydrated snapshot := by
  simp only [fromSnapshot, bind_eq_ok, refuse_eq_ok, Option.map_eq_none_iff, duplicateKey_eq_none,
    hydrateTurns_eq_ok, ite_eq_right_iff, reduceCtorEq, imp_false, not_lt, exists_const, Except.ok.injEq]
  constructor
  · rintro ⟨hturns, hunits, hpending, hbound, index, ⟨hentries, rfl⟩, rfl⟩
    exact ⟨⟨hturns, hunits, hpending, hbound, fun entry he => (hentries entry he).1,
      fun entry he => (hentries entry he).2⟩, rfl⟩
  · rintro ⟨h, rfl⟩
    exact ⟨h.turns_nodup, h.units_nodup, h.pending_nodup, h.pending_le, _,
      ⟨fun entry he => ⟨h.turn_thread entry he, h.unit_turn entry he⟩, rfl⟩, rfl⟩

/-! ### The indexes of a hydrated snapshot -/

variable {snapshot : ThreadViewSnapshot}

section

variable (h : Valid snapshot)

include h

theorem Valid.turns_entries :
    (hydrated snapshot).turnsById.entries = filedTurns snapshot.turns := by
  apply entries_ofList
  simpa [filedTurns, Function.comp_def] using h.turns_nodup

theorem Valid.get_turn {indexed : IndexedTurn} :
    (hydrated snapshot).turnsById.get turnId = some indexed ↔
      ∃ entry ∈ snapshot.turns, entry.turn.id = turnId ∧ indexedTurn entry = indexed := by
  simp [get_eq_some, h.turns_entries, filedTurns]

theorem Valid.unit_entries (he : entry ∈ snapshot.turns) :
    (indexedTurn entry).units.entries = entry.units.map fun unit => (unit.key, unit) := by
  apply entries_ofList
  simpa [Function.comp_def] using (List.nodup_flatMap.mp h.units_nodup).1 entry he

theorem Valid.get_unit (he : entry ∈ snapshot.turns) {unit : TranscriptUnit.Unit} :
    (indexedTurn entry).units.get key = some unit ↔ unit ∈ entry.units ∧ unit.key = key := by
  rw [get_eq_some, h.unit_entries he]
  simp only [List.mem_map, Prod.mk.injEq]
  constructor
  · rintro ⟨unit', hunit, hkey, rfl⟩
    exact ⟨hunit, hkey⟩
  · exact fun hu => ⟨unit, hu.1, hu.2, rfl⟩

theorem Valid.get_owner : (hydrated snapshot).unitOwners.get key = some turnId ↔
      ∃ entry ∈ snapshot.turns, entry.turn.id = turnId ∧ ∃ unit ∈ entry.units, unit.key = key := by
  have hentries : (hydrated snapshot).unitOwners.entries = ownedUnits snapshot.turns := by
    apply entries_ofList
    simpa [ownedUnits, List.map_flatMap, Function.comp_def] using h.units_nodup
  rw [get_eq_some, hentries]
  simp only [ownedUnits, List.mem_flatMap, List.mem_map, Prod.mk.injEq]
  constructor
  · rintro ⟨entry, he, unit, hunit, hkey, hid⟩
    exact ⟨entry, he, hid, unit, hunit, hkey⟩
  · rintro ⟨entry, he, hid, unit, hunit, hkey⟩
    exact ⟨entry, he, unit, hunit, hkey, hid⟩

theorem Valid.has_active : (hydrated snapshot).activeTurnIds.has turnId = true ↔
      ∃ entry ∈ snapshot.turns, entry.turn.id = turnId ∧ active entry.turn.status = true := by
  have hentries : (hydrated snapshot).activeTurnIds.entries = activeTurns snapshot.turns := by
    apply entries_ofList
    simpa [activeTurns, Function.comp_def] using
      h.turns_nodup.sublist (List.filter_sublist.map fun entry : ThreadViewTurn => entry.turn.id)
  simp only [has_iff, get_eq_some, hentries, activeTurns, List.mem_map,
    List.mem_filter, Prod.mk.injEq]
  constructor
  · rintro ⟨_, entry, ⟨he, ha⟩, hid, -⟩
    exact ⟨entry, he, hid, ha⟩
  · rintro ⟨entry, he, hid, ha⟩
    exact ⟨(), entry, ⟨he, ha⟩, hid, trivial⟩

theorem Valid.holds_iff : (hydrated snapshot).Holds turnId key ↔
      ∃ entry ∈ snapshot.turns, entry.turn.id = turnId ∧ ∃ unit ∈ entry.units, unit.key = key := by
  constructor
  · rintro ⟨indexed, unit, hindexed, hunit⟩
    obtain ⟨entry, he, hid, rfl⟩ := h.get_turn.mp hindexed
    exact ⟨entry, he, hid, unit, (h.get_unit he).mp hunit⟩
  · rintro ⟨entry, he, hid, unit, hunit⟩
    exact ⟨indexedTurn entry, unit, h.get_turn.mpr ⟨entry, he, hid, rfl⟩, (h.get_unit he).mpr hunit⟩

theorem Valid.turn_eq_some {state : ThreadViewTurnState} :
    (hydrated snapshot).turn turnId = some state ↔
      ∃ entry ∈ snapshot.turns, entry.turn.id = turnId ∧ turnState entry.toThreadViewTurnState = state := by
  simp only [Accumulator.turn_eq_some, h.get_turn]
  constructor
  · rintro ⟨_, ⟨entry, he, hid, rfl⟩, rfl⟩
    exact ⟨entry, he, hid, rfl⟩
  · rintro ⟨entry, he, hid, rfl⟩
    exact ⟨_, ⟨entry, he, hid, rfl⟩, rfl⟩

theorem Valid.hydrated_consistent (collation : Collation) :
    (hydrated snapshot).Consistent collation := by
  refine ⟨⟨?_, fun key turnId => h.get_owner.trans h.holds_iff.symm, ?_⟩, h.pending_nodup, h.pending_le,
    fun _ hm => by cases hm⟩
  · intro turnId indexed hindexed
    obtain ⟨entry, he, rfl, rfl⟩ := h.get_turn.mp hindexed
    refine ⟨rfl, h.turn_thread entry he, rfl, ?_, ?_⟩
    · exact fun key unit hu => ((h.get_unit he).mp hu).2
    · exact fun key unit hu => h.unit_turn entry he unit ((h.get_unit he).mp hu).1
  · intro turnId
    rw [h.has_active]
    constructor
    · rintro ⟨entry, he, hid, ha⟩
      exact ⟨_, h.turn_eq_some.mpr ⟨entry, he, hid, rfl⟩, ha⟩
    · rintro ⟨state, hs, ha⟩
      obtain ⟨entry, he, hid, rfl⟩ := h.turn_eq_some.mp hs
      exact ⟨entry, he, hid, ha⟩

end

theorem fromSnapshot_consistent (h : fromSnapshot snapshot = .ok a) (collation : Collation) : a.Consistent collation := by
  obtain ⟨hvalid, rfl⟩ := fromSnapshot_eq_ok.mp h
  exact hvalid.hydrated_consistent collation

end Rika.Accumulator
