import Rika.Accumulator

namespace Rika.Accumulator

open ThreadView
open Fold (refuse)
open InsertionMap (get_delete get_set mem_keys)

/-- A turn is filed under its own id in the thread of the view, and its units
under their own keys. -/
structure IndexedTurn.Filed (threadId turnId : String) (indexed : IndexedTurn) : Prop where
  turn_id : indexed.state.turn.id = turnId
  turn_thread : indexed.state.turn.threadId = threadId
  defaulted : turnState indexed.state = indexed.state
  unit_key : ∀ key unit, indexed.units.get key = some unit → unit.key = key
  unit_turn : ∀ key unit, indexed.units.get key = some unit → unit.turnId = turnId

def TurnIndex.Holds (index : TurnIndex) (turnId key : String) : Prop :=
  ∃ indexed unit, index.turnsById.get turnId = some indexed ∧ indexed.units.get key = some unit

structure TurnIndex.Consistent (threadId : String) (index : TurnIndex) : Prop where
  filed : ∀ turnId indexed, index.turnsById.get turnId = some indexed → indexed.Filed threadId turnId
  owner_iff : ∀ key turnId, index.unitOwners.get key = some turnId ↔ index.Holds turnId key
  active_iff : ∀ turnId, index.activeTurnIds.has turnId = true ↔
    ∃ state, index.turn turnId = some state ∧ active state.turn.status = true

variable {threadId : String}

variable {index : TurnIndex} {turnId key owner : String} {state : ThreadViewTurnState} {change : ThreadViewTurnChange}
    {p p' : Progress} {remove : List String} {unit : TranscriptUnit.Unit}

theorem turn_eq_some :
    index.turn turnId = some state ↔ ∃ indexed, index.turnsById.get turnId = some indexed ∧ indexed.state = state := by
  simp [TurnIndex.turn]

theorem turn_isSome : (index.turn turnId).isSome = true ↔ ∃ indexed, index.turnsById.get turnId = some indexed := by
  simp [TurnIndex.turn, Option.isSome_iff_exists]

theorem TurnIndex.Consistent.owner_unique (h : index.Consistent threadId)
    {turnId' : String} (h₁ : index.Holds turnId key) (h₂ : index.Holds turnId' key) :
    turnId = turnId' := by
  rw [← h.owner_iff] at h₁ h₂
  rw [h₁] at h₂
  exact Option.some_inj.mp h₂

def changedTurn (turnId : String) (previous : Option ThreadViewTurnState) (change : ThreadViewTurnChange) :
    Option ThreadViewTurnState :=
  if change.key = turnId then
    match change with
    | .upsertTurn state => some (turnState state)
    | .removeTurn _ => none
  else previous

theorem changedTurn_of_ne (h : change.key ≠ turnId)
    (previous : Option ThreadViewTurnState) : changedTurn turnId previous change = previous := if_neg h

theorem changedTurn_upsertTurn (h : state.turn.id = turnId) (previous : Option ThreadViewTurnState) :
    changedTurn turnId previous (.upsertTurn state) = some (turnState state) := if_pos h

/-! ### Removing a unit -/

theorem removeUnit_cases (h : removeUnit p key = some p') :
    ∃ owner indexed, p.unitOwners.get key = some owner ∧ p.turnsById.get owner = some indexed ∧
      p'.turnsById = p.turnsById.set owner { indexed with units := indexed.units.delete key } ∧
      p'.unitOwners = p.unitOwners.delete key ∧ p'.activeTurnIds = p.activeTurnIds := by
  obtain ⟨owner, howner, h⟩ := Option.bind_eq_some_iff.mp h
  obtain ⟨indexed, hindexed, h⟩ := Option.bind_eq_some_iff.mp h
  cases h
  exact ⟨owner, indexed, howner, hindexed, rfl, rfl, rfl⟩

theorem removeUnit_turn (h : removeUnit p key = some p') (turnId : String) : p'.turn turnId = p.turn turnId := by
  obtain ⟨owner, indexed, -, hindexed, hturns, -, -⟩ := removeUnit_cases h
  rw [TurnIndex.turn, hturns, get_set]
  by_cases ht : turnId = owner
  · simp [TurnIndex.turn, ht, hindexed]
  · simp [TurnIndex.turn, ht]

theorem removeUnit_consistent (hp : p.Consistent threadId) (h : removeUnit p key = some p') : p'.Consistent threadId := by
  have hturn := removeUnit_turn h
  obtain ⟨owner, indexed, howner, hindexed, hturns, howners, hactive⟩ := removeUnit_cases h
  have hfiled := hp.filed owner indexed hindexed
  have hholds : ∀ turnId k, p'.Holds turnId k ↔ k ≠ key ∧ p.Holds turnId k := by
    intro turnId k
    simp only [TurnIndex.Holds, hturns, get_set]
    by_cases ht : turnId = owner
    · subst ht
      simp [hindexed]
    · rw [if_neg ht]
      constructor
      · rintro ⟨i, u, hi, hu⟩
        refine ⟨?_, i, u, hi, hu⟩
        rintro rfl
        exact ht (hp.owner_unique ⟨i, u, hi, hu⟩ ((hp.owner_iff _ _).mp howner))
      · exact fun hk => hk.2
  refine ⟨?_, ?_, ?_⟩
  · intro turnId i hi
    rw [hturns, get_set] at hi
    by_cases ht : turnId = owner
    · subst ht
      rw [if_pos rfl, Option.some_inj] at hi
      subst hi
      refine ⟨hfiled.turn_id, hfiled.turn_thread, hfiled.defaulted, ?_, ?_⟩
      · intro k u hu
        simp only [get_delete] at hu
        split at hu
        · cases hu
        · exact hfiled.unit_key k u hu
      · intro k u hu
        simp only [get_delete] at hu
        split at hu
        · cases hu
        · exact hfiled.unit_turn k u hu
    · rw [if_neg ht] at hi
      exact hp.filed turnId i hi
  · intro k turnId
    rw [hholds, howners, get_delete, ← hp.owner_iff]
    by_cases hk : k = key <;> simp [hk]
  · intro turnId
    rw [hactive, hturn]
    exact hp.active_iff turnId

theorem removeUnit_some (hp : p.Consistent threadId)
    (hkey : p.unitOwners.get key = some owner) : ∃ p', removeUnit p key = some p' := by
  obtain ⟨indexed, unit, hindexed, -⟩ := (hp.owner_iff key owner).mp hkey
  exact ⟨_, by simp [removeUnit, hkey, hindexed]; rfl⟩

/-! ### Changing a turn -/

theorem get_foldl_delete (keys : List String) (owners : InsertionMap String String) (key : String) :
    (keys.foldl (fun owners key => owners.delete key) owners).get key =
      if key ∈ keys then none else owners.get key := by
  induction keys generalizing owners with
  | nil => simp
  | cons k keys ih =>
    rw [List.foldl_cons, ih, get_delete]
    by_cases hk : key = k <;> simp [hk]

theorem changeTurn_turn (h : changeTurn remove p change = some p') (turnId : String) :
    p'.turn turnId = changedTurn turnId (p.turn turnId) change := by
  cases change with
  | removeTurn key =>
    obtain ⟨indexed, hindexed, h⟩ := Option.bind_eq_some_iff.mp h
    cases h
    by_cases ht : turnId = key
    · simp [TurnIndex.turn, changedTurn, ThreadViewTurnChange.key, ht]
    · simp [TurnIndex.turn, changedTurn, ThreadViewTurnChange.key, ht, Ne.symm ht]
  | upsertTurn state =>
    cases h
    by_cases ht : turnId = state.turn.id
    · simp [TurnIndex.turn, changedTurn, ThreadViewTurnChange.key, ht]
    · simp [TurnIndex.turn, changedTurn, ThreadViewTurnChange.key, ht, Ne.symm ht]

theorem changeTurn_owners (h : changeTurn remove p change = some p') (hk : p'.unitOwners.get key = some owner) :
    p.unitOwners.get key = some owner := by
  cases change with
  | removeTurn turnId =>
    obtain ⟨indexed, hindexed, h⟩ := Option.bind_eq_some_iff.mp h
    cases h
    rw [get_foldl_delete] at hk
    split at hk
    · cases hk
    · exact hk
  | upsertTurn state =>
    cases h
    exact hk

theorem changeTurn_some (h : ∀ key, change = .removeTurn key → (p.turn key).isSome = true) :
    ∃ p', changeTurn remove p change = some p' := by
  cases change with
  | removeTurn key =>
    obtain ⟨indexed, hindexed⟩ := turn_isSome.mp (h key rfl)
    exact ⟨_, by simp [changeTurn, hindexed]; rfl⟩
  | upsertTurn state => exact ⟨_, rfl⟩

theorem removeTurn_consistent (hp : p.Consistent threadId) (h : changeTurn remove p (.removeTurn key) = some p') :
    p'.Consistent threadId := by
  have hturn := changeTurn_turn h
  obtain ⟨indexed, hindexed, h⟩ := Option.bind_eq_some_iff.mp h
  cases h
  refine ⟨?_, ?_, ?_⟩
  · intro turnId i hi
    simp only [get_delete] at hi
    split at hi
    · cases hi
    · exact hp.filed turnId i hi
  · intro k turnId
    rw [get_foldl_delete]
    simp only [TurnIndex.Holds, get_delete]
    by_cases ht : turnId = key
    · subst ht
      simp only [if_pos, reduceCtorEq, false_and, exists_false, iff_false]
      split
      · simp
      · next hk =>
          rw [hp.owner_iff]
          rintro ⟨i, u, hi, hu⟩
          rw [hindexed, Option.some_inj] at hi
          exact hk (mem_keys.mpr ⟨u, hi ▸ hu⟩)
    · simp only [if_neg ht]
      split
      · next hk =>
          obtain ⟨u, hu⟩ := mem_keys.mp hk
          simp only [reduceCtorEq, false_iff]
          exact fun hheld => ht (hp.owner_unique hheld ⟨indexed, u, hindexed, hu⟩)
      · exact hp.owner_iff k turnId
  · intro turnId
    rw [hturn, InsertionMap.has_delete]
    by_cases ht : turnId = key
    · simp [changedTurn, ThreadViewTurnChange.key, ht]
    · simp [changedTurn, ThreadViewTurnChange.key, ht, Ne.symm ht, hp.active_iff]

theorem upsertTurn_consistent (hp : p.Consistent threadId) (hthread : state.turn.threadId = threadId)
    (h : changeTurn remove p (.upsertTurn state) = some p') : p'.Consistent threadId := by
  have hturn := changeTurn_turn h
  cases h
  have hheld : ∀ k u,
      (((p.turnsById.get state.turn.id).map (fun i => i.units)).getD InsertionMap.empty).get k = some u ↔
        ∃ i, p.turnsById.get state.turn.id = some i ∧ i.units.get k = some u := by
    intro k u
    cases hi : p.turnsById.get state.turn.id <;> simp
  refine ⟨?_, ?_, ?_⟩
  · intro turnId i hi
    simp only [get_set] at hi
    by_cases ht : turnId = state.turn.id
    · rw [if_pos ht, Option.some_inj] at hi
      subst hi ht
      refine ⟨rfl, hthread, rfl, ?_, ?_⟩
      · intro k u hu
        obtain ⟨i, hi, hu⟩ := (hheld k u).mp hu
        exact (hp.filed _ i hi).unit_key k u hu
      · intro k u hu
        obtain ⟨i, hi, hu⟩ := (hheld k u).mp hu
        exact (hp.filed _ i hi).unit_turn k u hu
    · rw [if_neg ht] at hi
      exact hp.filed turnId i hi
  · intro k turnId
    rw [hp.owner_iff]
    simp only [TurnIndex.Holds, get_set]
    by_cases ht : turnId = state.turn.id
    · subst ht
      simp only [if_true, Option.some_inj, exists_and_left, exists_eq_left', hheld]
      constructor
      · rintro ⟨i, hi, u, hu⟩
        exact ⟨u, i, hi, hu⟩
      · rintro ⟨u, i, hi, hu⟩
        exact ⟨i, hi, u, hu⟩
    · rw [if_neg ht]
  · intro turnId
    rw [hturn]
    by_cases ht : turnId = state.turn.id
    · subst ht
      by_cases ha : active state.turn.status <;> simp [changedTurn, ThreadViewTurnChange.key, ha]
    · by_cases ha : active state.turn.status <;>
        simp [changedTurn, ThreadViewTurnChange.key, ha, ht, Ne.symm ht, hp.active_iff]

theorem changeTurn_consistent (hp : p.Consistent threadId)
    (hthread : ∀ state, change = .upsertTurn state → state.turn.threadId = threadId)
    (h : changeTurn remove p change = some p') : p'.Consistent threadId := by
  cases change with
  | removeTurn key => exact removeTurn_consistent hp h
  | upsertTurn state => exact upsertTurn_consistent hp (hthread state rfl) h

/-! ### Upserting a unit -/

theorem upsertUnit_cases (h : upsertUnit p unit = some p') :
    ∃ indexed, p.turnsById.get unit.turnId = some indexed ∧
      p'.turnsById = p.turnsById.set unit.turnId { indexed with units := indexed.units.set unit.key unit } ∧
      p'.unitOwners = p.unitOwners.set unit.key unit.turnId ∧ p'.activeTurnIds = p.activeTurnIds := by
  obtain ⟨indexed, hindexed, h⟩ := Option.bind_eq_some_iff.mp h
  cases h
  exact ⟨indexed, hindexed, rfl, rfl, rfl⟩

theorem upsertUnit_turn (h : upsertUnit p unit = some p') (turnId : String) : p'.turn turnId = p.turn turnId := by
  obtain ⟨indexed, hindexed, hturns, -, -⟩ := upsertUnit_cases h
  rw [TurnIndex.turn, hturns, get_set]
  by_cases ht : turnId = unit.turnId
  · simp [TurnIndex.turn, ht, hindexed]
  · simp [TurnIndex.turn, ht]

theorem upsertUnit_some (h : (p.turn unit.turnId).isSome = true) : ∃ p', upsertUnit p unit = some p' := by
  obtain ⟨indexed, hindexed⟩ := turn_isSome.mp h
  exact ⟨_, by simp [upsertUnit, hindexed]; rfl⟩

theorem upsertUnit_consistent (hp : p.Consistent threadId)
    (howner : ∀ owner, p.unitOwners.get unit.key = some owner → owner = unit.turnId)
    (h : upsertUnit p unit = some p') : p'.Consistent threadId := by
  have hturn := upsertUnit_turn h
  obtain ⟨indexed, hindexed, hturns, howners, hactive⟩ := upsertUnit_cases h
  have hfiled := hp.filed _ indexed hindexed
  refine ⟨?_, ?_, ?_⟩
  · intro turnId i hi
    rw [hturns, get_set] at hi
    by_cases ht : turnId = unit.turnId
    · rw [if_pos ht, Option.some_inj] at hi
      subst hi ht
      refine ⟨hfiled.turn_id, hfiled.turn_thread, hfiled.defaulted, ?_, ?_⟩
      · intro k u hu
        simp only [get_set] at hu
        split at hu
        · next hk => cases hu; exact hk.symm
        · exact hfiled.unit_key k u hu
      · intro k u hu
        simp only [get_set] at hu
        split at hu
        · cases hu; rfl
        · exact hfiled.unit_turn k u hu
    · rw [if_neg ht] at hi
      exact hp.filed turnId i hi
  · intro k turnId
    rw [howners, get_set]
    simp only [TurnIndex.Holds, hturns, get_set]
    by_cases hk : k = unit.key
    · subst hk
      by_cases ht : turnId = unit.turnId
      · simp [ht]
      · simp only [if_true, Option.some_inj, Ne.symm ht, if_neg ht, false_iff]
        exact fun hheld => ht (howner turnId ((hp.owner_iff _ _).mpr hheld))
    · rw [if_neg hk, hp.owner_iff]
      by_cases ht : turnId = unit.turnId
      · subst ht
        simp [TurnIndex.Holds, hindexed, hk]
      · simp [TurnIndex.Holds, ht]
  · intro turnId
    rw [hactive, hturn]
    exact hp.active_iff turnId

end Rika.Accumulator
