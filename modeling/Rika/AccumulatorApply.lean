import Rika.IndexConsistency

namespace Rika.Accumulator

open ThreadView
open Fold (refuse_eq_ok bind_eq_ok)

structure ThreadViewAccumulator.Consistent (collation : Collation) (a : ThreadViewAccumulator) : Prop where
  index : a.toTurnIndex.Consistent a.currentHeader.thread.id
  pending_nodup : (a.currentHeader.pending.map (·.id)).Nodup
  pending_le : a.currentHeader.pending.length ≤ limits.pending
  materialized : ∀ snapshot, a.materialized = some snapshot → snapshot = a.view collation

def changedTurns (patch : ThreadViewPatch) (turnId : String) (previous : Option ThreadViewTurnState) :
    Option ThreadViewTurnState :=
  patch.turnChanges.foldl (changedTurn turnId) previous

def changesById (patch : ThreadViewPatch) : InsertionMap String ThreadViewTurnChange :=
  patch.turnChanges.foldl (fun changes change => changes.set change.key change) .empty

/-- What the rejection tests establish before the first write. -/
structure Admitted (a : ThreadViewAccumulator) (patch : ThreadViewPatch) : Prop where
  threadId : patch.threadId = a.currentHeader.thread.id
  base : patch.baseRevision = a.currentRevision
  revision : patch.revision = a.currentRevision + 1
  upsert_nodup : (patch.upsert.map (·.key)).Nodup
  remove_nodup : patch.remove.Nodup
  changes_nodup : (patch.turnChanges.map (·.key)).Nodup
  header_thread : (patch.header.getD a.currentHeader).thread.id = a.currentHeader.thread.id
  pending_nodup : ((patch.header.getD a.currentHeader).pending.map (·.id)).Nodup
  pending_le : (patch.header.getD a.currentHeader).pending.length ≤ limits.pending
  removed : ∀ key ∈ patch.remove, a.unitOwners.has key = true
  owner : ∀ unit ∈ patch.upsert, upsertUnitError a unit = none
  changes : ∀ change ∈ patch.turnChanges, turnChangeError a change = none
  holder : ∀ unit ∈ patch.upsert, (changedTurns patch unit.turnId (a.turn unit.turnId)).isSome = true

variable {turnId threadId : String} {changes : List ThreadViewTurnChange} {a : ThreadViewAccumulator} {patch : ThreadViewPatch}
    {p p' : Progress}

theorem foldl_changedTurn_of_notMem (h : turnId ∉ changes.map (·.key)) (previous : Option ThreadViewTurnState) :
    changes.foldl (changedTurn turnId) previous = previous := by
  induction changes with
  | nil => rfl
  | cons change changes ih =>
    simp only [List.map_cons, List.mem_cons, not_or] at h
    rw [List.foldl_cons, changedTurn_of_ne (Ne.symm h.1), ih h.2]

theorem foldl_changedTurn_of_mem
    (hnodup : (changes.map (·.key)).Nodup) {change : ThreadViewTurnChange} (hmem : change ∈ changes)
    (hkey : change.key = turnId) (previous : Option ThreadViewTurnState) :
    changes.foldl (changedTurn turnId) previous = changedTurn turnId none change := by
  induction changes generalizing previous with
  | nil => cases hmem
  | cons first changes ih =>
    simp only [List.map_cons, List.nodup_cons] at hnodup
    rw [List.foldl_cons]
    rcases List.mem_cons.mp hmem with rfl | hmem
    · rw [foldl_changedTurn_of_notMem (hkey ▸ hnodup.1)]
      simp [changedTurn, hkey]
    · exact ih hnodup.2 hmem _

theorem revisionError_eq_none :
    revisionError a patch = none ↔ patch.threadId = a.currentHeader.thread.id ∧
      patch.baseRevision = a.currentRevision ∧ patch.revision = a.currentRevision + 1 := by
  simp only [revisionError]
  split
  · next h => simp [h]
  · split
    · next h => simp only [reduceCtorEq, false_iff, not_and]; omega
    · split
      · next h => simp only [reduceCtorEq, false_iff, not_and]; omega
      · next h₁ h₂ h₃ =>
          simp only [true_iff]
          exact ⟨not_not.mp h₁, by omega, by omega⟩

theorem collectionError_eq_none {header : ThreadViewHeader} :
    collectionError a patch header = none ↔
      (patch.upsert.map (·.key)).Nodup ∧ patch.remove.Nodup ∧
      (∀ unit ∈ patch.upsert, unit.key ∉ patch.remove) ∧ (patch.turnChanges.map (·.key)).Nodup ∧
      header.thread.id = a.currentHeader.thread.id ∧ (header.pending.map (·.id)).Nodup ∧
      header.pending.length ≤ limits.pending := by
  simp [collectionError, Option.or_eq_none_iff, duplicateKey_eq_none]

theorem unitError_eq_none :
    unitError a patch = none ↔ (∀ key ∈ patch.remove, a.unitOwners.has key = true) ∧
      ∀ unit ∈ patch.upsert, upsertUnitError a unit = none := by
  simp [unitError, Option.or_eq_none_iff, List.findSome?_eq_none_iff]

theorem turnChangesError_eq_ok {changes : InsertionMap String ThreadViewTurnChange} :
    turnChangesError a patch = .ok changes ↔
      (∀ change ∈ patch.turnChanges, turnChangeError a change = none) ∧
        changes = changesById patch := by
  apply Fold.foldlM_guarded
  intro changes change changes'
  cases turnChangeError a change <;> simp [eq_comm]

theorem changes_get (hnodup : (patch.turnChanges.map (·.key)).Nodup) {change : ThreadViewTurnChange} :
    (changesById patch).get turnId = some change ↔ change ∈ patch.turnChanges ∧ change.key = turnId := by
  have hkeys : ((patch.turnChanges.map (fun change => (change.key, change))).map Prod.fst).Nodup := by
    simpa [Function.comp_def] using hnodup
  have hentries := InsertionMap.entries_ofList hkeys
  rw [InsertionMap.ofList, List.foldl_map] at hentries
  rw [InsertionMap.get_eq_some, changesById, hentries]
  simp only [List.mem_map, Prod.mk.injEq]
  constructor
  · rintro ⟨change', hmem, hkey, rfl⟩
    exact ⟨hmem, hkey⟩
  · exact fun h => ⟨change, h.1, h.2, rfl⟩

theorem upsertTurnError_holder
    (hnodup : (patch.turnChanges.map (·.key)).Nodup) (h : upsertTurnError a patch (changesById patch) = none)
    (unit : TranscriptUnit.Unit) (hunit : unit ∈ patch.upsert) :
    (changedTurns patch unit.turnId (a.turn unit.turnId)).isSome = true := by
  have hh := List.findSome?_eq_none_iff.mp h unit hunit
  cases hc : (changesById patch).get unit.turnId with
  | some change =>
    obtain ⟨hmem, hkey⟩ := (changes_get hnodup).mp hc
    rw [changedTurns, foldl_changedTurn_of_mem hnodup hmem hkey]
    rw [hc] at hh
    cases change with
    | upsertTurn state =>
      rw [changedTurn_upsertTurn hkey]
      rfl
    | removeTurn turnId => simp at hh
  | none =>
    have hnot : unit.turnId ∉ patch.turnChanges.map (·.key) := by
      intro hmem
      obtain ⟨change, hmem, hkey⟩ := List.mem_map.mp hmem
      rw [(changes_get hnodup).mpr ⟨hmem, hkey⟩] at hc
      cases hc
    rw [changedTurns, foldl_changedTurn_of_notMem hnot]
    rw [hc] at hh
    simp only [InsertionMap.has_iff, ite_eq_left_iff, reduceCtorEq, imp_false, not_not] at hh
    exact turn_isSome.mpr hh

theorem check_admitted (h : check a patch = .ok ()) : Admitted a patch := by
  simp only [check, bind_eq_ok, refuse_eq_ok] at h
  obtain ⟨-, hrevision, -, hcollection, -, hunit, changes, hchanges, hupsert⟩ := h
  obtain ⟨hthread, hbase, hnext⟩ := revisionError_eq_none.mp hrevision
  obtain ⟨hupserts, hremove, -, hnodup, hheader, hpending, hbound⟩ := collectionError_eq_none.mp hcollection
  obtain ⟨hremoved, howner⟩ := unitError_eq_none.mp hunit
  obtain ⟨hok, rfl⟩ := turnChangesError_eq_ok.mp hchanges
  exact ⟨hthread, hbase, hnext, hupserts, hremove, hnodup, hheader, hpending, hbound, hremoved, howner, hok,
    upsertTurnError_holder hnodup hupsert⟩

theorem upsertUnitError_owner {unit : TranscriptUnit.Unit}
    (h : upsertUnitError a unit = none) {owner : String} (howner : a.unitOwners.get unit.key = some owner) :
    owner = unit.turnId := by
  simp only [upsertUnitError, howner] at h
  by_contra hne
  rw [if_pos hne] at h
  cases h

/-! ### The three loops of an admitted patch -/

theorem removeUnits_some {keys : List String} (hp : p.Consistent threadId) (hnodup : keys.Nodup)
    (howned : ∀ key ∈ keys, ∃ owner, p.unitOwners.get key = some owner)
    (hsub : ∀ key owner, p.unitOwners.get key = some owner → a.unitOwners.get key = some owner) :
    ∃ p', keys.foldlM removeUnit p = some p' ∧ p'.Consistent threadId ∧
      ∀ key owner, p'.unitOwners.get key = some owner → a.unitOwners.get key = some owner := by
  obtain ⟨p', h, hP⟩ := Fold.foldlM_some
    (fun (p : Progress) keys => p.Consistent threadId ∧ keys.Nodup ∧
      (∀ key ∈ keys, ∃ owner, p.unitOwners.get key = some owner) ∧
      ∀ key owner, p.unitOwners.get key = some owner → a.unitOwners.get key = some owner)
    (fun p key keys ⟨hp, hnodup, howned, hsub⟩ => by
      obtain ⟨hkey, hnodup⟩ := List.nodup_cons.mp hnodup
      obtain ⟨owner, howner⟩ := howned key (by simp)
      obtain ⟨p', h⟩ := removeUnit_some hp howner
      obtain ⟨-, -, -, -, -, howners, -⟩ := removeUnit_cases h
      refine ⟨p', h, removeUnit_consistent hp h, hnodup, ?_, ?_⟩
      · intro k hk
        have hne : k ≠ key := fun he => hkey (he ▸ hk)
        rw [howners, InsertionMap.get_delete, if_neg hne]
        exact howned k (by simp [hk])
      · intro k o ho
        rw [howners, InsertionMap.get_delete] at ho
        split at ho
        · cases ho
        · exact hsub k o ho)
    keys p ⟨hp, hnodup, howned, hsub⟩
  exact ⟨p', h, hP.1, hP.2.2.2⟩

theorem changeTurns_some (remove : List String) (hp : p.Consistent threadId) (hnodup : (changes.map (·.key)).Nodup)
    (hremove : ∀ key, .removeTurn key ∈ changes → (p.turn key).isSome = true)
    (hthread : ∀ state, .upsertTurn state ∈ changes → state.turn.threadId = threadId)
    (hsub : ∀ key owner, p.unitOwners.get key = some owner → a.unitOwners.get key = some owner) :
    ∃ p', changes.foldlM (changeTurn remove) p = some p' ∧ p'.Consistent threadId ∧
      ∀ key owner, p'.unitOwners.get key = some owner → a.unitOwners.get key = some owner := by
  obtain ⟨p', h, hP⟩ := Fold.foldlM_some
    (fun (p : Progress) changes => p.Consistent threadId ∧ (changes.map ThreadViewTurnChange.key).Nodup ∧
      (∀ key, .removeTurn key ∈ changes → (p.turn key).isSome = true) ∧
      (∀ state, .upsertTurn state ∈ changes → state.turn.threadId = threadId) ∧
      ∀ key owner, p.unitOwners.get key = some owner → a.unitOwners.get key = some owner)
    (fun p change changes ⟨hp, hnodup, hremove, hthread, hsub⟩ => by
      simp only [List.map_cons, List.nodup_cons] at hnodup
      obtain ⟨p', h⟩ : ∃ p', changeTurn remove p change = some p' :=
        changeTurn_some (fun key hk => hremove key (by simp [hk]))
      refine ⟨p', h, changeTurn_consistent hp (fun state hs => hthread state (by simp [hs])) h, hnodup.2,
        ?_, fun state hs => hthread state (by simp [hs]), fun key owner hk => hsub key owner (changeTurn_owners h hk)⟩
      intro key hkey
      have hne : change.key ≠ key := fun he => hnodup.1 (he ▸ List.mem_map_of_mem hkey)
      rw [changeTurn_turn h, changedTurn_of_ne hne]
      exact hremove key (by simp [hkey]))
    changes p ⟨hp, hnodup, hremove, hthread, hsub⟩
  exact ⟨p', h, hP.1, hP.2.2.2.2⟩

theorem upsertUnits_some {units : List TranscriptUnit.Unit} (hp : p.Consistent threadId) (hnodup : (units.map (·.key)).Nodup)
    (hholder : ∀ unit ∈ units, (p.turn unit.turnId).isSome = true)
    (howner : ∀ unit ∈ units, ∀ owner, p.unitOwners.get unit.key = some owner → owner = unit.turnId) :
    ∃ p', units.foldlM upsertUnit p = some p' ∧ p'.Consistent threadId := by
  obtain ⟨p', h, hP⟩ := Fold.foldlM_some
    (fun (p : Progress) units => p.Consistent threadId ∧ (units.map TranscriptUnit.Unit.key).Nodup ∧
      (∀ unit ∈ units, (p.turn unit.turnId).isSome = true) ∧
      ∀ unit ∈ units, ∀ owner, p.unitOwners.get unit.key = some owner → owner = unit.turnId)
    (fun p unit units ⟨hp, hnodup, hholder, howner⟩ => by
      simp only [List.map_cons, List.nodup_cons] at hnodup
      obtain ⟨p', h⟩ := upsertUnit_some (hholder unit (by simp))
      obtain ⟨-, -, -, howners, -⟩ := upsertUnit_cases h
      refine ⟨p', h, upsertUnit_consistent hp (howner unit (by simp)) h, hnodup.2, ?_, ?_⟩
      · intro unit' hunit'
        rw [upsertUnit_turn h]
        exact hholder unit' (by simp [hunit'])
      · intro unit' hunit' owner ho
        have hne : unit'.key ≠ unit.key := fun he => hnodup.1 (he ▸ List.mem_map_of_mem hunit')
        rw [howners, InsertionMap.get_set, if_neg hne] at ho
        exact howner unit' (by simp [hunit']) owner ho)
    units p ⟨hp, hnodup, hholder, howner⟩
  exact ⟨p', h, hP.1⟩

theorem removeUnits_turn {keys : List String} (h : keys.foldlM removeUnit p = some p')
    (turnId : String) : p'.turn turnId = p.turn turnId :=
  Fold.foldlM_some_preserves (fun p => p.turn turnId) (fun _ _ _ hs => removeUnit_turn hs turnId) h

theorem upsertUnits_turn {units : List TranscriptUnit.Unit}
    (h : units.foldlM upsertUnit p = some p') (turnId : String) : p'.turn turnId = p.turn turnId :=
  Fold.foldlM_some_preserves (fun p => p.turn turnId) (fun _ _ _ hs => upsertUnit_turn hs turnId) h

theorem changeTurns_turn {remove : List String} (h : changes.foldlM (changeTurn remove) p = some p') (turnId : String) :
    p'.turn turnId = changes.foldl (changedTurn turnId) (p.turn turnId) := by
  induction changes generalizing p with
  | nil => cases h; rfl
  | cons change changes ih =>
    rw [List.foldlM_cons] at h
    obtain ⟨p₁, h₁, h₂⟩ := Option.bind_eq_some_iff.mp h
    rw [ih h₂, changeTurn_turn h₁, List.foldl_cons]

theorem turnChangeError_removeTurn {key : String}
    (h : turnChangeError a (.removeTurn key) = none) : (a.turn key).isSome = true := by
  simp only [turnChangeError, ThreadViewTurnChange.key, ite_eq_right_iff, reduceCtorEq, imp_false,
    Option.isNone_iff_eq_none] at h
  exact Option.isSome_iff_ne_none.mpr h

theorem turnChangeError_upsertTurn {state : ThreadViewTurnState} (h : turnChangeError a (.upsertTurn state) = none) :
    state.turn.threadId = a.currentHeader.thread.id ∧
      ∀ current, a.turn state.turn.id = some current → current.projectionRevision ≤ state.projectionRevision := by
  simp only [turnChangeError, ThreadViewTurnChange.key] at h
  split at h
  · cases h
  · next hthread =>
      refine ⟨not_not.mp hthread, fun current hcurrent => ?_⟩
      simp only [hcurrent, Option.any_some, decide_eq_true_eq, ite_eq_right_iff, reduceCtorEq, imp_false,
        not_lt] at h
      exact h

theorem change_some (ha : a.toTurnIndex.Consistent a.currentHeader.thread.id) (h : Admitted a patch) :
    ∃ p, change a.toTurnIndex patch = some p ∧ p.Consistent a.currentHeader.thread.id ∧
      ∀ turnId, p.turn turnId = changedTurns patch turnId (a.turn turnId) := by
  obtain ⟨p₁, h₁, hp₁, hsub₁⟩ := removeUnits_some (a := a) (p := { a.toTurnIndex with deltas := .empty })
    ha h.remove_nodup (fun key hk => InsertionMap.has_iff.mp (h.removed key hk)) (fun _ _ ho => ho)
  have ht₁ := removeUnits_turn h₁
  obtain ⟨p₂, h₂, hp₂, hsub₂⟩ := changeTurns_some (a := a) patch.remove hp₁ h.changes_nodup
    (fun key hk => by rw [ht₁]; exact turnChangeError_removeTurn (h.changes _ hk))
    (fun state hs => (turnChangeError_upsertTurn (h.changes _ hs)).1) hsub₁
  have ht₂ := changeTurns_turn h₂
  obtain ⟨p₃, h₃, hp₃⟩ := upsertUnits_some hp₂ h.upsert_nodup
    (fun unit hunit => by rw [ht₂, ht₁]; exact h.holder unit hunit)
    (fun unit hunit owner ho => upsertUnitError_owner (h.owner unit hunit) (hsub₂ _ _ ho))
  refine ⟨p₃, ?_, hp₃, ?_⟩
  · simp only [change, h₁, Option.bind_eq_bind, Option.bind_some, h₂, h₃]
  · intro turnId
    rw [upsertUnits_turn h₃, ht₂, ht₁]
    rfl

/-! ### A patch as a whole -/

/-- Either a patch is rejected and nothing is written, or it is admitted and
every lookup of its loops succeeds. -/
theorem apply_cases {collation : Collation} (ha : a.Consistent collation) (patch : ThreadViewPatch) :
    (∃ error, apply a patch = some (.error error, a)) ∨
      ∃ delta a', apply a patch = some (.ok delta, a') ∧ Admitted a patch ∧ a'.Consistent collation ∧
        a'.currentRevision = patch.revision ∧ a'.currentHeader = patch.header.getD a.currentHeader ∧
        ∀ turnId, a'.turn turnId = changedTurns patch turnId (a.turn turnId) := by
  cases hc : check a patch with
  | error error => exact .inl ⟨error, by simp [apply, hc]⟩
  | ok u =>
    have hadmitted := check_admitted hc
    obtain ⟨p, hp, hconsistent, hturn⟩ := change_some ha.index hadmitted
    refine .inr ⟨_, _, by simp only [apply, hc, hp, Option.bind_eq_bind, Option.bind_some]; rfl, hadmitted,
      ⟨?_, hadmitted.pending_nodup, hadmitted.pending_le, fun _ h => by cases h⟩, rfl, rfl, hturn⟩
    exact hadmitted.header_thread.symm ▸ hconsistent

end Rika.Accumulator
