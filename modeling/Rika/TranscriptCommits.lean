import Rika.TranscriptStore
import Rika.UnitOrderText

namespace Rika.TranscriptStore

open Selection (projectionVersion)
open ThreadViewFeed (ProjectionChange)
open TranscriptUnit (encodeUnitOrder)

def findUnit (units : List TranscriptUnit.Unit) (unitKey : String) : Option TranscriptUnit.Unit :=
  units.find? fun unit => unit.key = unitKey

theorem findUnit_eq_some {units : List TranscriptUnit.Unit} (h : (units.map (·.key)).Nodup) {unitKey : String}
    {unit : TranscriptUnit.Unit} : findUnit units unitKey = some unit ↔ unit ∈ units ∧ unit.key = unitKey :=
  @Table.find_eq_some _ _ TranscriptUnit.Unit.key _ ⟨units, h⟩ _ _

theorem findUnit_cons (unit : TranscriptUnit.Unit) (units : List TranscriptUnit.Unit) (unitKey : String) :
    findUnit (unit :: units) unitKey = if unit.key = unitKey then some unit else findUnit units unitKey := by
  rw [findUnit, List.find?_cons]
  by_cases hkey : unit.key = unitKey <;> simp [hkey, findUnit]

theorem findUnit_eq_none {units : List TranscriptUnit.Unit} {unitKey : String} :
    findUnit units unitKey = none ↔ unitKey ∉ units.map (·.key) := by
  simp [findUnit]

theorem findUnit_perm {units units' : List TranscriptUnit.Unit} (h : units.Perm units')
    (hnodup : (units.map (·.key)).Nodup) (unitKey : String) : findUnit units unitKey = findUnit units' unitKey := by
  ext unit
  rw [findUnit_eq_some hnodup, findUnit_eq_some ((h.map (·.key)).nodup hnodup), h.mem_iff]

/-- Units whose orders end with their keys differ in their orders when they
differ in their keys. -/
theorem key_eq_of_order {unit other : TranscriptUnit.Unit} (hunit : hasIntrinsicOrder unit = true)
    (hother : hasIntrinsicOrder other = true) (h : encodeUnitOrder unit.order = encodeUnitOrder other.order) :
    unit.key = other.key := by
  simp only [hasIntrinsicOrder, decide_eq_true_eq] at hunit hother
  rw [TranscriptUnit.encodeUnitOrder_injective h, hother] at hunit
  exact (Option.some_inj.mp hunit).symm

section Validation

variable {turnId : String} {seen seen' : Seen} {unit : TranscriptUnit.Unit} {units : List TranscriptUnit.Unit}

/-- A unit both validations accept after those seen before. -/
structure Fits (turnId : String) (seen : Seen) (unit : TranscriptUnit.Unit) : Prop where
  turn : unit.turnId = turnId
  intrinsic : hasIntrinsicOrder unit = true
  fresh : seen.has unit = false

theorem memory_validateUnit_eq_ok :
    Memory.validateUnit turnId seen unit = .ok seen' ↔ Fits turnId seen unit ∧ seen' = seen.add unit := by
  unfold Memory.validateUnit
  split
  · next hinvalid =>
      refine ⟨by rintro ⟨⟩, fun ⟨hfits, _⟩ => ?_⟩
      rcases hinvalid with hturn | horder
      · exact absurd hfits.turn hturn
      · exact absurd hfits.intrinsic (by simp [horder])
  · next hvalid =>
      obtain ⟨hturn, horder⟩ := not_or.mp hvalid
      split
      · next hseen =>
          refine ⟨by rintro ⟨⟩, fun ⟨hfits, _⟩ => ?_⟩
          exact absurd hseen (by simp [hfits.fresh])
      · next hfresh =>
          constructor
          · intro h
            cases h
            exact ⟨⟨not_not.mp hturn, by simpa using horder, by simpa using hfresh⟩, rfl⟩
          · rintro ⟨-, rfl⟩
            rfl

theorem sql_validateUnit_eq_ok :
    Sql.validateUnit turnId seen unit = .ok seen' ↔ Fits turnId seen unit ∧ seen' = seen.add unit := by
  unfold Sql.validateUnit
  split
  · next hinvalid =>
      refine ⟨by rintro ⟨⟩, fun ⟨hfits, _⟩ => ?_⟩
      rcases hinvalid with hturn | horder | hseen
      · exact absurd hfits.turn hturn
      · exact absurd hfits.intrinsic (by simp [horder])
      · exact absurd hseen (by simp [hfits.fresh])
  · next hvalid =>
      simp only [Sql.unitIsInvalid, not_or] at hvalid
      obtain ⟨hturn, horder, hfresh⟩ := hvalid
      constructor
      · intro h
        cases h
        exact ⟨⟨not_not.mp hturn, by simpa using horder, by simpa using hfresh⟩, rfl⟩
      · rintro ⟨-, rfl⟩
        rfl

theorem validateUnits_iff :
    Sql.validateUnits turnId units = .ok seen' ↔ Memory.validateUnits turnId units = .ok seen' := by
  unfold Memory.validateUnits Sql.validateUnits
  generalize ({} : Seen) = start
  induction units generalizing start with
  | nil => rfl
  | cons unit units ih =>
    simp only [List.foldlM_cons, Fold.bind_eq_ok, memory_validateUnit_eq_ok, sql_validateUnit_eq_ok, ih]

theorem valid_of_validateUnits (h : Memory.validateUnits turnId units = .ok seen') :
    (∀ unit ∈ units, hasIntrinsicOrder unit = true) ∧ (units.map (·.key)).Nodup := by
  suffices hall : ∀ start, units.foldlM (Memory.validateUnit turnId) start = .ok seen' →
      (∀ unit ∈ units, hasIntrinsicOrder unit = true ∧ unit.key ∉ start.keys) ∧ (units.map (·.key)).Nodup by
    obtain ⟨hintrinsic, hnodup⟩ := hall {} h
    exact ⟨fun unit hunit => (hintrinsic unit hunit).1, hnodup⟩
  clear h
  induction units with
  | nil => simp
  | cons unit units ih =>
    intro start h
    rw [List.foldlM_cons, Fold.bind_eq_ok] at h
    obtain ⟨seen, hseen, hrest⟩ := h
    obtain ⟨hfits, rfl⟩ := memory_validateUnit_eq_ok.mp hseen
    obtain ⟨hintrinsic, hnodup⟩ := ih (start.add unit) hrest
    have hkey : unit.key ∉ start.keys := by
      intro hmem
      have hfresh := hfits.fresh
      simp [Seen.has, hmem] at hfresh
    constructor
    · rw [List.forall_mem_cons]
      refine ⟨⟨hfits.intrinsic, hkey⟩, fun other hother => ⟨(hintrinsic other hother).1, fun hmem => ?_⟩⟩
      exact (hintrinsic other hother).2 (List.mem_cons_of_mem _ hmem)
    · rw [List.map_cons, List.nodup_cons, List.mem_map]
      refine ⟨?_, hnodup⟩
      rintro ⟨other, hother, hkeys⟩
      exact (hintrinsic other hother).2 (by simp [Seen.add, hkeys])

end Validation

namespace Memory

def Keyed (units : InsertionMap String TranscriptUnit.Unit) : Prop :=
  ∀ unitKey unit, units.get unitKey = some unit → unit.key = unitKey

section Keys

variable {units : InsertionMap String TranscriptUnit.Unit}

theorem Keyed.delete (h : Keyed units) (unitKey : String) : Keyed (units.delete unitKey) := by
  intro other unit hget
  rw [InsertionMap.get_delete] at hget
  split at hget
  · cases hget
  · exact h other unit hget

theorem Keyed.set (h : Keyed units) (unit : TranscriptUnit.Unit) :
    Keyed (units.set unit.key unit) := by
  intro unitKey other hget
  rw [InsertionMap.get_set] at hget
  split at hget
  · next hkey =>
      cases hget
      exact hkey.symm
  · exact h unitKey other hget

theorem Keyed.map_key (h : Keyed units) : units.values.map (·.key) = units.keys := by
  rw [InsertionMap.values, InsertionMap.keys, List.map_map]
  apply List.map_congr_left
  intro entry hentry
  exact h entry.1 entry.2 (InsertionMap.get_eq_some.mpr hentry)

theorem Keyed.nodup (h : Keyed units) :
    (units.values.map (·.key)).Nodup := h.map_key ▸ units.nodupKeys

theorem Keyed.findUnit_values (h : Keyed units) (unitKey : String) :
    findUnit units.values unitKey = units.get unitKey := by
  ext unit
  rw [findUnit_eq_some h.nodup, InsertionMap.mem_values]
  constructor
  · rintro ⟨⟨other, hget⟩, rfl⟩
    rwa [h other unit hget]
  · intro hget
    exact ⟨⟨unitKey, hget⟩, h unitKey unit hget⟩

theorem get_ofList {units : List TranscriptUnit.Unit} (hnodup : (units.map (·.key)).Nodup) (unitKey : String) :
    (InsertionMap.ofList (units.map fun unit => (unit.key, unit))).get unitKey = findUnit units unitKey := by
  have hkeys : ((units.map fun unit => (unit.key, unit)).map Prod.fst).Nodup := by
    rw [List.map_map]
    exact hnodup
  have hentries := InsertionMap.entries_ofList hkeys
  ext unit
  rw [InsertionMap.get_eq_some, hentries, findUnit_eq_some hnodup, List.mem_map]
  constructor
  · rintro ⟨other, hother, hpair⟩
    cases hpair
    exact ⟨hother, rfl⟩
  · rintro ⟨hunit, rfl⟩
    exact ⟨unit, hunit, rfl⟩

theorem foldl_delete (remove : List String) (h : Keyed units) :
    Keyed (remove.foldl (fun units key => units.delete key) units) ∧ ∀ unitKey,
      (remove.foldl (fun units key => units.delete key) units).get unitKey =
        if unitKey ∈ remove then none else units.get unitKey := by
  induction remove generalizing units with
  | nil => exact ⟨h, fun unitKey => by simp⟩
  | cons key remove ih =>
    obtain ⟨hkeyed, hget⟩ := ih (h.delete key)
    refine ⟨hkeyed, fun unitKey => ?_⟩
    rw [List.foldl_cons, hget, InsertionMap.get_delete]
    by_cases hkey : unitKey = key
    · simp [hkey]
    · simp [hkey]

theorem foldl_set {upsert : List TranscriptUnit.Unit} (hnodup : (upsert.map (·.key)).Nodup) (h : Keyed units) :
    Keyed (upsert.foldl (fun units unit => units.set unit.key unit) units) ∧ ∀ unitKey,
      (upsert.foldl (fun units unit => units.set unit.key unit) units).get unitKey =
        (findUnit upsert unitKey).or (units.get unitKey) := by
  induction upsert generalizing units with
  | nil => exact ⟨h, fun unitKey => rfl⟩
  | cons unit upsert ih =>
    rw [List.map_cons, List.nodup_cons] at hnodup
    obtain ⟨hkeyed, hget⟩ := ih hnodup.2 (h.set unit)
    refine ⟨hkeyed, fun unitKey => ?_⟩
    rw [List.foldl_cons, hget, InsertionMap.get_set, findUnit_cons]
    by_cases hkey : unit.key = unitKey
    · have hnone : findUnit upsert unitKey = none := findUnit_eq_none.mpr (hkey ▸ hnodup.1)
      simp [hkey, hnone]
    · simp [hkey, Ne.symm hkey]

end Keys

def units (current : Option Projection) : List TranscriptUnit.Unit := (current.map (·.units)).getD []

def kept (current : Option Projection) (change : ProjectionChange) (unitKey : String) : Option TranscriptUnit.Unit :=
  if shouldDeleteStoredUnits (replacing current) change || unitKey ∈ removedUnitKeys change then none
  else findUnit (units current) unitKey

theorem shouldDelete_of_replacing {current : Option Projection} {change : ProjectionChange}
    (hstale : staleChange current change = false) (hreplacing : replacing current = true) :
    shouldDeleteStoredUnits (replacing current) change = true := by
  cases change with
  | projectionSnapshot baseRevision revision checkpoint units hasOlder state =>
    rw [shouldDeleteStoredUnits, hreplacing, Bool.or_true]
  | projectionPatch baseRevision revision checkpoint upsert remove state =>
    cases current with
    | none => cases hreplacing
    | some projection =>
      simp only [staleChange, Option.map_some, Bool.or_eq_false_iff, decide_eq_false_iff_not, not_not,
        Option.some.injEq] at hstale
      simp only [replacing, decide_eq_true_eq] at hreplacing
      omega

theorem projectionUnits_spec {current : Option Projection} {change : ProjectionChange}
    (hstale : staleChange current change = false) (hcurrent : ((units current).map (·.key)).Nodup)
    (hchanged : (change.changedUnits.map (·.key)).Nodup) :
    ((projectionUnits current change change.changedUnits).map (·.key)).Nodup ∧ ∀ unitKey,
      findUnit (projectionUnits current change change.changedUnits) unitKey =
        (findUnit change.changedUnits unitKey).or (kept current change unitKey) := by
  have hstart : ∃ start : InsertionMap String TranscriptUnit.Unit, Keyed start ∧
      (∀ unitKey, start.get unitKey =
        if shouldDeleteStoredUnits (replacing current) change then none else findUnit (units current) unitKey) ∧
      projectionUnits current change change.changedUnits =
        (change.changedUnits.foldl (fun units unit => units.set unit.key unit)
          ((removedUnitKeys change).foldl (fun units key => units.delete key) start)).values := by
    by_cases hdelete : shouldDeleteStoredUnits (replacing current) change = true
    · refine ⟨.empty, ?_, ?_, ?_⟩
      · intro unitKey unit hget
        cases hget
      · intro unitKey
        rw [if_pos hdelete]
        rfl
      · rw [projectionUnits, if_pos hdelete]
    · have hreplacing : replacing current = false := by
        rw [← Bool.not_eq_true]
        exact fun h => hdelete (shouldDelete_of_replacing hstale h)
      refine ⟨.ofList ((units current).map fun unit => (unit.key, unit)), ?_, ?_, ?_⟩
      · intro unitKey unit hget
        rw [get_ofList hcurrent] at hget
        exact ((findUnit_eq_some hcurrent).mp hget).2
      · intro unitKey
        rw [if_neg hdelete, get_ofList hcurrent]
      · rw [projectionUnits, if_neg hdelete, hreplacing]
        rfl
  obtain ⟨start, hkeyed, hget, hunits⟩ := hstart
  obtain ⟨hkeyed, hdeleted⟩ := foldl_delete (removedUnitKeys change) hkeyed
  obtain ⟨hkeyed, hset⟩ := foldl_set hchanged hkeyed
  rw [hunits]
  refine ⟨hkeyed.nodup, fun unitKey => ?_⟩
  rw [hkeyed.findUnit_values, hset, hdeleted, hget, kept]
  by_cases hremoved : unitKey ∈ removedUnitKeys change <;>
    by_cases hdelete : shouldDeleteStoredUnits (replacing current) change = true <;> simp [hremoved, hdelete]

end Memory

namespace Sql

/-- Rows are those of their units, whose orders end with their keys. -/
def WellFormed (units : Table UnitRow.unitKey) : Prop :=
  ∀ row ∈ units.rows, row = unitRow row.unit ∧ hasIntrinsicOrder row.unit = true

def upserted (row : Option UnitRow) (unit : TranscriptUnit.Unit) : UnitRow :=
  match row with
  | none => unitRow unit
  | some row => if row.unitOrderKey = encodeUnitOrder unit.order then unitRow unit else row

variable {units : Table UnitRow.unitKey}

theorem upsertUnit_spec {unit : TranscriptUnit.Unit} (h : WellFormed units)
    (hunit : hasIntrinsicOrder unit = true) :
    ∃ units', upsertUnit units unit = .ok units' ∧ WellFormed units' ∧ ∀ unitKey,
      units'.find unitKey = if unitKey = unit.key then some (upserted (units.find unit.key) unit) else units.find unitKey := by
  cases hfind : units.find unit.key with
  | none =>
    have hfresh : (units.rows.any fun row => row.unitOrderKey = encodeUnitOrder unit.order) = false := by
      rw [List.any_eq_false]
      intro row hrow horder
      obtain ⟨hof, hintrinsic⟩ := h row hrow
      rw [decide_eq_true_eq, hof] at horder
      have hkey := key_eq_of_order hintrinsic hunit horder
      exact Table.find_eq_none.mp hfind row hrow ((congrArg UnitRow.unitKey hof).trans hkey)
    cases hinsert : units.insert (unitRow unit) with
    | none => exact absurd hfind (Table.insert_eq_none.mp hinsert)
    | some units' =>
      refine ⟨units', ?_, ?_, fun unitKey => Table.find_insert hinsert unitKey⟩
      · unfold upsertUnit
        simp only [hfind]
        rw [show (unitRow unit).unitOrderKey = encodeUnitOrder unit.order from rfl, if_neg (by simp [hfresh]),
          hinsert]
        rfl
      · intro row hrow
        rw [(Table.insert_eq_some.mp hinsert).2, List.mem_append, List.mem_singleton] at hrow
        rcases hrow with hrow | rfl
        · exact h row hrow
        · exact ⟨rfl, hunit⟩
  | some stored =>
    have hstored := Table.key_of_find hfind
    have hsame : upsertUnit units unit = .ok (units.update
        (fun row => row.unitKey = unit.key && row.unitOrderKey = (unitRow unit).unitOrderKey)
        fun row => { row with
          revision := (unitRow unit).revision
          unit := (unitRow unit).unit
          parentId := (unitRow unit).parentId }) := by
      unfold upsertUnit
      simp only [hfind]
    have hset : ∀ row : UnitRow, row.unitKey = unit.key → row.unitOrderKey = encodeUnitOrder unit.order →
        { row with
          revision := (unitRow unit).revision
          unit := (unitRow unit).unit
          parentId := (unitRow unit).parentId } = unitRow unit := by
      intro row hkey horder
      simp [unitRow, hkey, horder]
    refine ⟨_, hsame, ?_, ?_⟩
    · intro row hrow
      obtain ⟨old, hold, rfl⟩ := Table.mem_update.mp hrow
      by_cases hboth : old.unitKey = unit.key ∧ old.unitOrderKey = encodeUnitOrder unit.order
      · have hwhere : (decide (old.unitKey = unit.key) && decide (old.unitOrderKey = (unitRow unit).unitOrderKey)) =
            true := (Bool.and_eq_true _ _).mpr ⟨decide_eq_true hboth.1, decide_eq_true hboth.2⟩
        rw [if_pos hwhere, hset old hboth.1 hboth.2]
        exact ⟨rfl, hunit⟩
      · rw [if_neg fun hwhere => hboth ?_]
        · exact h old hold
        · obtain ⟨hkey, horder⟩ := (Bool.and_eq_true _ _).mp hwhere
          exact ⟨of_decide_eq_true hkey, of_decide_eq_true horder⟩
    · intro unitKey
      rw [Table.find_update]
      by_cases hkey : unitKey = unit.key
      · rw [if_pos hkey, hkey, hfind, Option.map_some, upserted]
        by_cases horder : stored.unitOrderKey = encodeUnitOrder unit.order
        · rw [if_pos (by simp [unitRow, hstored, horder]), if_pos horder, hset stored hstored horder]
        · rw [if_neg (by simp [unitRow, horder]), if_neg horder]
      · rw [if_neg hkey]
        cases hother : units.find unitKey with
        | none => rfl
        | some row =>
          have hrow := Table.key_of_find hother
          rw [Option.map_some, if_neg (by simp [hrow, hkey])]

theorem foldlM_upsertUnit {upsert : List TranscriptUnit.Unit} (hintrinsic : ∀ unit ∈ upsert, hasIntrinsicOrder unit = true)
    (hnodup : (upsert.map (·.key)).Nodup) (h : WellFormed units) :
    ∃ units', upsert.foldlM upsertUnit units = .ok units' ∧ WellFormed units' ∧ ∀ unitKey,
      units'.find unitKey =
        match findUnit upsert unitKey with
        | some unit => some (upserted (units.find unitKey) unit)
        | none => units.find unitKey := by
  induction upsert generalizing units with
  | nil => exact ⟨units, rfl, h, fun _ => rfl⟩
  | cons unit upsert ih =>
    rw [List.map_cons, List.nodup_cons] at hnodup
    rw [List.forall_mem_cons] at hintrinsic
    obtain ⟨units₁, hunit, hformed, hfind₁⟩ := upsertUnit_spec h hintrinsic.1
    obtain ⟨units', hunits, hformed', hfind⟩ := ih hintrinsic.2 hnodup.2 hformed
    refine ⟨units', ?_, hformed', fun unitKey => ?_⟩
    · rw [List.foldlM_cons, hunit]
      exact hunits
    · rw [hfind, findUnit_cons, hfind₁]
      by_cases hkey : unit.key = unitKey
      · have hnone : findUnit upsert unitKey = none := findUnit_eq_none.mpr (hkey ▸ hnodup.1)
        rw [hnone, if_pos hkey, if_pos hkey.symm, hkey]
      · rw [if_neg hkey, if_neg (Ne.symm hkey)]

def bindsUnits (change : ProjectionChange) : Bool :=
  (removedUnitKeys change).all isText && change.changedUnits.all bindsUnit

theorem writeUnits_error {replacing : Bool} {change : ProjectionChange}
    (h : bindsUnits change = false) : ∃ message, writeUnits units replacing change = .error message := by
  unfold writeUnits
  rw [bindsUnits, Bool.and_eq_false_iff] at h
  by_cases hremoved : (removedUnitKeys change).all isText = true
  · have hchanged : change.changedUnits.all bindsUnit = false := by
      rcases h with h | h
      · rw [hremoved] at h
        cases h
      · exact h
    refine ⟨"value out of range", ?_⟩
    simp only [hremoved, hchanged]
    rfl
  · rw [Bool.not_eq_true] at hremoved
    refine ⟨"invalid text", ?_⟩
    simp only [hremoved]
    rfl

theorem writeUnits_spec {replacing : Bool} {change : ProjectionChange}
    (h : WellFormed units) (hbinds : bindsUnits change = true)
    (hintrinsic : ∀ unit ∈ change.changedUnits, hasIntrinsicOrder unit = true)
    (hnodup : (change.changedUnits.map (·.key)).Nodup) :
    ∃ units', writeUnits units replacing change = .ok units' ∧ ∀ unitKey,
      let before :=
        if shouldDeleteStoredUnits replacing change || unitKey ∈ removedUnitKeys change then none
        else units.find unitKey
      units'.find unitKey =
        match findUnit change.changedUnits unitKey with
        | some unit => some (upserted before unit)
        | none => before := by
  rw [bindsUnits, Bool.and_eq_true] at hbinds
  have hformed : WellFormed ((if shouldDeleteStoredUnits replacing change then .empty else units).delete
      fun row => row.unitKey ∈ removedUnitKeys change) := by
    intro row hrow
    have hmem := (Table.mem_delete.mp hrow).1
    split at hmem
    · cases hmem
    · exact h row hmem
  obtain ⟨units', hunits, -, hfind⟩ := foldlM_upsertUnit hintrinsic hnodup hformed
  refine ⟨units', ?_, fun unitKey => ?_⟩
  · unfold writeUnits
    simp only [hbinds.1, hbinds.2]
    exact hunits
  · have hbefore : ((if shouldDeleteStoredUnits replacing change then .empty else units).delete
        fun row => row.unitKey ∈ removedUnitKeys change).find unitKey =
          if shouldDeleteStoredUnits replacing change || unitKey ∈ removedUnitKeys change then none
          else units.find unitKey := by
      rw [Table.find_delete]
      by_cases hdelete : shouldDeleteStoredUnits replacing change = true
      · rw [if_pos hdelete, if_pos (by rw [hdelete]; rfl)]
        rfl
      · rw [if_neg hdelete]
        cases hrow : units.find unitKey with
        | none => simp
        | some row =>
          have hkey := Table.key_of_find hrow
          by_cases hremoved : unitKey ∈ removedUnitKeys change <;>
            simp [hdelete, hkey, hremoved, Option.filter]
    rw [hfind, hbefore]

end Sql

def Memory.Projection.checkpointRow (projection : Memory.Projection) : Sql.CheckpointRow where
  checkpointGeneration := projection.checkpointGeneration
  revision := projection.revision
  projectionVersion := projection.projectionVersion
  state := projection.state
  projector := projection.projectorCheckpoint

/-- Both stores hold the same projection of a turn: one checkpoint, and the
same units under the same order keys. -/
structure Agree (current : Option Memory.Projection) (rows : Sql.TurnRows) : Prop where
  checkpoint : rows.checkpoint = current.map (·.checkpointRow)
  units : rows.units.rows.Perm ((Memory.units current).map Sql.unitRow)
  intrinsic : ∀ unit ∈ Memory.units current, hasIntrinsicOrder unit = true

theorem rows_perm_iff {units : List TranscriptUnit.Unit} (hnodup : (units.map (·.key)).Nodup)
    (table : Table Sql.UnitRow.unitKey) :
    table.rows.Perm (units.map Sql.unitRow) ↔
      ∀ unitKey, table.find unitKey = (findUnit units unitKey).map Sql.unitRow := by
  have hmapped : ((units.map Sql.unitRow).map Sql.UnitRow.unitKey).Nodup := by
    rw [List.map_map]
    exact hnodup
  rw [List.perm_ext_iff_of_nodup (List.Nodup.of_map _ table.unique) (List.Nodup.of_map _ hmapped)]
  have hmem (row : Sql.UnitRow) (unitKey : String) :
      (findUnit units unitKey).map Sql.unitRow = some row ↔ row ∈ units.map Sql.unitRow ∧ row.unitKey = unitKey := by
    rw [Option.map_eq_some_iff, List.mem_map]
    simp only [findUnit_eq_some hnodup]
    constructor
    · rintro ⟨unit, ⟨hunit, hkey⟩, rfl⟩
      exact ⟨⟨unit, hunit, rfl⟩, hkey⟩
    · rintro ⟨⟨unit, hunit, rfl⟩, hkey⟩
      exact ⟨unit, ⟨hunit, hkey⟩, rfl⟩
  constructor
  · intro h unitKey
    ext row
    rw [Table.find_eq_some, hmem, h]
  · intro h row
    have hrow : row ∈ table.rows ↔ table.find row.unitKey = some row := by
      rw [Table.find_eq_some]
      simp
    rw [hrow, h, hmem]
    simp

end Rika.TranscriptStore
