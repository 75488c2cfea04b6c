import Rika.OperationAgreement
import Rika.ProcessObservations
import Rika.TranscriptAgreement

namespace Rika.ProcessObservations

open Assignments (AssignmentRow)
open ExecutorOperations (OperationKey OperationRow OperationStore)
open ThreadViewFeed (ProjectionChange)
open TranscriptStore (WithinTransaction)
open TranscriptStore.Sql (UnitRow bindsUnit isText unitRow upsertUnit writeUnits)
open TranscriptUnit (ToolCall encodeUnitOrder)

section Units

variable {row row' : OperationObservation} {unit : TranscriptUnit.Unit}

theorem matchesTool_observedTool {tool : ToolCall} (h : matchesTool row tool = true) :
    matchesTool row' (observedTool row.observation tool) = matchesTool row' tool := by
  simp only [matchesTool, Bool.and_eq_true, decide_eq_true_eq] at h
  change (tool.operationId = some row'.operationKey && tool.toolCallId = some row'.toolCallId &&
    some row.observation.processId = some row'.observation.processId : Bool) = _
  rw [← h.2]
  rfl

theorem applyObservation_of_concerns (h : concerns row unit = true) :
    ∃ tool, toolOf unit = some tool ∧ matchesTool row tool = true ∧
      applyObservation unit row = { unit with content := .block (.toolCall (observedTool row.observation tool)) } := by
  obtain ⟨tool, htool, hmatches⟩ := (Option.any_eq_true _ _).mp h
  refine ⟨tool, htool, hmatches, ?_⟩
  rw [applyObservation, htool]
  exact if_pos hmatches

theorem applyObservation_of_not_concerns (h : concerns row unit = false) : applyObservation unit row = unit := by
  rw [applyObservation]
  cases htool : toolOf unit with
  | none => rfl
  | some tool =>
    rw [concerns, htool, Option.any_some] at h
    simp [h]

/-- What an observation leaves of a unit: its place, and the observations it is the unit of. -/
structure Alike (unit unit' : TranscriptUnit.Unit) : Prop where
  key : unit'.key = unit.key
  order : unit'.order = unit.order
  parentId : unit'.parentId = unit.parentId
  revision : unit'.revision = unit.revision
  concerns : ∀ row, concerns row unit' = concerns row unit

theorem Alike.refl (unit : TranscriptUnit.Unit) : Alike unit unit := ⟨rfl, rfl, rfl, rfl, fun _ => rfl⟩

theorem Alike.trans {unit unit' unit'' : TranscriptUnit.Unit} (h : Alike unit unit') (h' : Alike unit' unit'') :
    Alike unit unit'' :=
  ⟨h'.key.trans h.key, h'.order.trans h.order, h'.parentId.trans h.parentId, h'.revision.trans h.revision,
    fun row => (h'.concerns row).trans (h.concerns row)⟩

theorem alike_applyObservation (unit : TranscriptUnit.Unit) (row : OperationObservation) :
    Alike unit (applyObservation unit row) := by
  by_cases h : concerns row unit = true
  · obtain ⟨tool, htool, hmatches, happly⟩ := applyObservation_of_concerns h
    rw [happly]
    refine ⟨rfl, rfl, rfl, rfl, fun row' => ?_⟩
    rw [concerns, concerns, htool]
    exact matchesTool_observedTool hmatches
  · rw [applyObservation_of_not_concerns (by simpa using h)]
    exact .refl unit

theorem alike_overlay (observations : List OperationObservation) (unit : TranscriptUnit.Unit) :
    Alike unit (overlay observations unit) := by
  induction observations generalizing unit with
  | nil => exact .refl unit
  | cons row observations ih => exact (alike_applyObservation unit row).trans (ih _)

theorem overlay_append (observations : List OperationObservation) (row : OperationObservation)
    (unit : TranscriptUnit.Unit) :
    overlay (observations ++ [row]) unit = applyObservation (overlay observations unit) row := by
  rw [overlay, List.foldl_append]
  rfl

end Units

/-- A stored unit is the projected one with observations of its turn laid over it; with all
of them, when its projected process runs. -/
structure Overlaid (observations : List OperationObservation) (projected stored : UnitRow) : Prop where
  key : stored.unitKey = projected.unitKey
  orderKey : stored.unitOrderKey = projected.unitOrderKey
  parentId : stored.parentId = projected.parentId
  revision : stored.revision = projected.revision
  unit : ∃ order, (∀ row ∈ order, row ∈ observations) ∧
    (isRunning projected.unit = true → order.Perm observations) ∧ stored.unit = overlay order projected.unit

/-- The stored units of a turn, each beside its last projection. -/
def OverlaidRows (observations : List OperationObservation) (projected stored : Table UnitRow.unitKey) : Prop :=
  List.Forall₂ (Overlaid observations) projected.rows stored.rows

section Writes

variable {observations order : List OperationObservation} {projected stored stored' : Table UnitRow.unitKey}

section

variable (h : OverlaidRows observations projected stored)

include h

theorem OverlaidRows.keys : stored.rows.map (·.unitKey) = projected.rows.map (·.unitKey) := by
  rw [← List.forall₂_eq_eq_eq, List.forall₂_map_left_iff, List.forall₂_map_right_iff]
  exact (List.Forall₂.imp (fun _ _ hrow => hrow.key) h).flip

theorem OverlaidRows.find_none (unitKey : String) :
    stored.find unitKey = none ↔ projected.find unitKey = none := by
  rw [Table.find_eq_none_iff_notMem, Table.find_eq_none_iff_notMem]
  exact not_congr (by rw [h.keys])

theorem OverlaidRows.orders :
    stored.rows.map (·.unitOrderKey) = projected.rows.map (·.unitOrderKey) := by
  rw [← List.forall₂_eq_eq_eq, List.forall₂_map_left_iff, List.forall₂_map_right_iff]
  exact (List.Forall₂.imp (fun _ _ hrow => hrow.orderKey) h).flip

end

def OverlaidUnit (observations : List OperationObservation) (unit unit' : TranscriptUnit.Unit) : Prop :=
  ∃ order, (∀ row ∈ order, row ∈ observations) ∧ (isRunning unit = true → order.Perm observations) ∧
    unit' = overlay order unit

variable {unit unit' : TranscriptUnit.Unit} {units units' : List TranscriptUnit.Unit}

theorem OverlaidUnit.alike (h : OverlaidUnit observations unit unit') : Alike unit unit' := by
  obtain ⟨order, -, -, rfl⟩ := h
  exact alike_overlay order unit

theorem overlaid_unitRow (h : OverlaidUnit observations unit unit') : Overlaid observations (unitRow unit) (unitRow unit') :=
  ⟨h.alike.key, congrArg encodeUnitOrder h.alike.order, h.alike.parentId, h.alike.revision, h⟩

theorem OverlaidRows.upsertUnit (h : OverlaidRows observations projected stored)
    (hunit : OverlaidUnit observations unit unit') (hstored : upsertUnit stored unit' = .ok stored') :
    ∃ projected', upsertUnit projected unit = .ok projected' ∧ OverlaidRows observations projected' stored' := by
  have halike := overlaid_unitRow hunit
  have hkey : unit'.key = unit.key := hunit.alike.key
  unfold TranscriptStore.Sql.upsertUnit at hstored ⊢
  dsimp only at hstored ⊢
  cases hfind : projected.find unit.key with
  | none =>
    have hnone : stored.find unit'.key = none := by
      rw [hkey]
      exact (h.find_none unit.key).mpr hfind
    rw [hnone] at hstored
    dsimp only at hstored ⊢
    have horders : (projected.rows.any fun row => row.unitOrderKey = (unitRow unit).unitOrderKey) =
        stored.rows.any fun row => row.unitOrderKey = (unitRow unit').unitOrderKey := by
      rw [halike.orderKey]
      have hany := congrArg (List.any · fun orderKey => orderKey = (unitRow unit).unitOrderKey) h.orders
      simp only [List.any_map] at hany
      exact hany.symm
    rw [horders]
    split at hstored
    · cases hstored
    · next hfresh =>
        rw [if_neg hfresh]
        cases hstored
        refine ⟨_, rfl, ?_⟩
        cases hinsert : stored.insert (unitRow unit') with
        | none => exact absurd hnone (Table.insert_eq_none.mp hinsert)
        | some inserted =>
          cases hprojected : projected.insert (unitRow unit) with
          | none => exact absurd hfind (Table.insert_eq_none.mp hprojected)
          | some inserted' =>
            change List.Forall₂ _ inserted'.rows inserted.rows
            rw [(Table.insert_eq_some.mp hinsert).2, (Table.insert_eq_some.mp hprojected).2]
            exact List.rel_append h (.cons halike .nil)
  | some row =>
    cases hother : stored.find unit'.key with
    | none =>
      rw [hkey, h.find_none, hfind] at hother
      cases hother
    | some row' =>
      rw [hother] at hstored
      cases hstored
      refine ⟨_, rfl, ?_⟩
      refine List.rel_map (fun old old' hold => ?_) h
      have hwhere : (decide (old'.unitKey = unit'.key) && decide (old'.unitOrderKey = (unitRow unit').unitOrderKey)) =
          (decide (old.unitKey = unit.key) && decide (old.unitOrderKey = (unitRow unit).unitOrderKey)) := by
        simp only [hold.key, hold.orderKey, hkey, halike.orderKey]
      by_cases hset : (decide (old.unitKey = unit.key) &&
          decide (old.unitOrderKey = (unitRow unit).unitOrderKey)) = true
      · rw [if_pos hset, if_pos (hwhere.trans hset)]
        exact ⟨hold.key, hold.orderKey, halike.parentId, halike.revision, halike.unit⟩
      · rw [if_neg hset, if_neg fun hset' => hset (hwhere.symm.trans hset')]
        exact hold

theorem OverlaidRows.foldlM
    (h : OverlaidRows observations projected stored) (hunits : List.Forall₂ (OverlaidUnit observations) units units')
    (hstored : units'.foldlM TranscriptStore.Sql.upsertUnit stored = .ok stored') :
    ∃ projected', units.foldlM TranscriptStore.Sql.upsertUnit projected = .ok projected' ∧
      OverlaidRows observations projected' stored' := by
  induction hunits generalizing projected stored with
  | nil =>
    cases hstored
    exact ⟨projected, rfl, h⟩
  | cons hunit _ ih =>
    rw [List.foldlM_cons, Fold.bind_eq_ok] at hstored
    obtain ⟨middle', hfirst, hrest⟩ := hstored
    obtain ⟨middle, hprojected, hmiddle⟩ := h.upsertUnit hunit hfirst
    obtain ⟨projected', hfold, hrows⟩ := ih hmiddle hrest
    refine ⟨projected', ?_, hrows⟩
    rw [List.foldlM_cons, hprojected]
    exact hfold

section

variable (change : ProjectionChange) (units : List TranscriptUnit.Unit)

theorem changedUnits_withUnits : (withUnits change units).changedUnits = units := by
  cases change <;> rfl

theorem removedUnitKeys_withUnits :
    TranscriptStore.removedUnitKeys (withUnits change units) = TranscriptStore.removedUnitKeys change := by
  cases change <;> rfl

end

theorem shouldDelete_withUnits (replacing : Bool) (change : ProjectionChange) (units : List TranscriptUnit.Unit) :
    TranscriptStore.shouldDeleteStoredUnits replacing (withUnits change units) =
      TranscriptStore.shouldDeleteStoredUnits replacing change := by
  cases change <;> rfl

theorem bindsUnit_alike (h : Alike unit unit') : bindsUnit unit' = bindsUnit unit := by
  rw [bindsUnit, bindsUnit, h.key, h.parentId, h.revision]

theorem all_bindsUnit
    (h : List.Forall₂ (OverlaidUnit observations) units units') : units'.all bindsUnit = units.all bindsUnit := by
  induction h with
  | nil => rfl
  | cons hunit _ ih => rw [List.all_cons, List.all_cons, bindsUnit_alike hunit.alike, ih]

theorem OverlaidRows.kept (h : OverlaidRows observations projected stored) (deletes : Bool) (removed : List String) :
    OverlaidRows observations ((if deletes then .empty else projected).delete fun row => row.unitKey ∈ removed)
      ((if deletes then .empty else stored).delete fun row => row.unitKey ∈ removed) := by
  cases deletes with
  | true => exact .nil
  | false =>
    refine List.rel_filter (fun old old' hold => ?_) h
    dsimp only
    rw [hold.key]

theorem OverlaidRows.writeUnits {replacing : Bool} {change : ProjectionChange} (h : OverlaidRows observations projected stored)
    (hunits : List.Forall₂ (OverlaidUnit observations) change.changedUnits units')
    (hstored : writeUnits stored replacing (withUnits change units') = .ok stored') :
    ∃ projected', writeUnits projected replacing change = .ok projected' ∧
      OverlaidRows observations projected' stored' := by
  have hbinds := all_bindsUnit hunits
  unfold TranscriptStore.Sql.writeUnits at hstored ⊢
  rw [shouldDelete_withUnits, removedUnitKeys_withUnits, changedUnits_withUnits, hbinds] at hstored
  have hkept := h.kept (TranscriptStore.shouldDeleteStoredUnits replacing change) (TranscriptStore.removedUnitKeys change)
  by_cases hremoved : (TranscriptStore.removedUnitKeys change).all isText = true
  · by_cases hall : change.changedUnits.all bindsUnit = true
    · simp only [hremoved, hall] at hstored ⊢
      exact hkept.foldlM hunits hstored
    · simp only [hremoved, hall] at hstored
      cases hstored
  · simp only [hremoved] at hstored
    cases hstored

end Writes

end Rika.ProcessObservations
