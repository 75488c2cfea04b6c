import Mathlib.Algebra.Order.BigOperators.Group.List
import Rika.LongestPrefix
import Rika.ReadMessages

namespace Rika.ThreadRead

open Fold (bind_eq_ok)
open LongestPrefix (Passes Longest)
open SessionContext (stringifyText stringifyBool escapeUnit escapeUnits)

section Lengths

theorem length_intercalate (separator : Text) (texts : List Text) :
    (separator.intercalate texts).length = (texts.map List.length).sum + (texts.length - 1) * separator.length := by
  induction texts with
  | nil => simp
  | cons text texts ih =>
    cases texts with
    | nil => simp
    | cons next texts =>
      rw [List.intercalate_cons_cons, List.length_append, List.length_append, ih]
      simp only [List.map_cons, List.sum_cons, List.length_cons]
      have hcount : texts.length + 1 + 1 - 1 = (texts.length + 1 - 1) + 1 := by omega
      rw [hcount, Nat.add_mul]
      omega

theorem length_le_intercalate (separator : Text) {texts : List Text} {text : Text} (h : text ∈ texts) :
    text.length ≤ (separator.intercalate texts).length := by
  rw [length_intercalate]
  have hle : text.length ≤ (texts.map List.length).sum := List.single_le_sum (by simp) _ (List.mem_map_of_mem h)
  omega

variable {value : Text}

theorem length_le_object (name : String) {fields : List (Option (String × Text))}
    (h : some (name, value) ∈ fields) : value.length ≤ (object fields).length := by
  have hmem : (name, value) ∈ fields.filterMap id := List.mem_filterMap.mpr ⟨_, h, rfl⟩
  have hle := length_le_intercalate (utf16 ",") (List.mem_map_of_mem
    (f := fun field : String × Text => stringifyText (utf16 field.1) ++ utf16 ":" ++ field.2) hmem)
  simp only [object, List.length_append] at hle ⊢
  omega

theorem length_le_array {values : List Text} (h : value ∈ values) : value.length ≤ (array values).length := by
  have hle := length_le_intercalate (utf16 ",") h
  simp only [array, List.length_append] at hle ⊢
  omega

theorem length_object_last (fields : List (Option (String × Text))) (first second : String) (value value' other other' : Text) :
    (object (fields ++ [some (first, value), some (second, other)])).length + value'.length + other'.length =
      (object (fields ++ [some (first, value'), some (second, other')])).length + value.length + other.length := by
  simp only [object, List.length_append, length_intercalate, List.filterMap_append, List.map_append, List.sum_append,
    List.filterMap_cons, List.filterMap_nil, id_eq, List.map_cons, List.map_nil, List.sum_cons, List.sum_nil, List.length_cons,
    List.length_nil]
  omega

end Lengths

section Bounded

variable {services : Services} {maximum : Nat} {base : ReadBase}

theorem length_encodeOmission (services : Services) (omission : Omission) : 2 ≤ (encodeOmission services omission).length := by
  have hbraces : (utf16 "\x7b").length = 1 ∧ (utf16 "\x7d").length = 1 := by decide +kernel
  simp only [encodeOmission, object, List.length_append]
  omega

theorem fits_without {omission : Omission} (h : fits services maximum (respond base [] [omission]) = true) :
    fits services maximum (respond base [] []) = true := by
  rw [fits, decide_eq_true_eq] at h ⊢
  let fields : List (Option (String × Text)) :=
    [some ("schemaVersion", utf16 "1"), some ("threadId", stringifyText base.threadId), some ("title", stringifyText base.title),
      some ("selector", encodeSelector services base.selector),
      base.nextCursor.map fun cursor => ("nextCursor", encodeCursor services cursor), some ("items", array [])]
  have hbare (omissions : List Omission) : encodeJson services (respond base [] omissions) =
      object (fields ++ [some ("omissions", array (omissions.map (encodeOmission services))),
        some ("truncated", stringifyBool (0 < omissions.length))]) := rfl
  have hlength := length_object_last fields "omissions" "truncated" (array []) (array [encodeOmission services omission])
    (stringifyBool false) (stringifyBool true)
  have htruncated : (stringifyBool true).length = 4 ∧ (stringifyBool false).length = 5 := by decide +kernel
  have hbrackets : (utf16 "[").length = 1 ∧ (utf16 "]").length = 1 := by decide +kernel
  have hnone : (array []).length = 2 := rfl
  have hone : (array [encodeOmission services omission]).length = (encodeOmission services omission).length + 2 := by
    simp only [array, List.length_append, List.intercalate_singleton]
    omega
  have htext := length_encodeOmission services omission
  refine le_trans ?_ h
  rw [hbare, hbare]
  simp only [List.map_nil, List.map_cons, List.length_nil, List.length_singleton, lt_irrefl, decide_false, zero_lt_one,
    decide_true]
  omega

/-- What `encodeBounded` keeps is the longest prefix of the candidates that fits with the omissions it has. -/
theorem selectBounded_longest {omissions : List Omission} {selected candidates kept : List ReadItem} {omitted : Bool}
    (hselected : Passes (fun items => fits services maximum (respond base items omissions) = true) selected)
    (h : selectBounded services maximum base omissions selected candidates = (kept, omitted)) :
    Longest (fun items => fits services maximum (respond base items omissions) = true) (selected ++ candidates) kept ∧
      (omitted = true ↔ kept ≠ selected ++ candidates) := by
  induction candidates generalizing selected with
  | nil =>
    obtain ⟨rfl, rfl⟩ := Prod.mk.inj h
    rw [List.append_nil]
    exact ⟨hselected.longest, by simp⟩
  | cons candidate candidates ih =>
    rw [selectBounded] at h
    by_cases hfits : fits services maximum (respond base (selected ++ [candidate]) omissions) = true
    · rw [if_pos hfits] at h
      have hnext := ih (hselected.concat hfits) h
      rwa [List.append_assoc] at hnext
    · rw [if_neg hfits] at h
      obtain ⟨rfl, rfl⟩ := Prod.mk.inj h
      exact ⟨hselected.stop hfits, by simp⟩

/-- The items that fit leave room for the omission that says that the others are left out. -/
def Draft.Roomy (services : Services) (draft : Draft) : Prop :=
  ∀ kept, Longest (fun items => fits services transcriptBudget (respond draft.base items draft.omissions) = true) draft.candidates kept →
    kept ≠ draft.candidates →
    fits services transcriptBudget (respond draft.base kept (draft.omissions ++ [budgetOmission draft.base])) = true

theorem Draft.exists_response (services : Services) (draft : Draft) : ∃ kept,
    Longest (fun items => fits services transcriptBudget (respond draft.base items draft.omissions) = true) draft.candidates kept ∧
      (kept ≠ draft.candidates ∧
          draft.response services = respond draft.base kept (draft.omissions ++ [budgetOmission draft.base]) ∨
        kept = draft.candidates ∧ draft.response services = respond draft.base kept draft.omissions) := by
  obtain ⟨kept, omitted, hselect⟩ : ∃ kept omitted,
      selectBounded services transcriptBudget draft.base draft.omissions [] draft.candidates = (kept, omitted) := ⟨_, _, rfl⟩
  obtain ⟨hlongest, homitted⟩ := selectBounded_longest LongestPrefix.passes_nil hselect
  rw [Draft.response, encodeBounded, hselect]
  refine ⟨kept, hlongest, ?_⟩
  cases omitted with
  | true => exact .inl ⟨homitted.mp rfl, rfl⟩
  | false => exact .inr ⟨by_contra fun hne => absurd (homitted.mpr hne) (by decide), rfl⟩

theorem Draft.response_fits {draft : Draft} (homissions : draft.omissions.length ≤ 1)
    (hbare : ∀ omission ∈ draft.omissions ++ [budgetOmission draft.base],
      fits services transcriptBudget (respond draft.base [] [omission]) = true) :
    fits services transcriptBudget (draft.response services) = true ↔ draft.Roomy services := by
  obtain ⟨kept, hlongest, ⟨hne, hresponse⟩ | ⟨hall, hresponse⟩⟩ := draft.exists_response services
  · rw [hresponse]
    constructor
    · intro hfits other hother _
      rw [← hlongest.unique hother]
      exact hfits
    · intro hroomy
      exact hroomy kept hlongest hne
  · subst hall
    rw [hresponse]
    refine iff_of_true ?_ fun other hother hne => absurd (hother.unique hlongest) hne
    by_cases hempty : draft.candidates = []
    · have hbudget := fits_without (hbare (budgetOmission draft.base) (by simp))
      obtain hnone | ⟨omission, hone⟩ : draft.omissions = [] ∨ ∃ omission, draft.omissions = [omission] := by
        rcases Nat.le_one_iff_eq_zero_or_eq_one.mp homissions with hzero | hone
        · exact .inl (List.length_eq_zero_iff.mp hzero)
        · exact .inr (List.length_eq_one_iff.mp hone)
      · simpa [hempty, hnone] using hbudget
      · have hfits := hbare omission (by simp [hone])
        simpa [hempty, hone] using hfits
    · exact hlongest.passes.self hempty

end Bounded

section Subtree

variable (services : Services) (base : ReadBase) (turn : Turn) (root : TranscriptUnit) (rootParentId : Text)
  (descendants : List TranscriptUnit)

section

variable (kept : List (TranscriptUnit × Nat))

def accumulate : Except ReadError Selection :=
  kept.foldlM (fun selected entry => selectionWithAncestors entry.1 entry.2 selected rootParentId descendants) []

def renderSelection : Except ReadError ReadItem := do
  let selected ← accumulate rootParentId descendants kept
  subtreeItem services turn root (chosen descendants selected)

def SelectionFits : Prop :=
  ∃ item, renderSelection services turn root rootParentId descendants kept = .ok item ∧
    fits services transcriptBudget (respond base [item] []) = true

/-- What is shown when the selection stops before a candidate: the selection, or the candidate alone in short. -/
def stoppedItem (next : TranscriptUnit) : Except ReadError ReadItem :=
  if kept = [] then boundedSubtreeItem services turn root next
  else renderSelection services turn root rootParentId descendants kept

end

def stoppedOffset (offset : Nat) (kept : List (TranscriptUnit × Nat)) : Nat := offset + max 1 kept.length

/-- The card alone fits where no descendants are left, and what the selection stops with fits with the omission of the rest. -/
structure SubtreeRoomy (subagentId : Text) (before : Option TranscriptCursor) (offset : Nat) : Prop where
  alone : descendants.length ≤ offset → ∀ item, subtreeItem services turn root [] = .ok item →
    fits services transcriptBudget (respond base [item] []) = true
  stopped : ∀ kept next, Longest (SelectionFits services base turn root rootParentId descendants) (descendants.zipIdx.drop offset) kept →
    kept ++ [next] <+: descendants.zipIdx.drop offset →
    ∀ item, stoppedItem services turn root rootParentId descendants kept next.1 = .ok item →
    fits services transcriptBudget
      (respond base [item] (offsetOmissions subagentId before (stoppedOffset offset kept) descendants.length)) = true

variable {services base turn root rootParentId descendants}

theorem accumulate_concat (kept : List (TranscriptUnit × Nat)) (entry : TranscriptUnit × Nat) :
    accumulate rootParentId descendants (kept ++ [entry]) =
      accumulate rootParentId descendants kept >>= fun selected =>
        selectionWithAncestors entry.1 entry.2 selected rootParentId descendants := by
  simp [accumulate, List.foldlM_append]

variable {kept : List (TranscriptUnit × Nat)} {selected : Selection} {offset : Nat}

theorem accumulate_eq_nil (h : accumulate rootParentId descendants kept = .ok selected) : selected = [] ↔ kept = [] := by
  rcases List.eq_nil_or_concat kept with rfl | ⟨init, last, rfl⟩
  · cases h
    simp
  · rw [List.concat_eq_append, accumulate_concat] at h
    obtain ⟨before, -, hlast⟩ := bind_eq_ok.mp h
    rw [selectionWithAncestors] at hlast
    obtain ⟨ancestors, -, hselected⟩ := bind_eq_ok.mp hlast
    cases hselected
    simp

theorem renderSelection_eq (h : accumulate rootParentId descendants kept = .ok selected) :
    renderSelection services turn root rootParentId descendants kept = subtreeItem services turn root
    (chosen descendants selected) := by
  rw [renderSelection, h]
  rfl

/-- What `selectSubtree` comes to from a place on: it takes every candidate, or stops before one. -/
inductive Selects (services : Services) (base : ReadBase) (turn : Turn) (root : TranscriptUnit) (rootParentId : Text)
    (descendants : List TranscriptUnit) (offset : Nat) (candidates : List (TranscriptUnit × Nat)) (selection : Selected) : Prop
  | all : Passes (SelectionFits services base turn root rootParentId descendants) candidates →
      selection.render services turn root descendants = renderSelection services turn root rootParentId descendants candidates →
      selection.nextOffset = offset + candidates.length → Selects services base turn root rootParentId descendants offset candidates selection
  | stopped {kept : List (TranscriptUnit × Nat)} {next : TranscriptUnit × Nat} :
      Longest (SelectionFits services base turn root rootParentId descendants) candidates kept → kept ++ [next] <+: candidates →
      selection.render services turn root descendants = stoppedItem services turn root rootParentId descendants kept next.1 →
      selection.nextOffset = stoppedOffset offset kept → Selects services base turn root rootParentId descendants offset candidates selection

theorem position_eq {position : Nat} {rest : List (TranscriptUnit × Nat)} {unit : TranscriptUnit}
    (h : descendants.zipIdx.drop offset = kept ++ (unit, position) :: rest) : position = offset + kept.length := by
  have hget := congrArg (fun entries => entries[kept.length]?) h
  simp only [List.getElem?_drop, List.getElem?_zipIdx, List.getElem?_append_right le_rfl, Nat.sub_self,
    List.getElem?_cons_zero, Option.map_eq_some_iff, Prod.mk.injEq] at hget
  obtain ⟨other, -, -, hposition⟩ := hget
  omega

theorem selectFrom_selects {nextOffset : Nat} {candidates : List (TranscriptUnit × Nat)}
    {selection : Selected} (hsplit : descendants.zipIdx.drop offset = kept ++ candidates)
    (hselected : accumulate rootParentId descendants kept = .ok selected)
    (hpasses : Passes (SelectionFits services base turn root rootParentId descendants) kept)
    (hoffset : nextOffset = offset + kept.length)
    (h : selectFrom services base turn root rootParentId descendants candidates selected nextOffset = .ok selection) :
    Selects services base turn root rootParentId descendants offset (kept ++ candidates) selection := by
  induction candidates generalizing kept selected nextOffset with
  | nil =>
    cases h
    rw [List.append_nil]
    exact .all hpasses (renderSelection_eq hselected).symm hoffset
  | cons entry candidates ih =>
    obtain ⟨candidate, position⟩ := entry
    have hposition := position_eq hsplit
    have hinitial : kept ++ [(candidate, position)] <+: kept ++ (candidate, position) :: candidates := by simp
    rw [selectFrom] at h
    obtain ⟨trial, htrial, h⟩ := bind_eq_ok.mp h
    obtain ⟨rendered, hrendered, h⟩ := bind_eq_ok.mp h
    have haccumulate : accumulate rootParentId descendants (kept ++ [(candidate, position)]) = .ok trial := by
      rw [accumulate_concat, hselected]
      exact htrial
    have hrender := (renderSelection_eq haccumulate).trans hrendered
    by_cases hfits : fits services transcriptBudget (respond base [rendered] []) = true
    · rw [if_pos hfits] at h
      have hnext : Passes (SelectionFits services base turn root rootParentId descendants) (kept ++ [(candidate, position)]) :=
        hpasses.concat ⟨rendered, hrender, hfits⟩
      have hselects := ih (by simpa using hsplit) haccumulate hnext
        (by rw [List.length_append, List.length_singleton]; omega) h
      simpa using hselects
    · have hstop : ¬ SelectionFits services base turn root rootParentId descendants (kept ++ [(candidate, position)]) := by
        intro hother
        obtain ⟨item, hitem, hitemFits⟩ := hother
        cases hitem.symm.trans hrender
        exact hfits hitemFits
      rw [if_neg hfits] at h
      by_cases hempty : selected = []
      · have hkept := (accumulate_eq_nil hselected).mp hempty
        rw [if_pos hempty] at h
        obtain ⟨forced, hforced, hselection⟩ := bind_eq_ok.mp h
        cases hselection
        subst hkept
        refine .stopped (hpasses.stop hstop) hinitial ?_ ?_
        · rw [stoppedItem, if_pos rfl, hforced]
          rfl
        · simp [stoppedOffset, hposition]
      · have hkept : kept ≠ [] := fun hnil => hempty ((accumulate_eq_nil hselected).mpr hnil)
        have hpos := List.length_pos_iff.mpr hkept
        rw [if_neg hempty] at h
        cases h
        refine .stopped (hpasses.stop hstop) hinitial ?_ ?_
        · rw [stoppedItem, if_neg hkept, renderSelection_eq hselected]
          rfl
        · rw [stoppedOffset, max_eq_right hpos]
          exact hoffset

theorem selectSubtree_fits {subagentId : Text} {before : Option TranscriptCursor} {response : ReadSuccess}
    (hoffset : offset ≤ descendants.length)
    (h : selectSubtree services base subagentId before turn root rootParentId descendants offset = .ok response) :
    fits services transcriptBudget response = true ↔
      SubtreeRoomy services base turn root rootParentId descendants subagentId before offset := by
  rw [selectSubtree] at h
  obtain ⟨selection, hselection, h⟩ := bind_eq_ok.mp h
  obtain ⟨item, hitem, h⟩ := bind_eq_ok.mp h
  cases h
  have hrender : selection.render services turn root descendants = .ok item := hitem
  have hlength : (descendants.zipIdx.drop offset).length = descendants.length - offset := by
    rw [List.length_drop, List.length_zipIdx]
  have hselects : Selects services base turn root rootParentId descendants offset ([] ++ descendants.zipIdx.drop offset) selection :=
    selectFrom_selects rfl rfl LongestPrefix.passes_nil (Nat.add_zero offset).symm hselection
  rw [List.nil_append] at hselects
  cases hselects with
  | all hpasses hitem hnext =>
    rw [hrender] at hitem
    have hnone : offsetOmissions subagentId before selection.nextOffset descendants.length = [] :=
      if_neg (by omega)
    rw [hnone]
    by_cases hempty : descendants.zipIdx.drop offset = []
    · have hend : descendants.length ≤ offset := by
        rw [hempty, List.length_nil] at hlength
        omega
      have halone : subtreeItem services turn root [] = .ok item := by
        rw [hitem, hempty, renderSelection_eq rfl]
        simp [chosen]
      constructor
      · intro hfits
        refine ⟨fun _ other hother => ?_, fun kept next _ hnext => ?_⟩
        · cases hother.symm.trans halone
          exact hfits
        · rw [hempty] at hnext
          simp at hnext
      · intro hroomy
        exact hroomy.alone hend item halone
    · obtain ⟨other, hother, hfits⟩ := hpasses.self hempty
      cases hother.symm.trans hitem.symm
      refine iff_of_true hfits ⟨fun hend => ?_, fun kept next hkept hnext => ?_⟩
      · rw [List.drop_eq_nil_of_le (by rw [List.length_zipIdx]; exact hend)] at hempty
        exact absurd rfl hempty
      · rw [hkept.unique hpasses.longest] at hnext
        exact absurd hnext.length_le (by simp)
  | stopped hlongest hinitial hitem hnext =>
    rename_i kept next
    rw [hrender] at hitem
    rw [hnext]
    have hmore : offset < descendants.length := by
      have hle := hinitial.length_le
      rw [List.length_append, List.length_singleton] at hle
      omega
    constructor
    · intro hfits
      refine ⟨fun hend => absurd hend (by omega), fun other otherNext hother hotherNext otherItem hotherItem => ?_⟩
      cases hother.unique hlongest
      have hsame : otherNext = next := by
        have hinit := List.prefix_of_prefix_length_le hotherNext hinitial (by simp)
        simpa using hinit
      subst hsame
      cases hotherItem.symm.trans hitem.symm
      exact hfits
    · intro hroomy
      exact hroomy.stopped kept next hlongest hinitial item hitem.symm

end Subtree

section Reads

variable {services : Services}

/-- What a read answers leaves room for what it has to say of what it leaves out. -/
def RoomyFor (services : Services) (threadId : Text) (base : ReadBase) : Selector → Prop
  | .overview => True
  | .recent limit before => ∀ draft, draftRecent services threadId base limit before = .ok draft → draft.Roomy services
  | .relevant query limit before =>
    ∀ draft, draftRelevant services threadId base query limit before = .ok draft → draft.Roomy services
  | .subtree subagentId before offset =>
    ∀ page turn root units, services.entries threadId before 200 = .ok page → rootOf page.items subagentId = some (turn, root) →
      services.units turn.id = .ok units →
      SubtreeRoomy services base turn root subagentId (descendantsOf subagentId (units.getD [root])) subagentId before
        (min (offset.getD 0) (descendantsOf subagentId (units.getD [root])).length)

def Roomy (services : Services) (input : ReadInput) : Prop :=
  ∀ thread, services.thread input.threadId = .ok (some thread) →
    RoomyFor services input.threadId ⟨input.threadId, thread.title, input.selector, none⟩ input.selector

theorem olderOmissions_length (hasOlder : Bool) (continuation : Option Selector) :
    (olderOmissions hasOlder continuation).length ≤ 1 := by
  cases continuation with
  | none => exact Nat.zero_le 1
  | some continuation =>
    cases hasOlder with
    | false => exact Nat.zero_le 1
    | true => exact le_rfl

variable {threadId : Text} {base : ReadBase} {limit : Option Finite} {draft : Draft} {before : Option TranscriptCursor}
    {response : ReadSuccess}

theorem draftRecent_omissions {before : Option TurnCursor}
    (h : draftRecent services threadId base limit before = .ok draft) : draft.omissions.length ≤ 1 := by
  rw [draftRecent] at h
  obtain ⟨size, -, h⟩ := bind_eq_ok.mp h
  obtain ⟨page, -, h⟩ := bind_eq_ok.mp h
  obtain ⟨candidates, -, h⟩ := bind_eq_ok.mp h
  cases h
  exact olderOmissions_length _ _

theorem draftRelevant_omissions {query : Text}
    (h : draftRelevant services threadId base query limit before = .ok draft) : draft.omissions.length ≤ 1 := by
  rw [draftRelevant] at h
  obtain ⟨size, -, h⟩ := bind_eq_ok.mp h
  obtain ⟨page, -, h⟩ := bind_eq_ok.mp h
  obtain ⟨candidates, -, h⟩ := bind_eq_ok.mp h
  cases h
  exact olderOmissions_length _ _

/-- The response without items and with one omission, with each that it could have. -/
def BareFits (services : Services) (response : ReadSuccess) : Prop :=
  ∀ omission ∈ response.omissions ++ [budgetOmission response.toReadBase],
    fits services transcriptBudget (respond response.toReadBase [] [omission]) = true

theorem Draft.bare (h : BareFits services (draft.response services)) :
    ∀ omission ∈ draft.omissions ++ [budgetOmission draft.base],
      fits services transcriptBudget (respond draft.base [] [omission]) = true := by
  intro omission homission
  refine h omission ?_
  rw [List.mem_append] at homission ⊢
  rcases homission with homission | homission
  · refine .inl ?_
    simp only [Draft.response, encodeBounded, respond]
    split
    · exact List.mem_append_left _ homission
    · exact homission
  · exact .inr homission

theorem Draft.response_roomy {read : Except ReadError Draft}
    (homissions : ∀ draft, read = .ok draft → draft.omissions.length ≤ 1)
    (h : read.map (·.response services) = .ok response) (hbare : BareFits services response) :
    fits services transcriptBudget response = true ↔ ∀ draft, read = .ok draft → draft.Roomy services := by
  cases read with
  | error e => cases h
  | ok draft =>
    cases h
    rw [Draft.response_fits (homissions draft rfl) (Draft.bare hbare)]
    constructor
    · intro hroomy other hother
      cases hother
      exact hroomy
    · intro hroomy
      exact hroomy draft rfl

theorem encodeBounded_nil (base : ReadBase) (omissions : List Omission) :
    encodeBounded services base [] omissions = respond base [] omissions := rfl

theorem readSubtree_fits {subagentId : Text} {offset : Option Nat}
    (h : readSubtree services threadId base subagentId before offset = .ok response)
    (hbare : BareFits services response) :
    fits services transcriptBudget response = true ↔ RoomyFor services threadId base (.subtree subagentId before offset) := by
  rw [readSubtree] at h
  obtain ⟨page, hpage, h⟩ := bind_eq_ok.mp h
  cases hroot : rootOf page.items subagentId with
  | none =>
    rw [hroot] at h
    cases h
    refine iff_of_true ?_ fun other turn root units hother hfound => ?_
    · exact hbare _ (by simp [encodeBounded_nil, respond])
    · cases hother.symm.trans hpage
      cases hroot.symm.trans hfound
  | some found =>
    obtain ⟨turn, root⟩ := found
    rw [hroot] at h
    obtain ⟨units, hunits, h⟩ := bind_eq_ok.mp h
    rw [selectSubtree_fits (min_le_right _ _) h]
    constructor
    · intro hroomy other otherTurn otherRoot otherUnits hother hfound hotherUnits
      cases hother.symm.trans hpage
      cases hroot.symm.trans hfound
      cases hotherUnits.symm.trans hunits
      exact hroomy
    · intro hroomy
      exact hroomy page turn root units hpage hroot hunits

theorem respondTo_fits (h : respondTo services threadId base = .ok response) (hbare : BareFits services response) :
    fits services transcriptBudget response = true ↔ RoomyFor services threadId base base.selector := by
  unfold respondTo at h
  cases hselector : base.selector with
  | overview =>
    rw [hselector] at h
    cases h
    exact iff_of_true (fits_without (hbare (budgetOmission base) (by simp [encodeBounded_nil, respond]))) trivial
  | recent limit before =>
    rw [hselector] at h
    exact Draft.response_roomy (fun _ => draftRecent_omissions) h hbare
  | relevant query limit before =>
    rw [hselector] at h
    exact Draft.response_roomy (fun _ => draftRelevant_omissions) h hbare
  | subtree subagentId before offset =>
    rw [hselector] at h
    exact readSubtree_fits h hbare

/-- What a read returns fits the budget just where it leaves room for the omission it ends with. -/
theorem read_fits {input : ReadInput} {response : ReadSuccess} (h : read services input = .ok response)
    (hbare : BareFits services response) : fits services transcriptBudget response = true ↔ Roomy services input := by
  rw [read] at h
  split at h
  · cases h
  · obtain ⟨found, hfound, h⟩ := bind_eq_ok.mp h
    cases found with
    | none => cases h
    | some thread =>
      dsimp only at h
      split at h
      · cases h
      · split at h
        · cases h
        · rw [respondTo_fits h hbare]
          constructor
          · intro hroomy other hother
            cases hother.symm.trans hfound
            exact hroomy
          · intro hroomy
            exact hroomy thread hfound

def cardServices (summary : Text) : Services where
  workspace := [119]
  thread := fun _ => .ok (some ⟨[119], [116], false⟩)
  turns := fun _ _ _ => .ok ⟨[], false, none⟩
  entries := fun _ _ _ => .ok ⟨[(⟨[97], true, 0, [100]⟩, ⟨none, .subagentCard [115] summary []⟩)], false, none⟩
  units := fun _ => .ok (some [⟨none, .subagentCard [115] summary []⟩])
  numberText := fun _ => [48]
  iso := fun _ => utf16 "1970-01-01T00:00:00.000Z"
  trim := id
  toLocaleLowerCase := id

def cardInput : ReadInput := ⟨[120], false, .subtree [115] none none⟩

def cardResponse (text : Text) : ReadSuccess :=
  respond ⟨[120], [116], cardInput.selector, none⟩
    [⟨[97], utf16 "human", utf16 "1970-01-01T00:00:00.000Z", [100], [.mk .child text (some [115]) []]⟩] []

theorem read_card (unit : UInt16) (rest : Text) :
    read (cardServices (unit :: rest)) cardInput = .ok (cardResponse (safeText (unit :: rest) 8000)) := rfl

theorem card_bare (summary text : Text) : BareFits (cardServices summary) (cardResponse text) := by
  intro omission homission
  obtain rfl := List.mem_singleton.mp homission
  have hfits : fits (cardServices []) transcriptBudget
      (respond ⟨[120], [116], cardInput.selector, none⟩ [] [budgetOmission ⟨[120], [116], cardInput.selector, none⟩]) = true := by
    decide +kernel
  exact hfits

theorem read_fits_card : fits (cardServices [111]) transcriptBudget (cardResponse [111]) = true ↔
    Roomy (cardServices [111]) cardInput :=
  read_fits (read_card 111 []) (card_bare [111] [111])

theorem codePoints_replicate (count : Nat) : codePoints (List.replicate count 1) = List.replicate count [1] := by
  induction count with
  | zero => rfl
  | succ count ih =>
    cases count with
    | zero => rfl
    | succ count =>
      have hhigh : (SessionContext.isHigh 1 && SessionContext.isLow 1) = false := by decide
      rw [List.replicate_succ, List.replicate_succ, codePoints, if_neg (by rw [hhigh]; decide), ← List.replicate_succ, ih]
      rfl

theorem length_escapeUnits_replicate (count : Nat) : (escapeUnits (List.replicate count 1)).length = count * 6 := by
  induction count with
  | zero => rfl
  | succ count ih =>
    cases count with
    | zero => decide
    | succ count =>
      have hhigh : (SessionContext.isHigh 1 && SessionContext.isLow 1) = false := by decide
      have hescape : (escapeUnit 1).length = 6 := by decide
      rw [List.replicate_succ, List.replicate_succ, escapeUnits, if_neg (by rw [hhigh]; decide), ← List.replicate_succ,
        List.length_append, ih, hescape]
      omega

theorem length_card (services : Services) (text : Text) :
    (escapeUnits text).length ≤ (encodeJson services (cardResponse text)).length := by
  let message : Message := .mk .child text (some [115]) []
  let shown : ReadItem := ⟨[97], utf16 "human", utf16 "1970-01-01T00:00:00.000Z", [100], [message]⟩
  have htext : (stringifyText text).length ≤ (encodeMessage message).length := by
    simp only [message, encodeMessage]
    exact length_le_object "text" (by simp)
  have hmessage : (encodeMessage message).length ≤ (array (encodeMessages [message])).length :=
    length_le_array (List.mem_singleton.mpr rfl)
  have hmessages : (array (encodeMessages [message])).length ≤ (encodeItem shown).length :=
    length_le_object "messages" (by simp [shown])
  have hitem : (encodeItem shown).length ≤ (array ([shown].map encodeItem)).length :=
    length_le_array (List.mem_singleton.mpr rfl)
  have hitems : (array ([shown].map encodeItem)).length ≤ (encodeJson services (cardResponse text)).length :=
    length_le_object "items" (by simp [shown, message, cardResponse, respond])
  have hquotes : (escapeUnits text).length ≤ (stringifyText text).length := by
    simp only [stringifyText, List.length_append, List.length_cons]
    omega
  omega

theorem safeText_replicate (count limit : Nat) (h : count ≤ limit) : safeText (List.replicate count 1) limit = List.replicate count 1 := by
  rw [safeText, codePoints_replicate, List.take_replicate, min_eq_right h]
  simp

/-- A card of 8000 control characters is six times as long in the response. -/
theorem card_over_budget : read (cardServices (List.replicate 8000 1)) cardInput = .ok (cardResponse (List.replicate 8000 1)) ∧
    BareFits (cardServices (List.replicate 8000 1)) (cardResponse (List.replicate 8000 1)) ∧
    fits (cardServices (List.replicate 8000 1)) transcriptBudget (cardResponse (List.replicate 8000 1)) = false := by
  refine ⟨?_, card_bare _ _, ?_⟩
  · have hread := read_card 1 (List.replicate 7999 1)
    rwa [← List.replicate_succ, safeText_replicate _ _ le_rfl] at hread
  · have hlength := length_card (cardServices (List.replicate 8000 1)) (List.replicate 8000 1)
    rw [length_escapeUnits_replicate] at hlength
    rw [fits, decide_eq_false_iff_not, transcriptBudget]
    omega

end Reads

end Rika.ThreadRead
