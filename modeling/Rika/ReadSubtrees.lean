import Rika.ReadBudget

namespace Rika.ThreadRead

open Fold (bind_eq_ok)

inductive Descends (units : List TranscriptUnit) (rootParentId : Text) : TranscriptUnit → Prop
  | held {unit : TranscriptUnit} : unit ∈ units → unit.parentId = some rootParentId → Descends units rootParentId unit
  | deeper {parent unit : TranscriptUnit} : Descends units rootParentId parent → unit ∈ units → Holds parent unit →
      Descends units rootParentId unit

section Descendants

variable {units : List TranscriptUnit} {rootParentId : Text}

variable {unit : TranscriptUnit} {earlier later : List TranscriptUnit} {parentIds : List Text}

theorem Descends.mem (h : Descends units rootParentId unit) : unit ∈ units := by
  cases h with
  | held hmem _ => exact hmem
  | deeper _ hmem _ => exact hmem

variable (units rootParentId) in
open Classical in
noncomputable def unitsBelow : List TranscriptUnit := units.filter fun unit => Descends units rootParentId unit

theorem mem_unitsBelow : unit ∈ unitsBelow units rootParentId ↔ Descends units rootParentId unit := by
  classical
  rw [unitsBelow, List.mem_filter, decide_eq_true_iff]
  exact ⟨fun hunit => hunit.2, fun hunit => ⟨hunit.mem, hunit⟩⟩

/-- The ids that the loop of `descendantsOf` has after some units. -/
def KnownIds (units : List TranscriptUnit) (rootParentId : Text) (earlier : List TranscriptUnit) (parentIds : List Text) : Prop :=
  ∀ parentId, parentId ∈ parentIds ↔ parentId = rootParentId ∨
    ∃ parent ∈ earlier, Descends units rootParentId parent ∧ ∃ link, childLink parent = some link ∧ link.parentId = parentId

open Classical in
theorem mem_earlier (h : ParentsFirst (unitsBelow units rootParentId))
    {parent : TranscriptUnit} (hunits : units = earlier ++ unit :: later) (hunit : Descends units rootParentId unit)
    (hparent : Descends units rootParentId parent) (hholds : Holds parent unit) : parent ∈ earlier := by
  have hbelow : unitsBelow units rootParentId = (earlier.filter fun other => Descends units rootParentId other) ++
      unit :: later.filter fun other => Descends units rootParentId other := by
    rw [unitsBelow]
    conv_lhs => arg 2; rw [hunits]
    rw [List.filter_append, List.filter_cons_of_pos (by simpa using hunit)]
  have hforward := h.forward
  have hmem := mem_unitsBelow.mpr hparent
  rw [hbelow] at hforward hmem
  rcases List.mem_append.mp hmem with hearlier | hmem
  · exact List.mem_of_mem_filter hearlier
  · rcases List.mem_cons.mp hmem with rfl | hlater
    · exact absurd hholds (h.irreflexive parent (mem_unitsBelow.mpr hunit))
    · exact absurd hholds (List.rel_of_pairwise_cons (List.pairwise_append.mp hforward).2.1 hlater)

theorem descends_iff (h : ParentsFirst (unitsBelow units rootParentId)) (hunits : units = earlier ++ unit :: later)
    (hknown : KnownIds units rootParentId earlier parentIds) :
    Descends units rootParentId unit ↔ ∃ parentId ∈ parentIds, unit.parentId = some parentId := by
  have hmem : unit ∈ units := by rw [hunits]; simp
  constructor
  · intro hdescends
    cases hdescends with
    | held _ hparent => exact ⟨rootParentId, (hknown rootParentId).mpr (.inl rfl), hparent⟩
    | @deeper parent _ hparent _ hholds =>
      have hearlier := mem_earlier h hunits (.deeper hparent hmem hholds) hparent hholds
      obtain ⟨link, hlink, hparentId⟩ := hholds
      exact ⟨link.parentId, (hknown link.parentId).mpr (.inr ⟨parent, hearlier, hparent, link, hlink, rfl⟩), hparentId⟩
  · intro hparent
    obtain ⟨parentId, hid, hparentId⟩ := hparent
    rcases (hknown parentId).mp hid with rfl | ⟨parent, -, hdescends, link, hlink, rfl⟩
    · exact .held hmem hparentId
    · exact .deeper hdescends hmem ⟨link, hlink, hparentId⟩

theorem KnownIds.next {earlier : List TranscriptUnit} {unit : TranscriptUnit} {parentIds : List Text}
    (h : KnownIds units rootParentId earlier parentIds) (hunit : Descends units rootParentId unit) :
    KnownIds units rootParentId (earlier ++ [unit]) (((childLink unit).map (·.parentId)).toList ++ parentIds) := by
  intro parentId
  simp only [List.mem_append, Option.mem_toList, Option.map_eq_some_iff, h parentId, List.mem_singleton]
  constructor
  · intro hid
    rcases hid with ⟨link, hlink, hparent⟩ | hroot | ⟨parent, hparent, hdescends⟩
    · exact .inr ⟨unit, .inr rfl, hunit, link, hlink, hparent⟩
    · exact .inl hroot
    · exact .inr ⟨parent, .inl hparent, hdescends⟩
  · intro hid
    rcases hid with hroot | ⟨parent, hparent | rfl, hdescends, hlink⟩
    · exact .inr (.inl hroot)
    · exact .inr (.inr ⟨parent, hparent, hdescends, hlink⟩)
    · exact .inl hlink

theorem KnownIds.skip (h : KnownIds units rootParentId earlier parentIds) (hunit : ¬ Descends units rootParentId unit) :
    KnownIds units rootParentId (earlier ++ [unit]) parentIds := by
  intro parentId
  rw [h parentId]
  simp only [List.mem_append, List.mem_singleton]
  constructor
  · intro hid
    rcases hid with hroot | ⟨parent, hparent, hdescends⟩
    · exact .inl hroot
    · exact .inr ⟨parent, .inl hparent, hdescends⟩
  · intro hid
    rcases hid with hroot | ⟨parent, hparent | rfl, hdescends, hlink⟩
    · exact .inl hroot
    · exact .inr ⟨parent, hparent, hdescends, hlink⟩
    · exact absurd hdescends hunit

open Classical in
theorem descendantsFrom_eq (h : ParentsFirst (unitsBelow units rootParentId)) (hunits : units = earlier ++ later)
    (hknown : KnownIds units rootParentId earlier parentIds) :
    descendantsFrom parentIds later = later.filter fun unit => Descends units rootParentId unit := by
  induction later generalizing earlier parentIds with
  | nil => rfl
  | cons unit later ih =>
    have hiff := descends_iff h hunits hknown
    have hrest : units = (earlier ++ [unit]) ++ later := by rw [hunits, List.append_assoc]; rfl
    rw [descendantsFrom]
    by_cases hunit : Descends units rootParentId unit
    · obtain ⟨parentId, hid, hparentId⟩ := hiff.mp hunit
      rw [List.filter_cons_of_pos (by simpa using hunit), hparentId]
      simp only [hid, if_true]
      rw [ih hrest (hknown.next hunit)]
    · rw [List.filter_cons_of_neg (by simpa using hunit), ← ih hrest (hknown.skip hunit)]
      cases hparentId : unit.parentId with
      | none => rfl
      | some parentId =>
        have hid : parentId ∉ parentIds := fun hid => hunit (hiff.mpr ⟨parentId, hid, hparentId⟩)
        simp only [hid, if_false]

theorem descendantsOf_eq (h : ParentsFirst (unitsBelow units rootParentId)) :
    descendantsOf rootParentId units = unitsBelow units rootParentId := by
  refine descendantsFrom_eq h (List.nil_append units).symm fun parentId => ?_
  simp

end Descendants

section Ancestors

variable {units descendants : List TranscriptUnit} {rootParentId : Text} {root unit : TranscriptUnit} {rank : TranscriptUnit → Nat}

theorem mem_chosen {selected : Selection} : unit ∈ chosen descendants selected ↔ ∃ position ∈ selected, descendants[position]? = some unit := by
  simp only [chosen, List.mem_map, List.mem_filter, decide_eq_true_eq, Prod.exists, List.mem_zipIdx_iff_getElem?, exists_and_right,
    exists_eq_right]
  exact exists_congr fun position => and_comm

theorem exists_ancestorByParent {parent : TranscriptUnit} {link : ChildLink} (hparent : parent ∈ descendants)
    (hlink : childLink parent = some link) : ∃ position found, ancestorByParent descendants link.parentId = some (position, found) ∧
      descendants[position]? = some found ∧ ∃ other, childLink found = some other ∧ other.parentId = link.parentId := by
  obtain ⟨index, hindex⟩ := List.mem_iff_getElem?.mp hparent
  cases hfound : ancestorByParent descendants link.parentId with
  | none =>
    rw [ancestorByParent, List.findSome?_eq_none_iff] at hfound
    have hnone := hfound (parent, index) (List.mem_reverse.mpr (List.mem_zipIdx_iff_getElem?.mpr hindex))
    simp [hlink] at hnone
  | some found =>
    obtain ⟨⟨other, position⟩, hmem, hother⟩ := List.exists_of_findSome?_eq_some hfound
    have hget := List.mem_zipIdx_iff_getElem?.mp (List.mem_reverse.mp hmem)
    obtain ⟨otherLink, hotherLink, hsome⟩ := Option.bind_eq_some_iff.mp hother
    split at hsome
    · rename_i hid
      cases hsome
      exact ⟨position, other, rfl, hget, otherLink, hotherLink, hid⟩
    · cases hsome

structure Subtree (units : List TranscriptUnit) (rank : TranscriptUnit → Nat) (root : TranscriptUnit) (rootParentId : Text)
    (descendants : List TranscriptUnit) : Prop where
  layered : Layered rank units
  rootMem : root ∈ units
  mem : ∀ unit ∈ descendants, unit ∈ units
  card : ∃ link, childLink root = some link ∧ link.parentId = rootParentId
  held : ∀ unit ∈ descendants, unit.parentId = some rootParentId ∨ ∃ parent ∈ descendants, Holds parent unit

theorem ParentsFirst.subtree (h : ParentsFirst (root :: unitsBelow units rootParentId))
    (hcard : ∃ link, childLink root = some link ∧ link.parentId = rootParentId) :
    ∃ rank, Subtree (root :: unitsBelow units rootParentId) rank root rootParentId (unitsBelow units rootParentId) := by
  obtain ⟨rank, hrank⟩ := h.layered
  refine ⟨rank, hrank, List.mem_cons_self, fun unit hunit => List.mem_cons_of_mem root hunit, hcard, fun unit hunit => ?_⟩
  cases mem_unitsBelow.mp hunit with
  | held _ hparent => exact .inl hparent
  | @deeper parent _ hparent _ hholds => exact .inr ⟨parent, mem_unitsBelow.mpr hparent, hholds⟩

def Leads (root : TranscriptUnit) (descendants : List TranscriptUnit) (unit : TranscriptUnit) (ancestors : Selection) : Prop :=
  ∀ selected, (∀ position ∈ ancestors, position ∈ selected) → unit ∈ chosen descendants selected →
    Relation.ReflTransGen (HoldsIn (root :: chosen descendants selected)) root unit

theorem exists_ancestors (h : Subtree units rank root rootParentId descendants) {depth : Nat} (hunit : unit ∈ descendants)
    (hdepth : above rank descendants unit < depth) :
    ∃ ancestors, ancestorsWithin descendants rootParentId depth unit.parentId = .ok ancestors ∧ Leads root descendants unit ancestors := by
  induction depth generalizing unit with
  | zero => omega
  | succ depth ih =>
    obtain ⟨rootLink, hrootLink, hrootId⟩ := h.card
    by_cases htop : unit.parentId = some rootParentId
    · refine ⟨[], by rw [htop, ancestorsWithin, if_pos rfl], fun selected _ hchosen => ?_⟩
      exact .single ⟨List.mem_cons_of_mem root hchosen, rootLink, hrootLink, by rw [htop, hrootId]⟩
    · obtain ⟨parent, hparent, link, hlink, hparentId⟩ := (h.held unit hunit).resolve_left htop
      obtain ⟨position, found, hfound, hget, other, hother, hid⟩ := exists_ancestorByParent hparent hlink
      have hfoundMem : found ∈ descendants := List.mem_of_getElem? hget
      have hholds : Holds found unit := ⟨other, hother, by rw [hparentId, hid]⟩
      have hrank := h.layered found (h.mem found hfoundMem) unit (h.mem unit hunit) hholds
      have habove := above_lt hfoundMem hrank
      obtain ⟨rest, hrest, hleads⟩ := ih hfoundMem (by omega)
      have hne : link.parentId ≠ rootParentId := by
        intro heq
        rw [hparentId, heq] at htop
        exact htop rfl
      refine ⟨position :: rest, ?_, fun selected hselected hchosen => ?_⟩
      · rw [hparentId, ancestorsWithin, if_neg hne, hfound]
        simp only [hrest]
        rfl
      · obtain ⟨hposition, hothers⟩ := List.forall_mem_cons.mp hselected
        have hfoundChosen : found ∈ chosen descendants selected := mem_chosen.mpr ⟨position, hposition, hget⟩
        exact (hleads selected hothers hfoundChosen).tail ⟨List.mem_cons_of_mem root hchosen, hholds⟩

end Ancestors

section Shown

variable {services : Services} {turn : Turn} {units descendants : List TranscriptUnit} {rootParentId : Text} {root : TranscriptUnit}
  {rank : TranscriptUnit → Nat}

/-- An item has the message of a unit of a turn, its text shortened to 4000 code points at most. -/
def Shows (item : ReadItem) (turn : Turn) (unit : TranscriptUnit) : Prop :=
  item.turnId = turn.id ∧ ∀ role text subagentId, heading unit = some (role, text, subagentId) →
    ∃ limit, 4000 ≤ limit ∧ ∃ message ∈ item.messages, Contains role subagentId (safeText text limit) message

def Placed (descendants : List TranscriptUnit) (kept : List (TranscriptUnit × Nat)) : Prop :=
  ∀ entry ∈ kept, descendants[entry.2]? = some entry.1

variable {kept : List (TranscriptUnit × Nat)} {unit : TranscriptUnit} {item : ReadItem} {offset : Nat} {selection : Selected}

section

variable (h : Subtree units rank root rootParentId descendants)

include h

theorem exists_accumulate
    (hkept : Placed descendants kept) : ∃ selected, accumulate rootParentId descendants kept = .ok selected ∧
      ∀ entry ∈ kept, ∃ ancestors, Leads root descendants entry.1 ancestors ∧ entry.2 ∈ selected ∧
        ∀ position ∈ ancestors, position ∈ selected := by
  induction kept using List.reverseRecOn with
  | nil => exact ⟨[], rfl, nofun⟩
  | append_singleton kept entry ih =>
    obtain ⟨hfirst, hlast⟩ := List.forall_mem_append.mp hkept
    obtain ⟨selected, hselected, hall⟩ := ih hfirst
    have hunit : entry.1 ∈ descendants := List.mem_of_getElem? (hlast entry (List.mem_singleton.mpr rfl))
    have hle : above rank descendants entry.1 ≤ descendants.length := List.countP_le_length
    have hdepth : above rank descendants entry.1 < descendants.length + 2 := by omega
    obtain ⟨ancestors, hancestors, hleads⟩ := exists_ancestors h hunit hdepth
    refine ⟨selected ++ entry.2 :: ancestors, ?_, List.forall_mem_append.mpr ⟨fun other hother => ?_, fun other hother => ?_⟩⟩
    · rw [accumulate_concat, hselected]
      simp only [selectionWithAncestors, hancestors, bind, Except.bind]
      rfl
    · obtain ⟨otherAncestors, hotherLeads, hposition, hpositions⟩ := hall other hother
      exact ⟨otherAncestors, hotherLeads, List.mem_append_left _ hposition,
        fun position hmem => List.mem_append_left _ (hpositions position hmem)⟩
    · obtain rfl := List.mem_singleton.mp hother
      exact ⟨ancestors, hleads, by simp, fun position hmem => by simp [hmem]⟩

theorem exists_subtreeItem (selected : Selection) :
    ∃ item, subtreeItem services turn root (chosen descendants selected) = .ok item := by
  have hall : ∀ unit ∈ root :: chosen descendants selected, unit ∈ units := by
    refine List.forall_mem_cons.mpr ⟨h.rootMem, fun unit hunit => ?_⟩
    obtain ⟨position, -, hget⟩ := mem_chosen.mp hunit
    exact h.mem unit (List.mem_of_getElem? hget)
  obtain ⟨rendered, hrendered⟩ : ∃ rendered, message root (root :: chosen descendants selected) 8000 = .ok rendered :=
    exists_message h.layered hall h.rootMem
  exact ⟨_, by rw [subtreeItem, hrendered]; rfl⟩

theorem exists_renderSelection
    (hkept : Placed descendants kept) : ∃ item, renderSelection services turn root rootParentId descendants kept = .ok item := by
  obtain ⟨selected, hselected, -⟩ := exists_accumulate h hkept
  rw [renderSelection_eq hselected]
  exact exists_subtreeItem h selected

end

theorem subtreeItem_shows {others : List TranscriptUnit} (hitem : subtreeItem services turn root others = .ok item)
    (hway : Relation.ReflTransGen (HoldsIn (root :: others)) root unit) : Shows item turn unit := by
  rw [subtreeItem] at hitem
  obtain ⟨rendered, hrendered, hrest⟩ := bind_eq_ok.mp hitem
  cases hrest
  refine ⟨rfl, fun role text subagentId hheading => ⟨8000, by decide, ?_⟩⟩
  obtain ⟨message, rfl, hcontains⟩ := messageWithin_contains hheading hway hrendered
  exact ⟨message, by simp [itemOf], hcontains⟩

theorem renderSelection_shows (h : Subtree units rank root rootParentId descendants) (hkept : Placed descendants kept)
    (hitem : renderSelection services turn root rootParentId descendants kept = .ok item) {entry : TranscriptUnit × Nat}
    (hentry : entry ∈ kept) : Shows item turn entry.1 := by
  obtain ⟨selected, hselected, hall⟩ := exists_accumulate h hkept
  obtain ⟨ancestors, hleads, hposition, hpositions⟩ := hall entry hentry
  rw [renderSelection_eq hselected] at hitem
  exact subtreeItem_shows hitem (hleads selected hpositions (mem_chosen.mpr ⟨entry.2, hposition, hkept entry hentry⟩))

theorem exists_boundedSubtreeItem (h : Subtree units rank root rootParentId descendants)
    (hunit : unit ∈ descendants) : ∃ item, boundedSubtreeItem services turn root unit = .ok item ∧ Shows item turn unit := by
  obtain ⟨renderedRoot, hroot⟩ : ∃ rendered, message root [root] 4000 = .ok rendered :=
    exists_message h.layered (by simpa using h.rootMem) h.rootMem
  obtain ⟨rendered, hrendered⟩ : ∃ rendered, message unit [unit] 4000 = .ok rendered :=
    exists_message h.layered (by simpa using h.mem unit hunit) (h.mem unit hunit)
  obtain ⟨text, subagentId, children, rfl⟩ : ∃ text subagentId children, renderedRoot = some (.mk .child text subagentId children) := by
    obtain ⟨link, hlink, -⟩ := h.card
    rw [message, messageWithin_card hlink] at hroot
    obtain ⟨children, -, hrest⟩ := bind_eq_ok.mp hroot
    cases hrest
    exact ⟨_, _, _, rfl⟩
  refine ⟨_, by rw [boundedSubtreeItem, hroot, hrendered]; rfl, rfl, fun role text subagentId hheading => ⟨4000, le_rfl, ?_⟩⟩
  obtain ⟨shown, rfl, hcontains⟩ := messageWithin_contains hheading .refl hrendered
  exact ⟨_, List.mem_singleton.mpr rfl, .child (List.mem_singleton.mpr rfl) hcontains⟩

variable {base : ReadBase}

theorem exists_selectFrom (h : Subtree units rank root rootParentId descendants) {candidates : List (TranscriptUnit × Nat)}
    (hcandidates : Placed descendants candidates) (selected : Selection) (nextOffset : Nat) :
    ∃ selection, selectFrom services base turn root rootParentId descendants candidates selected nextOffset = .ok selection := by
  induction candidates generalizing selected nextOffset with
  | nil => exact ⟨_, rfl⟩
  | cons entry candidates ih =>
    obtain ⟨candidate, position⟩ := entry
    obtain ⟨hfirst, hrest⟩ := List.forall_mem_cons.mp hcandidates
    have hunit : candidate ∈ descendants := List.mem_of_getElem? hfirst
    have hle : above rank descendants candidate ≤ descendants.length := List.countP_le_length
    have hdepth : above rank descendants candidate < descendants.length + 2 := by omega
    obtain ⟨ancestors, hancestors, -⟩ := exists_ancestors h hunit hdepth
    obtain ⟨rendered, hrendered⟩ : ∃ item,
        subtreeItem services turn root (chosen descendants (selected ++ position :: ancestors)) = .ok item := exists_subtreeItem h _
    obtain ⟨forced, hforced, -⟩ : ∃ item, boundedSubtreeItem services turn root candidate = .ok item ∧ Shows item turn candidate :=
      exists_boundedSubtreeItem h hunit
    have htrial : selectionWithAncestors candidate position selected rootParentId descendants =
        .ok (selected ++ position :: ancestors) := by
      rw [selectionWithAncestors, hancestors]
      rfl
    rw [selectFrom, htrial]
    simp only [bind, Except.bind, hrendered, hforced]
    split
    · exact ih hrest _ _
    · split
      · exact ⟨_, rfl⟩
      · exact ⟨_, rfl⟩

/-- A read of a subtree shows the descendants from its offset to where it says that it goes on. -/
structure Answers (turn : Turn) (descendants : List TranscriptUnit) (subagentId : Text)
    (before : Option TranscriptCursor) (offset : Nat) (response : ReadSuccess) (nextOffset : Nat) : Prop where
  omissions : response.omissions = offsetOmissions subagentId before nextOffset descendants.length
  le : offset ≤ nextOffset
  forward : offset < descendants.length → offset < nextOffset
  shows : ∀ position unit, offset ≤ position → position < nextOffset → descendants[position]? = some unit →
    ∃ item ∈ response.items, Shows item turn unit

theorem placed_drop (offset : Nat) : Placed descendants (descendants.zipIdx.drop offset) := by
  intro entry hentry
  exact List.mem_zipIdx_iff_getElem?.mp (List.mem_of_mem_drop hentry)

theorem mem_initial {position : Nat}
    (hkept : kept <+: descendants.zipIdx.drop offset) (hle : offset ≤ position) (hlt : position < offset + kept.length)
    (hget : descendants[position]? = some unit) : (unit, position) ∈ kept := by
  have hindex : position - offset < kept.length := by omega
  have hfound : (descendants.zipIdx.drop offset)[position - offset]? = some (unit, position) := by
    rw [List.getElem?_drop, List.getElem?_zipIdx]
    have hposition : offset + (position - offset) = position := by omega
    simp [hposition, hget]
  obtain ⟨rest, hrest⟩ := hkept
  rw [← hrest, List.getElem?_append_left hindex] at hfound
  exact List.mem_of_getElem? hfound

theorem exists_stoppedItem (h : Subtree units rank root rootParentId descendants)
    {next : TranscriptUnit × Nat} (hinitial : kept ++ [next] <+: descendants.zipIdx.drop offset) :
    ∃ item, stoppedItem services turn root rootParentId descendants kept next.1 = .ok item ∧
      ∀ position unit, offset ≤ position → position < stoppedOffset offset kept → descendants[position]? = some unit →
        Shows item turn unit := by
  have hplaced : Placed descendants (kept ++ [next]) := fun entry hentry => placed_drop offset entry (hinitial.subset hentry)
  obtain ⟨hkept, hnext⟩ := List.forall_mem_append.mp hplaced
  by_cases hempty : kept = []
  · subst hempty
    obtain ⟨item, hitem, hshows⟩ : ∃ item, boundedSubtreeItem services turn root next.1 = .ok item ∧ Shows item turn next.1 :=
      exists_boundedSubtreeItem h (List.mem_of_getElem? (hnext next (List.mem_singleton.mpr rfl)))
    refine ⟨item, by rw [stoppedItem, if_pos rfl, hitem], fun position unit hle hlt hget => ?_⟩
    have hfirst := mem_initial hinitial hle (by simpa [stoppedOffset] using hlt) hget
    rw [List.nil_append, List.mem_singleton] at hfirst
    rw [← hfirst] at hshows
    exact hshows
  · obtain ⟨item, hitem⟩ : ∃ item, renderSelection services turn root rootParentId descendants kept = .ok item :=
      exists_renderSelection h hkept
    refine ⟨item, by rw [stoppedItem, if_neg hempty, hitem], fun position unit hle hlt hget => ?_⟩
    rw [stoppedOffset, max_eq_right (List.length_pos_iff.mpr hempty)] at hlt
    have hkeptInitial : kept <+: descendants.zipIdx.drop offset := (List.prefix_append kept [next]).trans hinitial
    exact renderSelection_shows h hkept hitem (mem_initial hkeptInitial hle hlt hget)

theorem Selects.exists_item (h : Subtree units rank root rootParentId descendants)
    (hselects : Selects services base turn root rootParentId descendants offset (descendants.zipIdx.drop offset) selection) :
    ∃ item, selection.render services turn root descendants = .ok item ∧
      ∀ position unit, offset ≤ position → position < selection.nextOffset → descendants[position]? = some unit →
        Shows item turn unit := by
  cases hselects with
  | all _ hrender hnext =>
    obtain ⟨item, hitem⟩ : ∃ item, renderSelection services turn root rootParentId descendants (descendants.zipIdx.drop offset) = .ok item :=
      exists_renderSelection h (placed_drop offset)
    refine ⟨item, hrender.trans hitem, fun position unit hle hlt hget => ?_⟩
    rw [hnext] at hlt
    exact renderSelection_shows h (placed_drop offset) hitem (mem_initial List.prefix_rfl hle hlt hget)
  | @stopped kept next _ hinitial hrender hnext =>
    obtain ⟨item, hitem, hshows⟩ : ∃ item, stoppedItem services turn root rootParentId descendants kept next.1 = .ok item ∧
        ∀ position unit, offset ≤ position → position < stoppedOffset offset kept → descendants[position]? = some unit →
          Shows item turn unit := exists_stoppedItem h hinitial
    rw [hnext]
    exact ⟨item, hrender.trans hitem, hshows⟩

theorem Selects.le
    (hselects : Selects services base turn root rootParentId descendants offset (descendants.zipIdx.drop offset) selection) :
    offset ≤ selection.nextOffset := by
  cases hselects with
  | all _ _ hnext | stopped _ _ _ hnext => exact hnext ▸ Nat.le_add_right offset _

theorem Selects.forward
    (hselects : Selects services base turn root rootParentId descendants offset (descendants.zipIdx.drop offset) selection)
    (hoffset : offset < descendants.length) : offset < selection.nextOffset := by
  cases hselects with
  | all _ _ hnext =>
    rw [hnext, List.length_drop, List.length_zipIdx]
    omega
  | stopped _ _ _ hnext =>
    rw [hnext, stoppedOffset]
    omega

theorem exists_selectSubtree (h : Subtree units rank root rootParentId descendants) (subagentId : Text)
    (before : Option TranscriptCursor) (offset : Nat) :
    ∃ response nextOffset, selectSubtree services base subagentId before turn root rootParentId descendants offset = .ok response ∧
      Answers turn descendants subagentId before offset response nextOffset := by
  obtain ⟨selection, hselection⟩ : ∃ selection, selectFrom services base turn root rootParentId descendants
      (descendants.zipIdx.drop offset) [] offset = .ok selection := exists_selectFrom h (placed_drop offset) [] offset
  have hselects : Selects services base turn root rootParentId descendants offset ([] ++ descendants.zipIdx.drop offset) selection :=
    selectFrom_selects rfl rfl LongestPrefix.passes_nil (Nat.add_zero offset).symm hselection
  rw [List.nil_append] at hselects
  obtain ⟨item, hrender, hshows⟩ := hselects.exists_item h
  refine ⟨respond base [item] (offsetOmissions subagentId before selection.nextOffset descendants.length), selection.nextOffset, ?_,
    rfl, hselects.le, hselects.forward, fun position unit hle hlt hget => ?_⟩
  · rw [selectSubtree, hselection]
    simp only [bind, Except.bind, hrender]
    rfl
  · exact ⟨item, List.mem_singleton.mpr rfl, hshows position unit hle hlt hget⟩

end Shown

end Rika.ThreadRead
