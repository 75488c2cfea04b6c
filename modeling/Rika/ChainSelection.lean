import Mathlib.Algebra.Order.BigOperators.Group.Finset

namespace ChainSelection

variable {ι : Type*}

inductive Link (ι : Type*)
  | root
  | missing
  | under (parent : ι)
deriving DecidableEq

theorem Link.root_ne_missing : (root : Link ι) ≠ missing := by
  intro h
  cases h

variable {parent item other : ι} {link : ι → Link ι}

theorem Link.under_ne_missing : under parent ≠ missing := by
  intro h
  cases h

inductive Complete (link : ι → Link ι) : ι → Prop
  | root {item : ι} : link item = .root → Complete link item
  | under {item parent : ι} : link item = .under parent → Complete link parent → Complete link item

inductive Ancestor (link : ι → Link ι) : ι → ι → Prop
  | refl (item : ι) : Ancestor link item item
  | step {item parent other : ι} : link item = .under parent → Ancestor link parent other → Ancestor link item other

theorem Ancestor.trans_under (h : Ancestor link item other)
    (hunder : link other = .under parent) : Ancestor link item parent := by
  induction h with
  | refl item => exact .step hunder (.refl parent)
  | step hlink _ ih => exact .step hlink (ih hunder)

theorem Complete.ancestor (h : Complete link item) (hother : Ancestor link item other) : Complete link other := by
  induction hother with
  | refl item => exact h
  | step hunder _ ih =>
    cases h with
    | root hroot =>
      rw [hroot] at hunder
      cases hunder
    | under hunder' hparent =>
      rw [hunder'] at hunder
      cases hunder
      exact ih hparent

/-- How many ancestors a complete item has above it. -/
inductive Height (link : ι → Link ι) : ι → Nat → Prop
  | root {item : ι} : link item = .root → Height link item 0
  | under {item parent : ι} {height : Nat} : link item = .under parent → Height link parent height → Height link item (height + 1)

section Heights

variable {link : ι → Link ι}

variable {item : ι} {height : Nat} {items : Finset ι}

theorem Complete.exists_height (h : Complete link item) : ∃ height, Height link item height := by
  induction h with
  | root hroot => exact ⟨0, .root hroot⟩
  | under hunder _ ih =>
    obtain ⟨height, hheight⟩ := ih
    exact ⟨height + 1, .under hunder hheight⟩

theorem Height.unique {height' : Nat} (h : Height link item height) (h' : Height link item height') : height = height' := by
  induction h generalizing height' with
  | root hroot =>
    cases h' with
    | root _ => rfl
    | under hunder _ =>
      rw [hroot] at hunder
      cases hunder
  | under hunder _ ih =>
    cases h' with
    | root hroot =>
      rw [hroot] at hunder
      cases hunder
    | under hunder' hparent =>
      rw [hunder] at hunder'
      cases hunder'
      exact congrArg (· + 1) (ih hparent)

theorem Height.exists_below (hitems : ∀ item ∈ items, ∀ parent, link item = .under parent → parent ∈ items)
    (h : Height link item height) (hitem : item ∈ items) :
    ∃ below ⊆ items, below.card = height + 1 ∧ ∀ other ∈ below, ∃ lower ≤ height, Height link other lower := by
  classical
  induction h with
  | @root item hroot =>
    refine ⟨{item}, Finset.singleton_subset_iff.mpr hitem, Finset.card_singleton item, ?_⟩
    intro other hother
    rw [Finset.mem_singleton.mp hother]
    exact ⟨0, Nat.le_refl 0, .root hroot⟩
  | @under item parent height hunder hparent ih =>
    obtain ⟨below, hsubset, hcard, hlower⟩ := ih (hitems item hitem parent hunder)
    have hnew : item ∉ below := by
      intro hmem
      obtain ⟨lower, hle, hheight⟩ := hlower item hmem
      have := hheight.unique (.under hunder hparent)
      omega
    refine ⟨insert item below, Finset.insert_subset hitem hsubset, ?_, ?_⟩
    · rw [Finset.card_insert_of_notMem hnew, hcard]
    · intro other hother
      rcases Finset.mem_insert.mp hother with rfl | hother
      · exact ⟨height + 1, Nat.le_refl _, .under hunder hparent⟩
      · obtain ⟨lower, hle, hheight⟩ := hlower other hother
        exact ⟨lower, Nat.le_succ_of_le hle, hheight⟩

theorem Height.lt_card (hitems : ∀ item ∈ items, ∀ parent, link item = .under parent → parent ∈ items)
    (h : Height link item height) (hitem : item ∈ items) : height < items.card := by
  obtain ⟨below, hsubset, hcard, -⟩ := h.exists_below hitems hitem
  have := Finset.card_le_card hsubset
  omega

end Heights

/-- How items are selected: `lead` is what has to come with an item besides its ancestors. -/
structure Forest (ι : Type*) where
  link : ι → Link ι
  lead : ι → Option ι
  size : ι → Nat
  maximumItems : Nat
  maximumSize : Nat

structure Selection (ι : Type*) where
  selected : Finset ι
  size : Nat

namespace Forest

variable (forest : Forest ι)

structure Led : Prop where
  root {item lead : ι} : forest.lead item = some lead → forest.link lead = .root
  self {item lead : ι} : forest.lead item = some lead → forest.lead lead = some lead
  under {item parent : ι} : forest.link item = .under parent → forest.lead parent = forest.lead item

variable [DecidableEq ι]

/-- Ancestors up to a selected one, or none where one is missing or comes twice. -/
def climb (selected : Finset ι) : Nat → Finset ι → ι → Option (Finset ι)
  | 0, _, _ => none
  | fuel + 1, seen, current =>
    if current ∈ selected then some seen
    else if current ∈ seen then none
    else
      match forest.link current with
      | .root => some (insert current seen)
      | .missing => none
      | .under parent => climb selected fuel (insert current seen) parent

def required (fuel : Nat) (selected : Finset ι) (item : ι) : Option (Finset ι) :=
  (forest.climb selected fuel ∅ item).map ((forest.lead item).toFinset \ selected ∪ ·)

def addItem (fuel : Nat) (selection : Selection ι) (item : ι) : Selection ι :=
  if item ∈ selection.selected then selection
  else
    match forest.required fuel selection.selected item with
    | none => selection
    | some needed =>
      let added := ∑ candidate ∈ needed, forest.size candidate
      if selection.selected.card + needed.card > forest.maximumItems ∨ selection.size + added > forest.maximumSize then selection
      else ⟨selection.selected ∪ needed, selection.size + added⟩

def select (fuel overhead : Nat) (items : List ι) : Selection ι := items.foldl (forest.addItem fuel) ⟨∅, overhead⟩

variable {forest}

def Rooted (forest : Forest ι) (items above : Finset ι) : Prop :=
  ∀ item ∈ items, forest.link item ≠ .missing ∧ ∀ parent, forest.link item = .under parent → parent ∈ above

/-- Sets with the ancestors and the leads of their items. -/
structure Closed (forest : Forest ι) (selected : Finset ι) : Prop where
  rooted : forest.Rooted selected selected
  leads : ∀ item ∈ selected, ∀ lead, forest.lead item = some lead → lead ∈ selected

omit [DecidableEq ι] in
theorem Rooted.mono {items above above' : Finset ι} (h : forest.Rooted items above) (habove : above ⊆ above') :
    forest.Rooted items above' :=
  fun item hitem => ⟨(h item hitem).1, fun parent hparent => habove ((h item hitem).2 parent hparent)⟩

variable {items above : Finset ι}

theorem Rooted.union {items' : Finset ι} (h : forest.Rooted items above) (h' : forest.Rooted items' above) :
    forest.Rooted (items ∪ items') above := by
  intro item hitem
  rcases Finset.mem_union.mp hitem with hitem | hitem
  · exact h item hitem
  · exact h' item hitem

theorem Rooted.insert {item : ι} (h : forest.Rooted items above)
    (hmissing : forest.link item ≠ .missing) (hunder : ∀ parent, forest.link item = .under parent → parent ∈ above) :
    forest.Rooted (insert item items) above := by
  intro other hother
  rcases Finset.mem_insert.mp hother with rfl | hother
  · exact ⟨hmissing, hunder⟩
  · exact h other hother

section Climbs

variable {selected : Finset ι}

variable {fuel : Nat} {seen chain : Finset ι} {current : ι}

section

variable (h : forest.climb selected fuel seen current = some chain)

include h

theorem climb_rooted (hseen : forest.Rooted seen (insert current seen ∪ selected)) :
    forest.Rooted chain (chain ∪ selected) ∧ (current ∈ chain ∨ current ∈ selected) ∧ seen ⊆ chain := by
  induction fuel generalizing seen current with
  | zero => cases h
  | succ fuel ih =>
    rw [climb] at h
    split at h
    · next hselected =>
        have habove : insert current seen ∪ selected = seen ∪ selected := by
          rw [Finset.insert_union, Finset.insert_eq_of_mem (Finset.mem_union_right _ hselected)]
        rw [habove] at hseen
        cases h
        exact ⟨hseen, .inr hselected, subset_rfl⟩
    · split at h
      · cases h
      · split at h
        · next hroot =>
            cases h
            refine ⟨hseen.insert ?_ ?_, .inl (Finset.mem_insert_self _ _), Finset.subset_insert _ _⟩
            · rw [hroot]
              exact Link.root_ne_missing
            · intro parent hparent
              rw [hroot] at hparent
              cases hparent
        · cases h
        · next parent hunder =>
            have hstep : forest.Rooted (insert current seen) (insert parent (insert current seen) ∪ selected) := by
              refine (hseen.mono ?_).insert ?_ ?_
              · exact Finset.union_subset_union_left (Finset.subset_insert _ _)
              · rw [hunder]
                exact Link.under_ne_missing
              · intro other hother
                rw [hunder] at hother
                cases hother
                exact Finset.mem_union_left _ (Finset.mem_insert_self _ _)
            obtain ⟨hrooted, -, hsub⟩ := ih h hstep
            exact ⟨hrooted, .inl (hsub (Finset.mem_insert_self _ _)), (Finset.subset_insert _ _).trans hsub⟩

theorem climb_forall
    {p : ι → Prop} (hlink : ∀ item parent, p item → forest.link item = .under parent → p parent) (hcurrent : p current)
    (hseen : ∀ item ∈ seen, p item) : ∀ item ∈ chain, p item := by
  induction fuel generalizing seen current with
  | zero => cases h
  | succ fuel ih =>
    have hinsert : ∀ item ∈ insert current seen, p item := by
      intro item hitem
      rcases Finset.mem_insert.mp hitem with rfl | hitem
      · exact hcurrent
      · exact hseen item hitem
    rw [climb] at h
    split at h
    · cases h
      exact hseen
    · split at h
      · cases h
      · split at h
        · cases h
          exact hinsert
        · cases h
        · next parent hunder => exact ih h (hlink current parent hcurrent hunder) hinsert

theorem climb_disjoint (hseen : Disjoint seen selected) : Disjoint chain selected := by
  induction fuel generalizing seen current with
  | zero => cases h
  | succ fuel ih =>
    rw [climb] at h
    split at h
    · cases h
      exact hseen
    · next hselected =>
        have hinsert : Disjoint (insert current seen) selected := Finset.disjoint_insert_left.mpr ⟨hselected, hseen⟩
        split at h
        · cases h
        · split at h
          · cases h
            exact hinsert
          · cases h
          · exact ih h hinsert

end

theorem exists_climb {height : Nat} (h : Height forest.link current height) (hfuel : height < fuel)
    (hseen : ∀ item ∈ seen, ∃ higher > height, Height forest.link item higher) :
    ∃ chain, forest.climb selected fuel seen current = some chain := by
  induction fuel generalizing height seen current with
  | zero => cases hfuel
  | succ fuel ih =>
    rw [climb]
    by_cases hselected : current ∈ selected
    · exact ⟨seen, if_pos hselected⟩
    · have hnew : current ∉ seen := by
        intro hmem
        obtain ⟨higher, hgt, hheight⟩ := hseen current hmem
        have := hheight.unique h
        omega
      rw [if_neg hselected, if_neg hnew]
      cases h with
      | root hroot =>
        rw [hroot]
        exact ⟨_, rfl⟩
      | @under _ parent height hunder hparent =>
        rw [hunder]
        refine ih hparent (Nat.lt_of_succ_lt_succ hfuel) ?_
        intro item hitem
        rcases Finset.mem_insert.mp hitem with rfl | hitem
        · exact ⟨height + 1, Nat.lt_succ_self height, .under hunder hparent⟩
        · obtain ⟨higher, hgt, hheight⟩ := hseen item hitem
          exact ⟨higher, Nat.lt_of_succ_lt hgt, hheight⟩

theorem climb_complete (h : forest.climb selected fuel seen current = some chain)
    (hselected : ∀ item ∈ selected, Complete forest.link item) : Complete forest.link current := by
  induction fuel generalizing seen current with
  | zero => cases h
  | succ fuel ih =>
    rw [climb] at h
    split at h
    · next hmem => exact hselected current hmem
    · split at h
      · cases h
      · split at h
        · next hroot => exact .root hroot
        · cases h
        · next parent hunder => exact .under hunder (ih h)

end Climbs

section Requirements

variable {fuel : Nat} {selected needed : Finset ι} {item : ι}

section

variable (h : forest.required fuel selected item = some needed)

include h

theorem required_disjoint : Disjoint selected needed := by
  obtain ⟨chain, hclimb, rfl⟩ := Option.map_eq_some_iff.mp h
  refine (Finset.disjoint_union_left.mpr ⟨Finset.sdiff_disjoint, ?_⟩).symm
  exact climb_disjoint hclimb (Finset.disjoint_empty_left _)

theorem required_forall {p : ι → Prop}
    (hlink : ∀ item parent, p item → forest.link item = .under parent → p parent)
    (hlead : ∀ item lead, p item → forest.lead item = some lead → p lead) (hitem : p item) : ∀ other ∈ needed, p other := by
  obtain ⟨chain, hclimb, rfl⟩ := Option.map_eq_some_iff.mp h
  intro other hother
  rcases Finset.mem_union.mp hother with hother | hother
  · exact hlead item other hitem (Option.mem_toFinset.mp (Finset.mem_sdiff.mp hother).1)
  · refine climb_forall hclimb hlink hitem ?_ other hother
    exact fun _ hempty => absurd hempty (Finset.notMem_empty _)

theorem mem_required : item ∈ selected ∪ needed := by
  obtain ⟨chain, hclimb, rfl⟩ := Option.map_eq_some_iff.mp h
  obtain ⟨-, hmem, -⟩ := climb_rooted hclimb fun _ hempty => absurd hempty (Finset.notMem_empty _)
  rcases hmem with hmem | hmem
  · exact Finset.mem_union_right _ (Finset.mem_union_right _ hmem)
  · exact Finset.mem_union_left _ hmem

end

theorem required_closed (hled : forest.Led) (hselected : forest.Closed selected)
    (h : forest.required fuel selected item = some needed) : forest.Closed (selected ∪ needed) := by
  obtain ⟨chain, hclimb, rfl⟩ := Option.map_eq_some_iff.mp h
  obtain ⟨hrooted, -, -⟩ := climb_rooted hclimb fun _ hempty => absurd hempty (Finset.notMem_empty _)
  have hchain : chain ∪ selected ⊆ selected ∪ ((forest.lead item).toFinset \ selected ∪ chain) := by
    intro other hother
    rcases Finset.mem_union.mp hother with hother | hother
    · exact Finset.mem_union_right _ (Finset.mem_union_right _ hother)
    · exact Finset.mem_union_left _ hother
  have hlead {lead : ι} (hlead : forest.lead item = some lead) :
      lead ∈ selected ∪ ((forest.lead item).toFinset \ selected ∪ chain) := by
    by_cases hmem : lead ∈ selected
    · exact Finset.mem_union_left _ hmem
    · refine Finset.mem_union_right _ (Finset.mem_union_left _ (Finset.mem_sdiff.mpr ⟨?_, hmem⟩))
      exact Option.mem_toFinset.mpr hlead
  constructor
  · refine (hselected.rooted.mono Finset.subset_union_left).union (Rooted.union ?_ (hrooted.mono hchain))
    intro lead hmem
    have hroot := hled.root (Option.mem_toFinset.mp (Finset.mem_sdiff.mp hmem).1)
    rw [hroot]
    refine ⟨Link.root_ne_missing, ?_⟩
    intro parent hparent
    cases hparent
  · intro other hother lead hother'
    rcases Finset.mem_union.mp hother with hmem | hmem
    · exact Finset.mem_union_left _ (hselected.leads other hmem lead hother')
    · rcases Finset.mem_union.mp hmem with hmem | hmem
      · have hself := Option.mem_toFinset.mp (Finset.mem_sdiff.mp hmem).1
        rw [hled.self hself, Option.some.injEq] at hother'
        exact hother' ▸ hlead hself
      · have hsame : forest.lead other = forest.lead item := by
          refine climb_forall (p := fun other => forest.lead other = forest.lead item) hclimb ?_ rfl ?_ other hmem
          · exact fun child parent hchild hunder => (hled.under hunder).trans hchild
          · exact fun _ hempty => absurd hempty (Finset.notMem_empty _)
        exact hlead (hsame ▸ hother')

end Requirements

section Admissions

structure Within (forest : Forest ι) (overhead : Nat) (selection : Selection ι) : Prop where
  items : selection.selected.card ≤ forest.maximumItems
  size_eq : selection.size = overhead + ∑ item ∈ selection.selected, forest.size item
  size_le : selection.size ≤ forest.maximumSize

variable (forest) in
theorem admit_cases (fuel : Nat) (selection : Selection ι) (item : ι) :
    forest.addItem fuel selection item = selection ∨
      ∃ needed, forest.required fuel selection.selected item = some needed ∧
        selection.selected.card + needed.card ≤ forest.maximumItems ∧
        selection.size + ∑ candidate ∈ needed, forest.size candidate ≤ forest.maximumSize ∧
        forest.addItem fuel selection item =
          ⟨selection.selected ∪ needed, selection.size + ∑ candidate ∈ needed, forest.size candidate⟩ := by
  rw [addItem]
  split
  · exact .inl rfl
  · cases hneeded : forest.required fuel selection.selected item with
    | none => exact .inl rfl
    | some needed =>
      dsimp only
      split
      · exact .inl rfl
      · next hfits =>
          rw [not_or, Nat.not_lt, Nat.not_lt] at hfits
          exact .inr ⟨needed, rfl, hfits.1, hfits.2, rfl⟩

variable {fuel overhead : Nat} {selection : Selection ι}

theorem Within.addItem (h : forest.Within overhead selection) (item : ι) : forest.Within overhead (forest.addItem fuel selection item) := by
  rcases admit_cases forest fuel selection item with heq | ⟨needed, hneeded, hitems, hsize, heq⟩
  · rw [heq]
    exact h
  · rw [heq]
    have hdisjoint := required_disjoint hneeded
    refine ⟨?_, ?_, hsize⟩
    · rw [Finset.card_union_of_disjoint hdisjoint]
      exact hitems
    · rw [Finset.sum_union hdisjoint, h.size_eq, Nat.add_assoc]

theorem Closed.addItem (hled : forest.Led) (h : forest.Closed selection.selected) (item : ι) :
    forest.Closed (forest.addItem fuel selection item).selected := by
  rcases admit_cases forest fuel selection item with heq | ⟨needed, hneeded, -, -, heq⟩
  · rw [heq]
    exact h
  · rw [heq]
    exact required_closed hled h hneeded

variable (forest fuel) in
theorem select_within (hoverhead : overhead ≤ forest.maximumSize) (items : List ι) :
    forest.Within overhead (forest.select fuel overhead items) := by
  have hstart : forest.Within overhead ⟨∅, overhead⟩ := ⟨Nat.zero_le _, rfl, hoverhead⟩
  exact List.foldlRecOn items _ hstart fun _ h item _ => h.addItem item

variable (fuel overhead) in
theorem select_closed (hled : forest.Led) (items : List ι) : forest.Closed (forest.select fuel overhead items).selected := by
  have hstart : forest.Closed (∅ : Finset ι) := by
    constructor
    · exact fun _ hempty => absurd hempty (Finset.notMem_empty _)
    · exact fun _ hempty => absurd hempty (Finset.notMem_empty _)
  exact List.foldlRecOn (motive := fun selection : Selection ι => forest.Closed selection.selected) items _ hstart
    fun _ h item _ => h.addItem hled item

theorem select_forall {items : List ι} {p : ι → Prop}
    (hlink : ∀ item parent, p item → forest.link item = .under parent → p parent)
    (hlead : ∀ item lead, p item → forest.lead item = some lead → p lead) (hitems : ∀ item ∈ items, p item) :
    ∀ item ∈ (forest.select fuel overhead items).selected, p item := by
  refine List.foldlRecOn (motive := fun selection : Selection ι => ∀ item ∈ selection.selected, p item) items _
    (fun _ hempty => absurd hempty (Finset.notMem_empty _)) fun selection h item hitem => ?_
  rcases admit_cases forest fuel selection item with heq | ⟨needed, hneeded, -, -, heq⟩
  · rw [heq]
    exact h
  · rw [heq]
    intro other hother
    rcases Finset.mem_union.mp hother with hother | hother
    · exact h other hother
    · exact required_forall hneeded hlink hlead (hitems item hitem) other hother

variable {item : ι} {s needed items : Finset ι}

theorem admit_root (hlink : forest.link item = .root) (hlead : forest.lead item = none) (hitem : item ∉ selection.selected) :
    forest.addItem (fuel + 1) selection item =
      if selection.selected.card + 1 > forest.maximumItems ∨ selection.size + forest.size item > forest.maximumSize then selection
      else ⟨selection.selected ∪ {item}, selection.size + forest.size item⟩ := by
  have hclimb : forest.climb selection.selected (fuel + 1) ∅ item = some {item} := by
    rw [climb, if_neg hitem, if_neg (Finset.notMem_empty _), hlink, insert_empty_eq]
  have hrequired : forest.required (fuel + 1) selection.selected item = some {item} := by
    rw [required, hclimb, hlead, Option.map_some, Option.toFinset_none, Finset.empty_sdiff, Finset.empty_union]
  rw [addItem, if_neg hitem, hrequired]
  dsimp only
  rw [Finset.card_singleton, Finset.sum_singleton]

structure Holds (forest : Forest ι) (item : ι) (s : Finset ι) : Prop where
  complete : Complete forest.link item
  ancestors : ∀ other, Ancestor forest.link item other → other ∈ s
  leads : ∀ lead, forest.lead item = some lead → lead ∈ s

structure Fits (forest : Forest ι) (overhead : Nat) (s : Finset ι) : Prop where
  items : s.card ≤ forest.maximumItems
  size : overhead + ∑ item ∈ s, forest.size item ≤ forest.maximumSize

omit [DecidableEq ι] in
theorem Fits.subset {s t : Finset ι} (h : forest.Fits overhead t) (hsubset : s ⊆ t) : forest.Fits overhead s := by
  refine ⟨(Finset.card_le_card hsubset).trans h.items, le_trans ?_ h.size⟩
  exact Nat.add_le_add_left (Finset.sum_le_sum_of_subset hsubset) overhead

theorem Holds.required_subset (h : forest.Holds item s)
    (hneeded : forest.required fuel selection.selected item = some needed) : needed ⊆ s := by
  obtain ⟨chain, hclimb, rfl⟩ := Option.map_eq_some_iff.mp hneeded
  refine Finset.union_subset ?_ ?_
  · intro lead hlead
    exact h.leads lead (Option.mem_toFinset.mp (Finset.mem_sdiff.mp hlead).1)
  · intro other hother
    refine h.ancestors other (climb_forall (p := Ancestor forest.link item) hclimb ?_ (.refl item) ?_ other hother)
    · exact fun _ _ hitem hunder => hitem.trans_under hunder
    · exact fun _ hempty => absurd hempty (Finset.notMem_empty _)

theorem subset_addItem (item : ι) : selection.selected ⊆ (forest.addItem fuel selection item).selected := by
  rcases admit_cases forest fuel selection item with heq | ⟨needed, -, -, -, heq⟩
  · rw [heq]
  · rw [heq]
    exact Finset.subset_union_left

theorem subset_foldl_addItem (items : List ι) : selection.selected ⊆ (items.foldl (forest.addItem fuel) selection).selected := by
  refine List.foldlRecOn (motive := fun later : Selection ι => selection.selected ⊆ later.selected) items _ subset_rfl ?_
  exact fun _ h item _ => h.trans (subset_addItem item)

theorem Holds.addItem (h : forest.Holds item s) (hfits : forest.Fits overhead s)
    (hwithin : forest.Within overhead selection) (hselected : selection.selected ⊆ s) (hitem : item ∈ items)
    (hitems : ∀ item ∈ items, ∀ parent, forest.link item = .under parent → parent ∈ items) (hfuel : items.card ≤ fuel) :
    item ∈ (forest.addItem fuel selection item).selected ∧ (forest.addItem fuel selection item).selected ⊆ s := by
  obtain ⟨height, hheight⟩ := h.complete.exists_height
  obtain ⟨chain, hclimb⟩ : ∃ chain, forest.climb selection.selected fuel ∅ item = some chain := by
    refine exists_climb hheight (Nat.lt_of_lt_of_le (hheight.lt_card hitems hitem) hfuel) ?_
    exact fun _ hempty => absurd hempty (Finset.notMem_empty _)
  obtain ⟨needed, hneeded⟩ : ∃ needed, forest.required fuel selection.selected item = some needed :=
    ⟨_, congrArg (Option.map _) hclimb⟩
  have hsubset : selection.selected ∪ needed ⊆ s := Finset.union_subset hselected (h.required_subset hneeded)
  have hall := hfits.subset hsubset
  have hdisjoint := required_disjoint hneeded
  have hcard := hall.items
  have hsize := hall.size
  rw [Finset.card_union_of_disjoint hdisjoint] at hcard
  rw [Finset.sum_union hdisjoint, ← Nat.add_assoc, ← hwithin.size_eq] at hsize
  rw [Forest.addItem]
  by_cases hmem : item ∈ selection.selected
  · rw [if_pos hmem]
    exact ⟨hmem, hselected⟩
  · rw [if_neg hmem, hneeded]
    dsimp only
    rw [if_neg (by omega)]
    exact ⟨mem_required hneeded, hsubset⟩

structure Inside (forest : Forest ι) (overhead : Nat) (s : Finset ι) (selection : Selection ι) : Prop where
  within : forest.Within overhead selection
  subset : selection.selected ⊆ s
  complete : ∀ item ∈ selection.selected, Complete forest.link item

theorem required_complete (hroots : ∀ lead, forest.lead item = some lead → forest.link lead = .root)
    (hselected : ∀ item ∈ selection.selected, Complete forest.link item)
    (h : forest.required fuel selection.selected item = some needed) : ∀ other ∈ needed, Complete forest.link other := by
  obtain ⟨chain, hclimb, rfl⟩ := Option.map_eq_some_iff.mp h
  have hitem := climb_complete hclimb hselected
  intro other hother
  rcases Finset.mem_union.mp hother with hother | hother
  · exact .root (hroots other (Option.mem_toFinset.mp (Finset.mem_sdiff.mp hother).1))
  · refine climb_forall hclimb (fun child parent hchild hunder => ?_) hitem ?_ other hother
    · exact hchild.ancestor (.step hunder (.refl parent))
    · exact fun _ hempty => absurd hempty (Finset.notMem_empty _)

theorem Inside.addItem (h : forest.Inside overhead s selection) (hfits : forest.Fits overhead s)
    (hholds : Complete forest.link item → forest.Holds item s)
    (hroots : ∀ lead, forest.lead item = some lead → forest.link lead = .root)
    (hitem : item ∈ items) (hitems : ∀ item ∈ items, ∀ parent, forest.link item = .under parent → parent ∈ items)
    (hfuel : items.card ≤ fuel) : forest.Inside overhead s (forest.addItem fuel selection item) := by
  refine ⟨h.within.addItem item, ?_, ?_⟩
  · rcases admit_cases forest fuel selection item with heq | ⟨needed, hneeded, -, -, -⟩
    · rw [heq]
      exact h.subset
    · obtain ⟨chain, hclimb, -⟩ := Option.map_eq_some_iff.mp hneeded
      exact ((hholds (climb_complete hclimb h.complete)).addItem hfits h.within h.subset hitem hitems hfuel).2
  · rcases admit_cases forest fuel selection item with heq | ⟨needed, hneeded, -, -, heq⟩
    · rw [heq]
      exact h.complete
    · rw [heq]
      intro other hother
      rcases Finset.mem_union.mp hother with hother | hother
      · exact h.complete other hother
      · exact required_complete hroots h.complete hneeded other hother

theorem Inside.foldl_addItem {taken : List ι} (h : forest.Inside overhead s selection) (hfits : forest.Fits overhead s)
    (hholds : ∀ item ∈ taken, Complete forest.link item → forest.Holds item s)
    (hroots : ∀ item lead, forest.lead item = some lead → forest.link lead = .root) (htaken : ∀ item ∈ taken, item ∈ items)
    (hitems : ∀ item ∈ items, ∀ parent, forest.link item = .under parent → parent ∈ items) (hfuel : items.card ≤ fuel) :
    ∀ item ∈ taken, Complete forest.link item → item ∈ (taken.foldl (forest.addItem fuel) selection).selected := by
  induction taken generalizing selection with
  | nil => exact nofun
  | cons first rest ih =>
    have hfirst := hholds first List.mem_cons_self
    have hnext := h.addItem hfits hfirst (hroots first) (htaken first List.mem_cons_self) hitems hfuel
    intro item hitem hcomplete
    rw [List.foldl_cons]
    rcases List.mem_cons.mp hitem with rfl | hitem
    · refine subset_foldl_addItem rest ?_
      exact ((hfirst hcomplete).addItem hfits h.within h.subset (htaken item List.mem_cons_self) hitems hfuel).1
    · refine ih hnext ?_ ?_ item hitem hcomplete
      · exact fun other hother => hholds other (List.mem_cons_of_mem _ hother)
      · exact fun other hother => htaken other (List.mem_cons_of_mem _ hother)

end Admissions

end Forest

end ChainSelection
