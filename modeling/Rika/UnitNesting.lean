import Rika.StableSort
import Rika.UnitOrdering

namespace Lexicographic

variable {α : Type*} {cmp : α → α → Ordering}

theorem prefix_of_between [Std.OrientedCmp cmp] [Std.LawfulEqCmp cmp] {first rest between : List α}
    (hfirst : first.compareLex cmp between ≠ .gt) (hrest : between.compareLex cmp (first ++ rest) ≠ .gt) : first <+: between := by
  induction first generalizing between with
  | nil => exact List.nil_prefix
  | cons x first ih =>
    cases between with
    | nil => exact absurd rfl hfirst
    | cons y between =>
      rw [List.compareLex_cons_cons] at hfirst
      rw [List.cons_append, List.compareLex_cons_cons] at hrest
      have hswap : cmp y x = (cmp x y).swap := Std.OrientedCmp.eq_swap
      rw [hswap] at hrest
      cases hcmp : cmp x y with
      | lt => simp [hcmp] at hrest
      | gt => simp [hcmp] at hfirst
      | eq =>
        rw [hcmp] at hfirst hrest
        obtain rfl : x = y := Std.LawfulEqCmp.eq_of_compare hcmp
        exact List.cons_prefix_cons.mpr ⟨rfl, ih hfirst hrest⟩

theorem compareLex_append_left [Std.ReflCmp cmp] (first left right : List α) :
    (first ++ left).compareLex cmp (first ++ right) = left.compareLex cmp right := by
  induction first with
  | nil => rfl
  | cons x first ih =>
    have hself : cmp x x = .eq := Std.ReflCmp.compare_self
    rw [List.cons_append, List.cons_append, List.compareLex_cons_cons, hself, ih]
    rfl

end Lexicographic

namespace Rika.UnitOrdering

instance transCmp_keys : Std.TransCmp fun left right : UnitOrderSegment => left.key.compareLex compare right.key :=
  StableSort.compareOn_trans UnitOrderSegment.key (List.compareLex compare)

instance transCmp_segments : Std.TransCmp compareSegments :=
  inferInstanceAs (Std.TransCmp (compareLex (compareOn UnitOrderSegment.sequence)
    (compareLex (compareOn UnitOrderSegment.part) fun left right => left.key.compareLex compare right.key)))

def unitOrder (key : List CodeUnit) (sequence part : Int) : Except String UnitOrder := do
  assertSegment ⟨sequence, part, key⟩
  return [⟨sequence, part, key⟩]

inductive Made : UnitOrder → Prop
  | unit {key : List CodeUnit} {sequence part : Int} {order : UnitOrder} : unitOrder key sequence part = .ok order → Made order
  | child {parent own order : UnitOrder} {subagentId : List CodeUnit} : Made parent → Made own →
      childOrder parent subagentId own = .ok order → Made order

def ChildOf (parent child : UnitOrder) : Prop := ∃ subagentId own, Made own ∧ childOrder parent subagentId own = .ok child

def Descendant : UnitOrder → UnitOrder → Prop := Relation.TransGen ChildOf

def edge (subagentId : List CodeUnit) : UnitOrderSegment := ⟨0, 0, childPrefix ++ subagentId⟩

variable {order parent own first : UnitOrder} {subagentId : List CodeUnit}

theorem unitOrder_eq_ok {key : List CodeUnit} {sequence part : Int} :
    unitOrder key sequence part = .ok order ↔ UnitOrderSegment.Accepted ⟨sequence, part, key⟩ ∧ order =
    [⟨sequence, part, key⟩] := by
  rw [unitOrder, ← assertSegment_eq_ok]
  cases hassert : assertSegment ⟨sequence, part, key⟩ with
  | error message => simp [bind, Except.bind]
  | ok _ => simp [bind, Except.bind, pure, Except.pure, eq_comm]

theorem childOrder_eq_ok : childOrder parent subagentId own = .ok order ↔
    Accepted parent ∧ assertKey subagentId = .ok () ∧ Accepted own ∧ order = parent ++ edge subagentId :: own := by
  rw [childOrder, ← assertOrder_eq_ok, ← assertOrder_eq_ok]
  cases hparent : assertOrder parent with
  | error message => simp [bind, Except.bind]
  | ok _ =>
    cases hkey : assertKey subagentId with
    | error message => simp [bind, Except.bind]
    | ok _ =>
      cases hown : assertOrder own with
      | error message => simp [bind, Except.bind]
      | ok _ => simp [bind, Except.bind, pure, Except.pure, edge, eq_comm]

theorem Made.accepted (h : Made order) : Accepted order := by
  cases h with
  | unit hunit =>
    obtain ⟨hsegment, rfl⟩ := unitOrder_eq_ok.mp hunit
    exact ⟨List.cons_ne_nil _ _, List.forall_mem_singleton.mpr hsegment⟩
  | child _ _ hchild => exact (childOrder_after hchild).1

/-- Segments of units, and between each two an edge to a child. -/
inductive Alternates : UnitOrder → Prop
  | last {segment : UnitOrderSegment} : segment.Accepted → Alternates [segment]
  | more {segment : UnitOrderSegment} {subagentId : List CodeUnit} {rest : UnitOrder} : segment.Accepted →
      assertKey subagentId = .ok () → Alternates rest → Alternates (segment :: edge subagentId :: rest)

theorem Alternates.append (hparent : Alternates parent)
    (hkey : assertKey subagentId = .ok ()) (hown : Alternates own) : Alternates (parent ++ edge subagentId :: own) := by
  induction hparent with
  | last hsegment => exact .more hsegment hkey hown
  | more hsegment hother _ ih => exact .more hsegment hother ih

theorem Alternates.made (h : Alternates order) : Made order := by
  induction h with
  | last hsegment => exact .unit (unitOrder_eq_ok.mpr ⟨hsegment, rfl⟩)
  | @more segment subagentId rest hsegment hkey _ ih =>
    have hfirst : Made [segment] := .unit (unitOrder_eq_ok.mpr ⟨hsegment, rfl⟩)
    exact .child hfirst ih (childOrder_eq_ok.mpr ⟨hfirst.accepted, hkey, ih.accepted, rfl⟩)

theorem made_iff : Made order ↔ Alternates order := by
  constructor
  · intro h
    induction h with
    | unit hunit =>
      obtain ⟨hsegment, rfl⟩ := unitOrder_eq_ok.mp hunit
      exact .last hsegment
    | child _ _ hchild hparent hown =>
      obtain ⟨-, hkey, -, rfl⟩ := childOrder_eq_ok.mp hchild
      exact hparent.append hkey hown
  · exact Alternates.made

theorem Alternates.extends {rest : UnitOrder} (hparent : Alternates parent) (h : Alternates (parent ++ rest)) :
    rest = [] ∨ ∃ subagentId own, rest = edge subagentId :: own ∧ assertKey subagentId = .ok () ∧ Alternates own := by
  induction hparent with
  | last hsegment =>
    cases h with
    | last _ => exact .inl rfl
    | more _ hkey hown => exact .inr ⟨_, _, rfl, hkey, hown⟩
  | more _ _ _ ih =>
    rw [List.cons_append, List.cons_append] at h
    cases h with
    | more _ _ hrest => exact ih hrest

structure Begins (first order : UnitOrder) : Prop where
  accepted : Accepted first
  accepted' : Accepted order
  initial : first <+: order
  ne : first ≠ order

theorem Begins.trans {second third : UnitOrder} (h : Begins first second) (h' : Begins second third) : Begins first third where
  accepted := h.accepted
  accepted' := h'.accepted'
  initial := h.initial.trans h'.initial
  ne := by
    intro heq
    subst heq
    exact h.ne (h.initial.eq_of_length_le h'.initial.length_le)

theorem ChildOf.begins {child : UnitOrder} (h : ChildOf parent child) : Begins parent child := by
  obtain ⟨subagentId, own, -, hchild⟩ := h
  have haccepted := (childOrder_after hchild).1
  obtain ⟨hparent, -, -, rfl⟩ := childOrder_eq_ok.mp hchild
  exact ⟨hparent, haccepted, List.prefix_append _ _, fun heq => by simpa using congrArg List.length heq⟩

theorem Descendant.begins {descendant : UnitOrder} (h : Descendant parent descendant) : Begins parent descendant := by
  induction h with
  | single hchild => exact hchild.begins
  | tail _ hchild ih => exact ih.trans hchild.begins

theorem Begins.descendant {parent child : UnitOrder} (h : Begins parent child) (hparent : Made parent) (hchild : Made child) :
    Descendant parent child := by
  obtain ⟨rest, rfl⟩ := h.initial
  rcases (made_iff.mp hparent).extends (made_iff.mp hchild) with rfl | ⟨subagentId, own, rfl, hkey, hown⟩
  · exact absurd (List.append_nil parent).symm h.ne
  · exact .single ⟨subagentId, own, hown.made, childOrder_eq_ok.mpr ⟨hparent.accepted, hkey, hown.made.accepted, rfl⟩⟩

theorem Begins.lt (h : Begins first order) : first.compareLex compareSegments order = .lt := by
  obtain ⟨rest, rfl⟩ := h.initial
  cases rest with
  | nil => exact absurd (List.append_nil first).symm h.ne
  | cons segment rest => exact compareLex_prefix segment rest

theorem Begins.between {other : UnitOrder} (h : Begins first order) (hother : Accepted other)
    (hfirst : first.compareLex compareSegments other = .lt) (horder : other.compareLex compareSegments order = .lt) :
    Begins first other := by
  obtain ⟨rest, rfl⟩ := h.initial
  refine ⟨h.accepted, hother, Lexicographic.prefix_of_between (by rw [hfirst]; simp) (by rw [horder]; simp), fun heq => ?_⟩
  subst heq
  have hself : first.compareLex compareSegments first = .eq := Std.ReflCmp.compare_self
  rw [hself] at hfirst
  cases hfirst

theorem compareUnitOrder_eq_lt {left right : UnitOrder} (hleft : Accepted left) (hright : Accepted right) :
    compareUnitOrder left right = .ok (-1) ↔ left.compareLex compareSegments right = .lt := by
  obtain ⟨encodedLeft, encodedRight, -, -, -, hcompare, hsign⟩ := encodeUnitOrder_isomorphism hleft hright
  rw [hsign, hcompare]
  cases left.compareLex compareSegments right <;> simp [sign]

theorem compareSegments_edge (leftId rightId : List CodeUnit) :
    compareSegments (edge leftId) (edge rightId) = compareStrings leftId rightId := by
  have hkeys : (childPrefix ++ leftId).compareLex compare (childPrefix ++ rightId) = leftId.compareLex compare rightId :=
    Lexicographic.compareLex_append_left childPrefix leftId rightId
  exact hkeys

/-- Children of one parent come in the order of their subagents, and those of one subagent in their own. -/
theorem compareUnitOrder_childOrder {leftId rightId : List CodeUnit} {left right leftOrder rightOrder : UnitOrder}
    (hleft : childOrder parent leftId left = .ok leftOrder) (hright : childOrder parent rightId right = .ok rightOrder) :
    compareUnitOrder leftOrder rightOrder =
      if leftId = rightId then compareUnitOrder left right else .ok (sign (compareStrings leftId rightId)) := by
  obtain ⟨-, -, hleftAccepted, hleftEq⟩ := childOrder_eq_ok.mp hleft
  obtain ⟨-, -, hrightAccepted, hrightEq⟩ := childOrder_eq_ok.mp hright
  obtain ⟨_, _, -, -, -, hcompare, hsign⟩ :=
    encodeUnitOrder_isomorphism (childOrder_after hleft).1 (childOrder_after hright).1
  obtain ⟨_, _, -, -, -, hpartCompare, hpartSign⟩ := encodeUnitOrder_isomorphism hleftAccepted hrightAccepted
  have hchildren : leftOrder.compareLex compareSegments rightOrder =
      (compareStrings leftId rightId).then (left.compareLex compareSegments right) := by
    rw [hleftEq, hrightEq, Lexicographic.compareLex_append_left, List.compareLex_cons_cons, compareSegments_edge]
  rw [hsign, hcompare, hchildren, hpartSign, hpartCompare]
  split
  · next hid =>
    have hself : leftId.compareLex compare leftId = .eq := Std.ReflCmp.compare_self
    rw [← hid, compareStrings, hself]
    rfl
  · next hid =>
    have hne : compareStrings leftId rightId ≠ .eq := fun heq => by
      have hunits : leftId.compareLex compare rightId = .eq := heq
      exact hid (Std.LawfulEqCmp.eq_of_compare hunits)
    cases hids : compareStrings leftId rightId with
    | eq => exact absurd hids hne
    | lt | gt => rfl

/-- Admissible arguments give a child its order; children keep the order of their subagents and of their parts, a unit
comes before what is below it, and what comes between is below it too. -/
theorem childOrder_nests (parent : UnitOrder) :
    (∀ subagentId own, (∃ order, childOrder parent subagentId own = .ok order) ↔
      Accepted parent ∧ assertKey subagentId = .ok () ∧ Accepted own) ∧
    (∀ leftId rightId left right leftOrder rightOrder, childOrder parent leftId left = .ok leftOrder →
      childOrder parent rightId right = .ok rightOrder → compareUnitOrder leftOrder rightOrder =
        if leftId = rightId then compareUnitOrder left right else .ok (sign (compareStrings leftId rightId))) ∧
    (∀ descendant, Descendant parent descendant → compareUnitOrder parent descendant = .ok (-1)) ∧
    (∀ descendant between, Descendant parent descendant → Accepted between → compareUnitOrder parent between = .ok (-1) →
      compareUnitOrder between descendant = .ok (-1) → Begins parent between ∧ (Made parent → Made between → Descendant parent between)) ∧
    (∀ first last between, Descendant parent first → Descendant parent last → Accepted between →
      compareUnitOrder first between = .ok (-1) → compareUnitOrder between last = .ok (-1) →
      Begins parent between ∧ (Made parent → Made between → Descendant parent between)) := by
  have hbetween : ∀ descendant between, Descendant parent descendant → Accepted between →
      parent.compareLex compareSegments between = .lt → compareUnitOrder between descendant = .ok (-1) →
      Begins parent between ∧ (Made parent → Made between → Descendant parent between) := by
    intro descendant between hdescendant haccepted hparent hlast
    have hbegins := hdescendant.begins
    rw [compareUnitOrder_eq_lt haccepted hbegins.accepted'] at hlast
    have hother := hbegins.between haccepted hparent hlast
    exact ⟨hother, hother.descendant⟩
  refine ⟨?_, ?_, ?_, ?_, ?_⟩
  · intro subagentId own
    simp only [childOrder_eq_ok, exists_and_left, exists_eq, and_true]
  · intro _ _ _ _ _ _ hleft hright
    exact compareUnitOrder_childOrder hleft hright
  · intro descendant hdescendant
    have hbegins := hdescendant.begins
    exact (compareUnitOrder_eq_lt hbegins.accepted hbegins.accepted').mpr hbegins.lt
  · intro descendant between hdescendant haccepted hparent hlast
    rw [compareUnitOrder_eq_lt hdescendant.begins.accepted haccepted] at hparent
    exact hbetween descendant between hdescendant haccepted hparent hlast
  · intro first last between hfirst hlast haccepted hafter hbefore
    rw [compareUnitOrder_eq_lt hfirst.begins.accepted' haccepted] at hafter
    exact hbetween last between hlast haccepted (Std.TransCmp.lt_trans hfirst.begins.lt hafter) hbefore

def sampleParent : UnitOrder := [⟨3, 0, [digitUnit 10]⟩]

def sampleOwn : UnitOrder := [⟨7, 0, [slash]⟩]

theorem childOrder_nests_sample : ∃ first second, childOrder sampleParent [digitUnit 10] sampleOwn = .ok first ∧
    childOrder sampleParent [digitUnit 11] sampleOwn = .ok second ∧ compareUnitOrder sampleParent first = .ok (-1) ∧
      compareUnitOrder first second = .ok (-1) := by
  have hparent : Accepted sampleParent := assertOrder_eq_ok.mp (by decide +kernel)
  have hown : Accepted sampleOwn := assertOrder_eq_ok.mp (by decide +kernel)
  have hmake : unitOrder [slash] 7 0 = .ok sampleOwn := rfl
  obtain ⟨hok, hchildren, hafter, -⟩ := childOrder_nests sampleParent
  obtain ⟨first, hfirst⟩ := (hok [digitUnit 10] sampleOwn).mpr ⟨hparent, by decide +kernel, hown⟩
  obtain ⟨second, hsecond⟩ := (hok [digitUnit 11] sampleOwn).mpr ⟨hparent, by decide +kernel, hown⟩
  refine ⟨first, second, hfirst, hsecond, hafter first (.single ⟨_, _, .unit hmake, hfirst⟩), ?_⟩
  rw [hchildren _ _ _ _ _ _ hfirst hsecond]
  decide +kernel

end Rika.UnitOrdering
