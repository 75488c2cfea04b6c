import Mathlib.Tactic.IntervalCases
import Rika.Fold
import Rika.Lexicographic

namespace Rika.UnitOrdering

open Lexicographic (compareLex_append digits lt_of_mem_lastDigits padStart padStart_digits)

abbrev CodeUnit := Fin 65536

def numberWidth : Nat := 16

def maxSafeInteger : Nat := 9007199254740991

structure UnitOrderSegment where
  sequence : Int
  part : Int
  key : List CodeUnit

abbrev UnitOrder := List UnitOrderSegment

def isHighSurrogate (unit : CodeUnit) : Bool := 0xD800 ≤ unit.val && unit.val ≤ 0xDBFF

def isLowSurrogate (unit : CodeUnit) : Bool := 0xDC00 ≤ unit.val && unit.val ≤ 0xDFFF

def wellFormedString : List CodeUnit → Bool
  | [] => true
  | [unit] => !isHighSurrogate unit && !isLowSurrogate unit
  | unit :: next :: rest =>
    if isHighSurrogate unit then isLowSurrogate next && wellFormedString rest
    else !isLowSurrogate unit && wellFormedString (next :: rest)

def isSafeInteger (value : Int) : Bool := value.natAbs ≤ maxSafeInteger

def assertKey (value : List CodeUnit) : Except String Unit :=
  if value.length = 0 ∨ ¬wellFormedString value then .error "Unit order keys must be well-formed text" else .ok ()

def assertNumber (value minimum : Int) : Except String Unit :=
  if ¬isSafeInteger value ∨ value < minimum then
    .error s!"Unit order numbers must be safe integers greater than or equal to {minimum}"
  else .ok ()

def assertSegment (segment : UnitOrderSegment) : Except String Unit := do
  assertNumber segment.sequence (-1)
  assertNumber segment.part 0
  assertKey segment.key

def assertOrder (order : UnitOrder) : Except String Unit :=
  if order.length = 0 then .error "Unit orders must contain at least one segment" else order.forM assertSegment

def digitUnit (digit : Nat) : CodeUnit := Fin.ofNat 65536 (if digit < 10 then 48 + digit else 87 + digit)

def slash : CodeUnit := 0x2F

/-- The sum is never negative where it is used. -/
def encodeNumber (value offset : Int) : List CodeUnit :=
  (padStart numberWidth 0 (digits 10 (value + offset).toNat)).map digitUnit

def encodeUnit (unit : CodeUnit) : List CodeUnit :=
  (padStart 4 0 (digits 16 unit.val)).map digitUnit

def encodeKey (value : List CodeUnit) : List CodeUnit := value.flatMap encodeUnit ++ [slash]

def encodeSegment (segment : UnitOrderSegment) : List CodeUnit :=
  encodeNumber segment.sequence 1 ++ encodeNumber segment.part 0 ++ encodeKey segment.key

def childPrefix : List CodeUnit := [0x40, 0x63, 0x68, 0x69, 0x6C, 0x64, 0x3A]

def childOrder (parent : UnitOrder) (subagentId : List CodeUnit) (local' : UnitOrder) : Except String UnitOrder := do
  assertOrder parent
  assertKey subagentId
  assertOrder local'
  return parent ++ [⟨0, 0, childPrefix ++ subagentId⟩] ++ local'

def encodeUnitOrder (order : UnitOrder) : Except String (List CodeUnit) := do
  assertOrder order
  return order.flatMap encodeSegment

def compareStrings (left right : List CodeUnit) : Ordering := left.compareLex compare right

def compareUnitOrder (left right : UnitOrder) : Except String Int := do
  let encodedLeft ← encodeUnitOrder left
  let encodedRight ← encodeUnitOrder right
  if compareStrings encodedLeft encodedRight = .lt then return -1
  if compareStrings encodedLeft encodedRight = .gt then return 1
  return 0

structure UnitOrderSegment.Accepted (segment : UnitOrderSegment) : Prop where
  sequence_ge : -1 ≤ segment.sequence
  sequence_le : segment.sequence ≤ maxSafeInteger
  part_ge : 0 ≤ segment.part
  part_le : segment.part ≤ maxSafeInteger
  key_ne : segment.key ≠ []
  key_wellFormed : wellFormedString segment.key = true

structure Accepted (order : UnitOrder) : Prop where
  nonempty : order ≠ []
  segments : ∀ segment ∈ order, segment.Accepted

variable {value offset : Int} {order left right : UnitOrder}

theorem isSafeInteger_eq_true : isSafeInteger value = true ↔ -(maxSafeInteger : Int) ≤ value ∧ value ≤ maxSafeInteger := by
  rw [isSafeInteger, decide_eq_true_eq]
  omega

theorem assertNumber_eq_ok {minimum : Int} :
    assertNumber value minimum = .ok () ↔ isSafeInteger value = true ∧ minimum ≤ value := by
  unfold assertNumber
  split
  · next hrefused =>
      refine ⟨by rintro ⟨⟩, fun h => ?_⟩
      rcases hrefused with hsafe | hlow
      · exact absurd h.1 hsafe
      · omega
  · next haccepted =>
      rw [not_or, not_not, Int.not_lt] at haccepted
      exact ⟨fun _ => haccepted, fun _ => rfl⟩

theorem assertKey_eq_ok {value : List CodeUnit} :
    assertKey value = .ok () ↔ value ≠ [] ∧ wellFormedString value = true := by
  unfold assertKey
  split
  · next hrefused =>
      refine ⟨by rintro ⟨⟩, fun h => ?_⟩
      rcases hrefused with hempty | hill
      · exact absurd (List.length_eq_zero_iff.mp hempty) h.1
      · exact absurd h.2 hill
  · next haccepted =>
      rw [not_or, not_not, List.length_eq_zero_iff] at haccepted
      exact ⟨fun _ => haccepted, fun _ => rfl⟩

theorem bind_eq_ok {x y : Except String Unit} : (x >>= fun _ => y) = .ok () ↔ x = .ok () ∧ y = .ok () := by
  cases x with
  | error message => exact ⟨by rintro ⟨⟩, fun h => h.1⟩
  | ok _ => exact ⟨fun h => ⟨rfl, h⟩, fun h => h.2⟩

theorem assertSegment_eq_ok {segment : UnitOrderSegment} : assertSegment segment = .ok () ↔ segment.Accepted := by
  unfold assertSegment
  rw [bind_eq_ok, bind_eq_ok, assertNumber_eq_ok, assertNumber_eq_ok, assertKey_eq_ok, isSafeInteger_eq_true,
    isSafeInteger_eq_true]
  constructor
  · rintro ⟨⟨⟨-, hsequence⟩, hleast⟩, ⟨⟨-, hpart⟩, hpositive⟩, hkey, hformed⟩
    exact ⟨hleast, hsequence, hpositive, hpart, hkey, hformed⟩
  · rintro ⟨hleast, hsequence, hpositive, hpart, hkey, hformed⟩
    exact ⟨⟨⟨by rw [maxSafeInteger]; omega, hsequence⟩, hleast⟩,
      ⟨⟨by rw [maxSafeInteger]; omega, hpart⟩, hpositive⟩, hkey, hformed⟩

theorem forM_assertSegment : order.forM assertSegment = .ok () ↔ ∀ segment ∈ order, segment.Accepted := by
  induction order with
  | nil => exact ⟨fun _ => List.forall_mem_nil _, fun _ => rfl⟩
  | cons segment order ih =>
    change (assertSegment segment >>= fun _ => order.forM assertSegment) = .ok () ↔ _
    rw [bind_eq_ok, assertSegment_eq_ok, ih, List.forall_mem_cons]

theorem assertOrder_eq_ok : assertOrder order = .ok () ↔ Accepted order := by
  unfold assertOrder
  split
  · next hempty =>
      rw [List.length_eq_zero_iff] at hempty
      exact ⟨by rintro ⟨⟩, fun h => absurd hempty h.nonempty⟩
  · next hsome =>
      rw [List.length_eq_zero_iff] at hsome
      rw [forM_assertSegment]
      exact ⟨fun h => ⟨hsome, h⟩, fun h => h.segments⟩

theorem encodeUnitOrder_of_accepted (h : Accepted order) : encodeUnitOrder order = .ok (order.flatMap encodeSegment) := by
  rw [encodeUnitOrder, assertOrder_eq_ok.mpr h]
  rfl

theorem compare_digitUnit {left right : Nat} (hleft : left < 16) (hright : right < 16) :
    compare (digitUnit left) (digitUnit right) = compare left right := by
  interval_cases left <;> interval_cases right <;> rfl

theorem compare_slash_digitUnit {digit : Nat} (hdigit : digit < 16) :
    compare slash (digitUnit digit) = .lt ∧ compare (digitUnit digit) slash = .gt := by
  interval_cases digit <;> exact ⟨rfl, rfl⟩

section Numbers

variable {base width : Nat}

variable {n : Nat}

theorem compareLex_digitUnits (hbase : 1 < base) (hle : base ≤ 16) (hwidth : 0 < width) {m : Nat}
    (hm : m < base ^ width) (hn : n < base ^ width) :
    ((padStart width 0 (digits base m)).map digitUnit).compareLex compare
      ((padStart width 0 (digits base n)).map digitUnit) = compare m n := by
  rw [padStart_digits hbase hwidth hm, padStart_digits hbase hwidth hn,
    ← Lexicographic.compareLex_lastDigits (by omega) hm hn]
  apply Lexicographic.compareLex_map
  intro x hx y hy
  have hx' := lt_of_mem_lastDigits (by omega) hx
  have hy' := lt_of_mem_lastDigits (by omega) hy
  exact compare_digitUnit (by omega) (by omega)

theorem length_digitUnits (hbase : 1 < base) (hwidth : 0 < width) (hn : n < base ^ width) :
    ((padStart width 0 (digits base n)).map digitUnit).length = width := by
  rw [List.length_map, padStart_digits hbase hwidth hn, Lexicographic.length_lastDigits]

end Numbers

theorem lt_width (hoffset : offset ≤ 1) (hle : value ≤ maxSafeInteger) : (value + offset).toNat < 10 ^ numberWidth := by
  rw [maxSafeInteger] at hle
  rw [numberWidth]
  omega

theorem length_encodeNumber (hoffset : offset ≤ 1) (hle : value ≤ maxSafeInteger) :
    (encodeNumber value offset).length = numberWidth :=
  length_digitUnits (by omega) (by decide) (lt_width hoffset hle)

theorem compareStrings_encodeNumber {left right : Int} (offset : Int) (hoffset : offset ≤ 1) (hleft : left ≤ maxSafeInteger)
    (hright : right ≤ maxSafeInteger) (hleft' : -offset ≤ left) (hright' : -offset ≤ right) :
    (encodeNumber left offset).compareLex compare (encodeNumber right offset) = compare left right := by
  rw [encodeNumber, encodeNumber, compareLex_digitUnits (by omega) (by omega) (by decide) (lt_width hoffset hleft)
    (lt_width hoffset hright)]
  rcases lt_trichotomy left right with hlt | rfl | hgt
  · rw [Nat.compare_eq_lt.mpr (by omega), compare_lt_iff_lt.mpr hlt]
  · rw [Nat.compare_eq_eq.mpr rfl, compare_eq_iff_eq.mpr rfl]
  · rw [Nat.compare_eq_gt.mpr (by omega), compare_gt_iff_gt.mpr hgt]

theorem lt_hexadecimal (unit : CodeUnit) : unit.val < 16 ^ 4 := unit.isLt

theorem compareStrings_encodeKey (left right s t : List CodeUnit) :
    (encodeKey left ++ s).compareLex compare (encodeKey right ++ t) =
      (left.compareLex compare right).then (s.compareLex compare t) := by
  have hdigits : ∀ unit, ∃ digit < 16, ∃ rest, encodeUnit unit = digitUnit digit :: rest := by
    intro unit
    cases hunit : encodeUnit unit with
    | nil =>
      have hlength : (encodeUnit unit).length = 4 := length_digitUnits (by omega) (by omega) (lt_hexadecimal unit)
      rw [hunit] at hlength
      cases hlength
    | cons first rest =>
      have hfirst : first ∈ encodeUnit unit := by rw [hunit]; exact List.mem_cons_self
      rw [encodeUnit, padStart_digits (by omega) (by omega) (lt_hexadecimal unit)] at hfirst
      obtain ⟨digit, hdigit, rfl⟩ := List.mem_map.mp hfirst
      exact ⟨digit, lt_of_mem_lastDigits (by omega) hdigit, rest, rfl⟩
  rw [encodeKey, encodeKey, List.append_assoc, List.append_assoc]
  apply Lexicographic.compareLex_flatMap
  · rfl
  · intro unit rest
    obtain ⟨digit, hdigit, more, hunit⟩ := hdigits unit
    rw [hunit, List.cons_append, List.compareLex_cons_cons, (compare_slash_digitUnit hdigit).1]
    rfl
  · intro unit rest
    obtain ⟨digit, hdigit, more, hunit⟩ := hdigits unit
    rw [hunit, List.cons_append, List.compareLex_cons_cons, (compare_slash_digitUnit hdigit).2]
    rfl
  · intro first second
    rw [encodeUnit, encodeUnit, length_digitUnits (by omega) (by omega) (lt_hexadecimal first),
      length_digitUnits (by omega) (by omega) (lt_hexadecimal second)]
  · intro first second
    exact compareLex_digitUnits (by omega) (by omega) (by omega) (lt_hexadecimal first) (lt_hexadecimal second)

def compareSegments (left right : UnitOrderSegment) : Ordering :=
  (compare left.sequence right.sequence).then
    ((compare left.part right.part).then (left.key.compareLex compare right.key))

theorem compareStrings_encodeSegment {left right : UnitOrderSegment} (hleft : left.Accepted) (hright : right.Accepted)
    (s t : List CodeUnit) :
    (encodeSegment left ++ s).compareLex compare (encodeSegment right ++ t) =
      (compareSegments left right).then (s.compareLex compare t) := by
  have hsequence := compareStrings_encodeNumber 1 (by omega) hleft.sequence_le hright.sequence_le
    hleft.sequence_ge hright.sequence_ge
  have hpart := compareStrings_encodeNumber 0 (by omega) hleft.part_le hright.part_le hleft.part_ge
    hright.part_ge
  rw [encodeSegment, encodeSegment, List.append_assoc, List.append_assoc, List.append_assoc, List.append_assoc,
    compareLex_append, hsequence, compareLex_append, hpart, compareStrings_encodeKey,
    compareSegments, Ordering.then_assoc, Ordering.then_assoc]
  · rw [length_encodeNumber (by omega) hleft.part_le, length_encodeNumber (by omega) hright.part_le]
  · rw [length_encodeNumber (by omega) hleft.sequence_le, length_encodeNumber (by omega) hright.sequence_le]

theorem compareStrings_flatMap (hleft : ∀ segment ∈ left, segment.Accepted) (hright : ∀ segment ∈ right, segment.Accepted) :
    (left.flatMap encodeSegment).compareLex compare (right.flatMap encodeSegment) =
      left.compareLex compareSegments right := by
  have hsome : ∀ segment : UnitOrderSegment, ∃ first rest, encodeSegment segment = first :: rest := by
    intro segment
    cases hsegment : encodeSegment segment with
    | nil => simp [encodeSegment, encodeKey] at hsegment
    | cons first rest => exact ⟨first, rest, rfl⟩
  induction left generalizing right with
  | nil =>
    cases right with
    | nil => rfl
    | cons segment right =>
      obtain ⟨first, rest, hsegment⟩ := hsome segment
      rw [List.flatMap_nil, List.flatMap_cons, hsegment]
      rfl
  | cons segment left ih =>
    cases right with
    | nil =>
      obtain ⟨first, rest, hsegment⟩ := hsome segment
      rw [List.flatMap_nil, List.flatMap_cons, hsegment]
      rfl
    | cons other right =>
      rw [List.forall_mem_cons] at hleft hright
      rw [List.flatMap_cons, List.flatMap_cons, compareStrings_encodeSegment hleft.1 hright.1, ih hleft.2 hright.2,
        List.compareLex_cons_cons]

instance : Std.LawfulEqCmp compareSegments where
  compare_self := by
    intro segment
    have hkey : segment.key.compareLex compare segment.key = .eq := Std.ReflCmp.compare_self
    rw [compareSegments, compare_eq_iff_eq.mpr rfl, compare_eq_iff_eq.mpr rfl, hkey]
    rfl
  eq_of_compare := by
    intro left right h
    rw [compareSegments, Ordering.then_eq_eq, Ordering.then_eq_eq, compare_eq_iff_eq, compare_eq_iff_eq,
      Std.LawfulEqCmp.compare_eq_iff_eq] at h
    obtain ⟨sequence, part, key⟩ := left
    obtain ⟨rfl, rfl, rfl⟩ := h
    rfl

theorem flatMap_encodeSegment_injective (hleft : Accepted left) (hright : Accepted right)
    (h : left.flatMap encodeSegment = right.flatMap encodeSegment) : left = right := by
  have hcompare := compareStrings_flatMap hleft.segments hright.segments
  have hsame : (right.flatMap encodeSegment).compareLex compare (right.flatMap encodeSegment) = .eq :=
    Std.ReflCmp.compare_self
  rw [h, hsame] at hcompare
  exact Std.LawfulEqCmp.eq_of_compare hcompare.symm

def sign : Ordering → Int
  | .lt => -1
  | .eq => 0
  | .gt => 1

theorem compareUnitOrder_of_encoded {encodedLeft encodedRight : List CodeUnit}
    (hleft : encodeUnitOrder left = .ok encodedLeft) (hright : encodeUnitOrder right = .ok encodedRight) :
    compareUnitOrder left right = .ok (sign (compareStrings encodedLeft encodedRight)) := by
  rw [compareUnitOrder, hleft, hright]
  simp only [bind, Except.bind]
  cases compareStrings encodedLeft encodedRight <;> rfl

/-- Every two orders the encoder accepts are encoded; the encodings are equal for equal
orders only, and compare as the orders do. -/
theorem encodeUnitOrder_isomorphism {left right : UnitOrder} (hleft : Accepted left) (hright : Accepted right) :
    ∃ encodedLeft encodedRight, encodeUnitOrder left = .ok encodedLeft ∧ encodeUnitOrder right = .ok encodedRight ∧
      (encodedLeft = encodedRight → left = right) ∧
      compareStrings encodedLeft encodedRight = left.compareLex compareSegments right ∧
      compareUnitOrder left right = .ok (sign (compareStrings encodedLeft encodedRight)) := by
  have hcompare := compareStrings_flatMap hleft.segments hright.segments
  exact ⟨_, _, encodeUnitOrder_of_accepted hleft, encodeUnitOrder_of_accepted hright,
    flatMap_encodeSegment_injective hleft hright, hcompare,
    compareUnitOrder_of_encoded (encodeUnitOrder_of_accepted hleft) (encodeUnitOrder_of_accepted hright)⟩

def sampleOrder : UnitOrder := [⟨3, 0, [0x61]⟩, ⟨0, 0, childPrefix ++ [0x2F]⟩, ⟨-1, 9007199254740991, [0xD83D, 0xDE00]⟩]

theorem sampleOrder_accepted : Accepted sampleOrder := assertOrder_eq_ok.mp (by decide +kernel)

theorem encodeUnitOrder_isomorphism_sample :
    ∃ encodedLeft encodedRight, encodeUnitOrder sampleOrder = .ok encodedLeft ∧
      encodeUnitOrder [⟨3, 0, [0x61]⟩] = .ok encodedRight ∧ (encodedLeft = encodedRight → sampleOrder = [⟨3, 0, [0x61]⟩]) ∧
      compareStrings encodedLeft encodedRight = sampleOrder.compareLex compareSegments [⟨3, 0, [0x61]⟩] ∧
      compareUnitOrder sampleOrder [⟨3, 0, [0x61]⟩] = .ok (sign (compareStrings encodedLeft encodedRight)) :=
  encodeUnitOrder_isomorphism sampleOrder_accepted (assertOrder_eq_ok.mp (by decide +kernel))

theorem wellFormedString_cons {unit : CodeUnit} (hhigh : isHighSurrogate unit = false) (hlow : isLowSurrogate unit = false)
    (rest : List CodeUnit) : wellFormedString (unit :: rest) = wellFormedString rest := by
  cases rest with
  | nil | cons next rest => simp [wellFormedString, hhigh, hlow]

theorem wellFormedString_childPrefix (subagentId : List CodeUnit) :
    wellFormedString (childPrefix ++ subagentId) = wellFormedString subagentId := by
  have hplain : (childPrefix.all fun unit => !isHighSurrogate unit && !isLowSurrogate unit) = true := by decide +kernel
  revert hplain
  generalize childPrefix = text
  intro hplain
  induction text with
  | nil => rfl
  | cons unit rest ih =>
    rw [List.all_cons, Bool.and_eq_true, Bool.and_eq_true, Bool.not_eq_true', Bool.not_eq_true'] at hplain
    rw [List.cons_append, wellFormedString_cons hplain.1.1 hplain.1.2, ih hplain.2]

theorem compareLex_prefix (segment : UnitOrderSegment) (rest : UnitOrder) :
    left.compareLex compareSegments (left ++ segment :: rest) = .lt := by
  induction left with
  | nil => rfl
  | cons first left ih =>
    have hself : compareSegments first first = .eq := Std.ReflCmp.compare_self
    rw [List.cons_append, List.compareLex_cons_cons, hself, ih]
    rfl

theorem childOrder_after {parent own : UnitOrder} {subagentId : List CodeUnit}
    (h : childOrder parent subagentId own = .ok order) :
    Accepted order ∧ parent.compareLex compareSegments order = .lt := by
  rw [childOrder] at h
  obtain ⟨_, hparent, h⟩ := Fold.bind_eq_ok.mp h
  obtain ⟨_, hkey, h⟩ := Fold.bind_eq_ok.mp h
  obtain ⟨_, hown, h⟩ := Fold.bind_eq_ok.mp h
  cases h
  have hparent' := assertOrder_eq_ok.mp hparent
  have hown' := assertOrder_eq_ok.mp hown
  have hedge : UnitOrderSegment.Accepted ⟨0, 0, childPrefix ++ subagentId⟩ := by
    refine ⟨(by decide : (-1 : Int) ≤ 0), Int.natCast_nonneg _, Int.le_refl 0, Int.natCast_nonneg _, ?_, ?_⟩
    · exact List.append_ne_nil_of_left_ne_nil (by decide) _
    · exact (wellFormedString_childPrefix subagentId).trans (assertKey_eq_ok.mp hkey).2
  refine ⟨⟨List.append_ne_nil_of_right_ne_nil _ hown'.nonempty, ?_⟩, ?_⟩
  · intro segment hmem
    rw [List.mem_append, List.mem_append, List.mem_singleton] at hmem
    rcases hmem with (hmem | rfl) | hmem
    · exact hparent'.segments segment hmem
    · exact hedge
    · exact hown'.segments segment hmem
  · rw [List.append_assoc]
    exact compareLex_prefix _ own

end Rika.UnitOrdering
