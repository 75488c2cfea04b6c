import Mathlib.Data.Nat.Digits.Defs

namespace Lexicographic

variable {α β : Type*} {cmp : α → α → Ordering}

variable {s t : List α} {cmp' : β → β → Ordering} {a b : List β}

theorem compareLex_append {a b : List α} (hwidth : a.length = b.length) :
    (a ++ s).compareLex cmp (b ++ t) = (a.compareLex cmp b).then (s.compareLex cmp t) := by
  induction a generalizing b with
  | nil =>
    rw [List.length_nil, eq_comm, List.length_eq_zero_iff] at hwidth
    subst hwidth
    rfl
  | cons x a ih =>
    cases b with
    | nil => cases hwidth
    | cons y b =>
      rw [List.cons_append, List.cons_append, List.compareLex_cons_cons, List.compareLex_cons_cons,
        ih (Nat.succ_injective hwidth), Ordering.then_assoc]

theorem compareLex_map {f : β → α}
    (hf : ∀ x ∈ a, ∀ y ∈ b, cmp (f x) (f y) = cmp' x y) : (a.map f).compareLex cmp (b.map f) = a.compareLex cmp' b := by
  induction a generalizing b with
  | nil => cases b <;> rfl
  | cons x a ih =>
    cases b with
    | nil => rfl
    | cons y b =>
      rw [List.map_cons, List.map_cons, List.compareLex_cons_cons, List.compareLex_cons_cons,
        hf x List.mem_cons_self y List.mem_cons_self,
        ih fun x hx y hy => hf x (List.mem_cons_of_mem _ hx) y (List.mem_cons_of_mem _ hy)]

/-- Concatenated codes of one width compare as what they encode, when each is ended by a
unit that comes before every code. -/
theorem compareLex_flatMap {code : β → List α} {mark : α}
    (hmark : cmp mark mark = .eq) (hbefore : ∀ x, ∀ rest, (mark :: s).compareLex cmp (code x ++ rest) = .lt)
    (hafter : ∀ x, ∀ rest, (code x ++ rest).compareLex cmp (mark :: t) = .gt)
    (hwidth : ∀ x y, (code x).length = (code y).length) (hcode : ∀ x y, (code x).compareLex cmp (code y) = cmp' x y) :
    (a.flatMap code ++ mark :: s).compareLex cmp (b.flatMap code ++ mark :: t) =
      (a.compareLex cmp' b).then (s.compareLex cmp t) := by
  induction a generalizing b with
  | nil =>
    cases b with
    | nil =>
      rw [List.flatMap_nil, List.nil_append, List.nil_append, List.compareLex_cons_cons, hmark]
      rfl
    | cons y b =>
      rw [List.flatMap_nil, List.nil_append, List.flatMap_cons, List.append_assoc, hbefore]
      rfl
  | cons x a ih =>
    cases b with
    | nil =>
      rw [List.flatMap_nil, List.nil_append, List.flatMap_cons, List.append_assoc, hafter]
      rfl
    | cons y b =>
      rw [List.flatMap_cons, List.flatMap_cons, List.append_assoc, List.append_assoc,
        compareLex_append (hwidth x y), hcode, ih, List.compareLex_cons_cons, Ordering.then_assoc]

section Digits

variable {base : Nat}

def digits (base n : Nat) : List Nat := if n = 0 then [0] else (Nat.digits base n).reverse

def padStart (width : Nat) (fill : α) (text : List α) : List α := List.replicate (width - text.length) fill ++ text

/-- The last `width` digits of a number. -/
def lastDigits (base : Nat) : Nat → Nat → List Nat
  | 0, _ => []
  | width + 1, n => lastDigits base width (n / base) ++ [n % base]

theorem length_lastDigits (width n : Nat) : (lastDigits base width n).length = width := by
  induction width generalizing n with
  | zero => rfl
  | succ width ih => rw [lastDigits, List.length_append, ih, List.length_singleton]

variable {width n : Nat}

theorem lt_of_mem_lastDigits (hbase : 0 < base) {d : Nat} (h : d ∈ lastDigits base width n) : d < base := by
  induction width generalizing n with
  | zero => cases h
  | succ width ih =>
    rcases List.mem_append.mp h with h | h
    · exact ih h
    · rw [List.mem_singleton.mp h]
      exact Nat.mod_lt n hbase

theorem replicate_zero_lastDigits (width : Nat) : List.replicate width 0 = lastDigits base width 0 := by
  induction width with
  | zero => rfl
  | succ width ih => rw [List.replicate_succ', ih, lastDigits, Nat.zero_div, Nat.zero_mod]

theorem pad_digits (hbase : 1 < base) (hn : n < base ^ width) :
    List.replicate (width - (Nat.digits base n).length) 0 ++ (Nat.digits base n).reverse = lastDigits base width n := by
  induction width generalizing n with
  | zero =>
    rw [Nat.pow_zero, Nat.lt_one_iff] at hn
    subst hn
    rw [Nat.digits_zero]
    rfl
  | succ width ih =>
    rcases Nat.eq_zero_or_pos n with rfl | hpos
    · rw [Nat.digits_zero, List.reverse_nil, List.append_nil, List.length_nil, Nat.sub_zero, replicate_zero_lastDigits]
    · have hrest : n / base < base ^ width := by
        rw [Nat.div_lt_iff_lt_mul (by omega), ← Nat.pow_succ]
        exact hn
      rw [Nat.digits_def' hbase hpos, List.length_cons, Nat.add_sub_add_right, List.reverse_cons, ← List.append_assoc,
        ih hrest, lastDigits]

theorem padStart_digits (hbase : 1 < base) (hwidth : 0 < width) (hn : n < base ^ width) :
    padStart width 0 (digits base n) = lastDigits base width n := by
  rw [padStart, digits]
  split
  · next hzero =>
      subst hzero
      obtain ⟨width, rfl⟩ := Nat.exists_eq_succ_of_ne_zero (by omega : width ≠ 0)
      rw [List.length_singleton, Nat.succ_sub_one, ← List.replicate_succ', replicate_zero_lastDigits]
  · rw [List.length_reverse, pad_digits hbase hn]

theorem compare_div_mod (base m n : Nat) :
    (compare (m / base) (n / base)).then (compare (m % base) (n % base)) = compare m n := by
  have hm := Nat.div_add_mod m base
  have hn := Nat.div_add_mod n base
  rcases Nat.lt_trichotomy (m / base) (n / base) with hlt | heq | hgt
  · have hless : m < n := Nat.lt_of_div_lt_div hlt
    rw [Nat.compare_eq_lt.mpr hlt, Nat.compare_eq_lt.mpr hless]
    rfl
  · rw [Nat.compare_eq_eq.mpr heq, Ordering.eq_then]
    rw [heq] at hm
    rcases Nat.lt_trichotomy (m % base) (n % base) with hlt | hsame | hgt
    · rw [Nat.compare_eq_lt.mpr hlt, Nat.compare_eq_lt.mpr (by omega)]
    · rw [Nat.compare_eq_eq.mpr hsame, Nat.compare_eq_eq.mpr (by omega)]
    · rw [Nat.compare_eq_gt.mpr hgt, Nat.compare_eq_gt.mpr (by omega)]
  · have hless : n < m := Nat.lt_of_div_lt_div hgt
    rw [Nat.compare_eq_gt.mpr hgt, Nat.compare_eq_gt.mpr hless]
    rfl

theorem compareLex_lastDigits (hbase : 0 < base) {m : Nat} (hm : m < base ^ width) (hn : n < base ^ width) :
    (lastDigits base width m).compareLex compare (lastDigits base width n) = compare m n := by
  induction width generalizing m n with
  | zero =>
    rw [Nat.pow_zero, Nat.lt_one_iff] at hm hn
    subst hm hn
    rfl
  | succ width ih =>
    have hdiv : ∀ {k}, k < base ^ (width + 1) → k / base < base ^ width := by
      intro k hk
      rw [Nat.div_lt_iff_lt_mul hbase, ← Nat.pow_succ]
      exact hk
    rw [lastDigits, lastDigits, compareLex_append (by rw [length_lastDigits, length_lastDigits]), ih (hdiv hm) (hdiv hn),
      List.compareLex_cons_cons, List.compareLex_nil_nil, Ordering.then_eq, compare_div_mod]

end Digits

end Lexicographic
