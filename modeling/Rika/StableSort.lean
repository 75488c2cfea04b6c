import Mathlib.Data.List.Sort
import Mathlib.Algebra.Order.Field.Rat
import Mathlib.Order.Std

/-- A language-sensitive order of text, such as a locale's or a database's. It
is consistent; distinct texts may compare equal. -/
structure Collation where
  compare : String → String → Ordering
  trans : Std.TransCmp compare

namespace Collation

instance (collation : Collation) : Std.TransCmp collation.compare := collation.trans

def codePoint : Collation := ⟨fun left right => Ord.compare left right, inferInstance⟩

end Collation

namespace StableSort

variable {α : Type*}

/-- The stable sort of `Array.prototype.toSorted`. -/
def toSorted (compare : α → α → Ordering) (xs : List α) : List α :=
  xs.insertionSort (fun left right => (compare left right).isLE = true)

def Sorted (compare : α → α → Ordering) (xs : List α) : Prop :=
  xs.Pairwise (fun left right => (compare left right).isLE = true)

section

variable (compare : α → α → Ordering)

theorem toSorted_perm (xs : List α) : (toSorted compare xs).Perm xs := List.perm_insertionSort _ xs

variable {xs ys : List α}

@[simp] theorem mem_toSorted {x : α} : x ∈ toSorted compare xs ↔ x ∈ xs :=
  List.mem_insertionSort _

@[simp] theorem toSorted_nil : toSorted compare [] = [] := rfl

variable {compare}

instance compareOn_trans {β : Type*} (f : α → β) (compare : β → β → Ordering) [Std.TransCmp compare] :
    Std.TransCmp (fun left right => compare (f left) (f right)) where
  eq_swap := Std.OrientedCmp.eq_swap
  isLE_trans := Std.TransCmp.isLE_trans

theorem toSorted_of_sorted (h : Sorted compare xs) : toSorted compare xs = xs :=
  h.insertionSort_eq

theorem toSorted_map {β : Type*} (compare' : β → β → Ordering) (f : α → β) (xs : List α)
    (h : ∀ left right, compare' (f left) (f right) = compare left right) :
    toSorted compare' (xs.map f) = (toSorted compare xs).map f := by
  refine (List.map_insertionSort _ _ f xs ?_).symm
  intro left _ right _
  rw [h]

theorem filter_toSorted {p : α → Bool} (xs : List α)
    (h : ∀ left right, p left = true → p right = true → (compare left right).isLE = true) :
    (toSorted compare xs).filter p = xs.filter p := by
  have hsorted : Sorted compare (xs.filter p) := by
    rw [Sorted, List.pairwise_filter]
    exact List.pairwise_of_forall h
  have hsub : (xs.filter p).Sublist (toSorted compare xs) := List.sublist_insertionSort hsorted List.filter_sublist
  have hfilter : (xs.filter p).Sublist ((toSorted compare xs).filter p) := by
    have := hsub.filter p
    rwa [List.filter_filter, List.filter_congr (q := p) (by simp)] at this
  exact (hfilter.eq_of_length ((toSorted_perm compare xs).filter p).length_eq.symm).symm

theorem eq_of_filter_eq {κ : Type*} [PartialOrder κ] [DecidableEq κ] (key : α → κ)
    (hxs : xs.Pairwise fun left right => key left ≤ key right) (hys : ys.Pairwise fun left right => key left ≤ key right)
    (h : ∀ k, (xs.filter fun x => key x = k) = ys.filter fun y => key y = k) : xs = ys := by
  induction xs generalizing ys with
  | nil =>
    cases ys with
    | nil => rfl
    | cons y ys => simpa using h (key y)
  | cons x xs ih =>
    have hx : x ∈ ys := by
      have : x ∈ (x :: xs).filter fun other => key other = key x := by simp
      rw [h] at this
      exact List.mem_of_mem_filter this
    cases ys with
    | nil => cases hx
    | cons y ys =>
      have hy : y ∈ x :: xs := by
        have : y ∈ (y :: ys).filter fun other => key other = key y := by simp
        rw [← h] at this
        exact List.mem_of_mem_filter this
      have hkey : key x = key y := by
        apply le_antisymm
        · rcases List.mem_cons.mp hy with rfl | hmem
          · exact le_rfl
          · exact List.rel_of_pairwise_cons hxs hmem
        · rcases List.mem_cons.mp hx with rfl | hmem
          · exact le_rfl
          · exact List.rel_of_pairwise_cons hys hmem
      have hheads := h (key x)
      rw [List.filter_cons_of_pos (by simp), List.filter_cons_of_pos (by simp [hkey]), List.cons.injEq] at hheads
      obtain ⟨rfl, hrest⟩ := hheads
      refine congrArg (x :: ·) (ih hxs.tail hys.tail fun k => ?_)
      have hk := h k
      by_cases hof : key x = k
      · rw [← hof]
        exact hrest
      · rwa [List.filter_cons_of_neg (by simpa using hof), List.filter_cons_of_neg (by simpa using hof)] at hk

theorem eq_of_perm_of_sorted [Std.OrientedCmp compare] (h : xs.Perm ys) (hxs : Sorted compare xs)
    (hys : Sorted compare ys) (heq : ∀ x ∈ xs, ∀ y ∈ xs, compare x y = .eq → x = y) : xs = ys := by
  refine List.Perm.eq_of_pairwise ?_ hxs hys h
  intro x y hx hy hle hge
  refine heq x hx y (h.mem_iff.mpr hy) ?_
  have hswap : compare y x = (compare x y).swap := Std.OrientedCmp.eq_swap
  rw [hswap] at hge
  cases hxy : compare x y with
  | eq => rfl
  | lt => simp [hxy] at hge
  | gt => simp [hxy] at hle

variable [Std.TransCmp compare]

theorem toSorted_sorted (xs : List α) : Sorted compare (toSorted compare xs) := by
  have htotal : Std.Total (fun left right : α => (compare left right).isLE = true) :=
    ⟨fun left right => by
      cases h : (compare left right).isLE with
      | true => exact .inl rfl
      | false =>
        right
        have hswap : compare right left = (compare left right).swap := Std.OrientedCmp.eq_swap
        rw [hswap]
        revert h
        cases compare left right <;> simp⟩
  have htrans : IsTrans α (fun left right => (compare left right).isLE = true) :=
    ⟨fun _ _ _ h₁ h₂ => Std.TransCmp.isLE_trans h₁ h₂⟩
  exact List.pairwise_insertionSort _ xs

theorem toSorted_eq_of_perm (h : xs.Perm ys)
    (heq : ∀ x ∈ xs, ∀ y ∈ xs, compare x y = .eq → x = y) : toSorted compare xs = toSorted compare ys := by
  have hperm := ((toSorted_perm compare xs).trans h).trans (toSorted_perm compare ys).symm
  exact eq_of_perm_of_sorted hperm (toSorted_sorted xs) (toSorted_sorted ys) fun x hx y hy =>
    heq x (mem_toSorted compare |>.mp hx) y (mem_toSorted compare |>.mp hy)

theorem toSorted_swap (heq : ∀ x ∈ xs, ∀ y ∈ xs, compare x y = .eq → x = y) :
    toSorted (fun left right => compare right left) xs = (toSorted compare xs).reverse := by
  have hperm : (toSorted (fun left right => compare right left) xs).Perm (toSorted compare xs).reverse :=
    ((toSorted_perm _ xs).trans (toSorted_perm compare xs).symm).trans (List.reverse_perm _).symm
  have : Std.TransCmp fun left right => compare right left := Std.TransCmp.opposite
  refine eq_of_perm_of_sorted hperm (toSorted_sorted xs) (List.pairwise_reverse.mpr (toSorted_sorted xs)) ?_
  intro x hx y hy hxy
  exact (heq y ((mem_toSorted _).mp hy) x ((mem_toSorted _).mp hx) hxy).symm

theorem toSorted_filter (p : α → Bool) (heq : ∀ x ∈ xs, ∀ y ∈ xs, compare x y = .eq → x = y) :
    toSorted compare (xs.filter p) = (toSorted compare xs).filter p := by
  have hperm : (toSorted compare (xs.filter p)).Perm ((toSorted compare xs).filter p) :=
    (toSorted_perm compare _).trans ((toSorted_perm compare xs).filter p).symm
  have hsorted : Sorted compare ((toSorted compare xs).filter p) := (toSorted_sorted xs).filter p
  refine eq_of_perm_of_sorted hperm (toSorted_sorted _) hsorted ?_
  intro x hx y hy hxy
  simp only [mem_toSorted, List.mem_filter] at hx hy
  exact heq x hx.1 y hy.1 hxy

@[simp] theorem toSorted_toSorted (xs : List α) :
    toSorted compare (toSorted compare xs) = toSorted compare xs :=
  toSorted_of_sorted (toSorted_sorted xs)

end

end StableSort
