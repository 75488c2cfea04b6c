import Rika.StableSort

namespace KeysetPages

variable {α : Type*} {compare : α → α → Ordering}

def Ascending (compare : α → α → Ordering) (xs : List α) : Prop := xs.Pairwise fun left right => compare left right = .lt

theorem ascending_toSorted [Std.TransCmp compare] {xs : List α} (hnodup : xs.Nodup)
    (heq : ∀ x ∈ xs, ∀ y ∈ xs, compare x y = .eq → x = y) : Ascending compare (StableSort.toSorted compare xs) := by
  have hsorted : StableSort.Sorted compare (StableSort.toSorted compare xs) := StableSort.toSorted_sorted xs
  have hdistinct : (StableSort.toSorted compare xs).Nodup := (StableSort.toSorted_perm compare xs).nodup_iff.mpr hnodup
  rw [Ascending]
  refine (hsorted.and hdistinct).imp_of_mem fun {left right} hleft hright h => ?_
  rw [StableSort.mem_toSorted] at hleft hright
  cases hcompare : compare left right with
  | lt => rfl
  | eq => exact absurd (heq left hleft right hright hcompare) h.2
  | gt => simp [hcompare] at h

variable [Std.OrientedCmp compare]

theorem not_lt_self (x : α) : compare x x ≠ .lt := by
  have hself : compare x x = .eq := Std.ReflCmp.compare_self
  rw [hself]
  exact Ordering.noConfusion

theorem not_lt_of_lt {x y : α} (h : compare x y = .lt) : compare y x ≠ .lt := by
  have hswap : compare y x = (compare x y).swap := Std.OrientedCmp.eq_swap
  rw [hswap, h]
  exact Ordering.noConfusion

theorem filter_after {taken rest : List α} {last : α} (h : Ascending compare (taken ++ rest))
    (hlast : taken.getLast? = some last) : (taken ++ rest).filter (fun x => compare last x = .lt) = rest := by
  obtain ⟨hbefore, -, hacross⟩ := List.pairwise_append.mp h
  have hmem : last ∈ taken := List.mem_of_getLast? hlast
  have htaken : taken.filter (fun x => compare last x = .lt) = [] := by
    rw [List.filter_eq_nil_iff]
    intro x hx
    rw [decide_eq_true_iff]
    obtain ⟨earlier, rfl⟩ := List.getLast?_eq_some_iff.mp hlast
    rcases List.mem_append.mp hx with hx | hx
    · exact not_lt_of_lt ((List.pairwise_append.mp hbefore).2.2 x hx last List.mem_cons_self)
    · rw [List.mem_singleton.mp hx]
      exact not_lt_self last
  have hrest : rest.filter (fun x => compare last x = .lt) = rest :=
    List.filter_eq_self.mpr fun x hx => decide_eq_true (hacross last hmem x hx)
  rw [List.filter_append, htaken, hrest, List.nil_append]

theorem filter_before {earlier taken : List α} {first : α} (h : Ascending compare (earlier ++ taken))
    (hfirst : taken.head? = some first) : (earlier ++ taken).filter (fun x => compare x first = .lt) = earlier := by
  obtain ⟨-, hafter, hacross⟩ := List.pairwise_append.mp h
  have hmem : first ∈ taken := List.mem_of_head? hfirst
  have htaken : taken.filter (fun x => compare x first = .lt) = [] := by
    rw [List.filter_eq_nil_iff]
    intro x hx
    rw [decide_eq_true_iff]
    obtain ⟨later, rfl⟩ := List.head?_eq_some_iff.mp hfirst
    rcases List.mem_cons.mp hx with hx | hx
    · rw [hx]
      exact not_lt_self first
    · exact not_lt_of_lt (List.rel_of_pairwise_cons hafter hx)
  have hearlier : earlier.filter (fun x => compare x first = .lt) = earlier :=
    List.filter_eq_self.mpr fun x hx => decide_eq_true (hacross x hx first hmem)
  rw [List.filter_append, htaken, hearlier, List.append_nil]

section Merges

theorem Ascending.eq_of_compare {xs : List α} (h : Ascending compare xs) {x y : α} (hx : x ∈ xs) (hy : y ∈ xs)
    (heq : compare x y = .eq) : x = y := by
  induction xs with
  | nil => cases hx
  | cons first rest ih =>
    have hfirst : ∀ z ∈ rest, compare first z = .lt := fun z hz => List.rel_of_pairwise_cons h hz
    rcases List.mem_cons.mp hx with rfl | hxrest
    · rcases List.mem_cons.mp hy with rfl | hyrest
      · rfl
      · rw [hfirst y hyrest] at heq
        cases heq
    · rcases List.mem_cons.mp hy with rfl | hyrest
      · have hswap : compare x y = (compare y x).swap := Std.OrientedCmp.eq_swap
        rw [hswap, hfirst x hxrest] at heq
        cases heq
      · exact ih h.tail hxrest hyrest

omit [Std.OrientedCmp compare] in
theorem Ascending.sorted {xs : List α} (h : Ascending compare xs) : StableSort.Sorted compare xs :=
  h.imp fun hlt => by rw [hlt]; rfl

variable {left taken later added : List α} {first : α}

theorem mem_left_or_later (h : Ascending compare (left ++ (taken ++ later))) (hfirst : taken.head? = some first)
    {x : α} (hx : x ∈ left ++ (taken ++ later)) (hnew : x ∉ taken) :
    (x ∈ left ∧ compare x first = .lt) ∨ (x ∈ later ∧ compare x first ≠ .lt) := by
  have hmem : first ∈ taken := List.mem_of_head? hfirst
  obtain ⟨-, hrest, hacross⟩ := List.pairwise_append.mp h
  obtain ⟨-, -, hlater⟩ := List.pairwise_append.mp hrest
  rcases List.mem_append.mp hx with hx | hx
  · exact .inl ⟨hx, hacross x hx first (List.mem_append_left _ hmem)⟩
  · rcases List.mem_append.mp hx with hx | hx
    · exact absurd hx hnew
    · exact .inr ⟨hx, not_lt_of_lt (hlater first hmem x hx)⟩

omit [Std.OrientedCmp compare] in
theorem toSorted_around [Std.TransCmp compare] (h : Ascending compare (left ++ (taken ++ later))) (hfirst : taken.head? = some first)
    (hadded : Ascending compare added) (hmem : ∀ x ∈ added, x ∈ left ++ (taken ++ later)) (hnew : ∀ x ∈ added, x ∉ taken) :
    StableSort.toSorted compare (added ++ taken) =
      added.filter (fun x => compare x first = .lt) ++ (taken ++ added.filter fun x => !decide (compare x first = .lt)) := by
  obtain ⟨hleft, hrest, hacross⟩ := List.pairwise_append.mp h
  obtain ⟨htaken, hlater, hafter⟩ := List.pairwise_append.mp hrest
  have hbefore : ∀ x ∈ added.filter (fun x => compare x first = .lt), x ∈ left := by
    intro x hx
    obtain ⟨hx, hlt⟩ := List.mem_filter.mp hx
    rcases mem_left_or_later h hfirst (hmem x hx) (hnew x hx) with hside | hside
    · exact hside.1
    · exact absurd (of_decide_eq_true hlt) hside.2
  have hbehind : ∀ x ∈ added.filter (fun x => !decide (compare x first = .lt)), x ∈ later := by
    intro x hx
    obtain ⟨hx, hge⟩ := List.mem_filter.mp hx
    rcases mem_left_or_later h hfirst (hmem x hx) (hnew x hx) with hside | hside
    · simp [hside.2] at hge
    · exact hside.1
  have hall : Ascending compare
      (added.filter (fun x => compare x first = .lt) ++ (taken ++ added.filter fun x => !decide (compare x first = .lt))) := by
    refine List.pairwise_append.mpr ⟨hadded.filter _, List.pairwise_append.mpr ⟨htaken, hadded.filter _, ?_⟩, ?_⟩
    · exact fun x hx y hy => hafter x hx y (hbehind y hy)
    · intro x hx y hy
      refine hacross x (hbefore x hx) y ?_
      rcases List.mem_append.mp hy with hy | hy
      · exact List.mem_append_left _ hy
      · exact List.mem_append_right _ (hbehind y hy)
  have hperm : (added ++ taken).Perm
      (added.filter (fun x => compare x first = .lt) ++ (taken ++ added.filter fun x => !decide (compare x first = .lt))) := by
    refine ((List.filter_append_perm (fun x => decide (compare x first = .lt)) added).symm.append_right taken).trans ?_
    rw [List.append_assoc]
    exact List.perm_append_comm.append_left _
  refine StableSort.eq_of_perm_of_sorted ((StableSort.toSorted_perm compare _).trans hperm) (StableSort.toSorted_sorted _)
    hall.sorted ?_
  intro x hx y hy heq
  exact hall.eq_of_compare (hperm.mem_iff.mp ((StableSort.mem_toSorted compare).mp hx))
    (hperm.mem_iff.mp ((StableSort.mem_toSorted compare).mp hy)) heq

end Merges

end KeysetPages
