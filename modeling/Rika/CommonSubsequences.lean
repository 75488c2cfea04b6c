import Mathlib.Data.List.Basic

namespace CommonSubsequences

variable {α : Type*} {xs ys : List α} {x y : α} {m n : Nat}

structure Longest (xs ys : List α) (n : Nat) : Prop where
  reached : ∃ zs : List α, zs.Sublist xs ∧ zs.Sublist ys ∧ zs.length = n
  most : ∀ zs : List α, zs.Sublist xs → zs.Sublist ys → zs.length ≤ n

namespace Longest

theorem unique (h : Longest xs ys m) (h' : Longest xs ys n) : m = n := by
  obtain ⟨zs, hxs, hys, hlength⟩ := h.reached
  obtain ⟨zs', hxs', hys', hlength'⟩ := h'.reached
  have hle := h'.most zs hxs hys
  have hge := h.most zs' hxs' hys'
  omega

theorem symm (h : Longest xs ys n) : Longest ys xs n := by
  obtain ⟨zs, hxs, hys, hlength⟩ := h.reached
  exact ⟨⟨zs, hys, hxs, hlength⟩, fun zs' hys' hxs' => h.most zs' hxs' hys'⟩

theorem nil_left (ys : List α) : Longest [] ys 0 := by
  refine ⟨⟨[], List.nil_sublist _, List.nil_sublist _, rfl⟩, ?_⟩
  intro zs hzs _
  exact hzs.length_le

theorem nil_right (xs : List α) : Longest xs [] 0 := (nil_left xs).symm

theorem cons (h : Longest xs ys n) (x : α) : Longest (x :: xs) (x :: ys) (n + 1) := by
  obtain ⟨zs, hxs, hys, hlength⟩ := h.reached
  refine ⟨⟨x :: zs, hxs.cons_cons x, hys.cons_cons x, congrArg (· + 1) hlength⟩, ?_⟩
  intro zs' hxs' hys'
  have htail := h.most zs'.tail hxs'.tail hys'.tail
  rw [List.length_tail] at htail
  omega

theorem cons_of_ne (hne : x ≠ y) (hleft : Longest xs (y :: ys) m) (hright : Longest (x :: xs) ys n) :
    Longest (x :: xs) (y :: ys) (max m n) := by
  refine ⟨?_, ?_⟩
  · obtain ⟨zs, hxs, hys, hlength⟩ := hleft.reached
    obtain ⟨zs', hxs', hys', hlength'⟩ := hright.reached
    rcases Nat.le_total m n with hle | hle
    · exact ⟨zs', hxs', hys'.cons y, hlength'.trans (Nat.max_eq_right hle).symm⟩
    · exact ⟨zs, hxs.cons x, hys, hlength.trans (Nat.max_eq_left hle).symm⟩
  · intro zs hxs hys
    rcases List.sublist_cons_iff.mp hxs with hskip | ⟨rest, rfl, hrest⟩
    · exact Nat.le_trans (hleft.most zs hskip hys) (Nat.le_max_left m n)
    rcases List.sublist_cons_iff.mp hys with hskip | ⟨rest', heq, -⟩
    · exact Nat.le_trans (hright.most _ hxs hskip) (Nat.le_max_right m n)
    · exact absurd (List.cons.inj heq).1 hne

theorem reverse (h : Longest xs ys n) : Longest xs.reverse ys.reverse n := by
  obtain ⟨zs, hxs, hys, hlength⟩ := h.reached
  refine ⟨⟨zs.reverse, hxs.reverse, hys.reverse, by rw [List.length_reverse, hlength]⟩, ?_⟩
  intro zs' hxs' hys'
  rw [← List.length_reverse]
  exact h.most zs'.reverse (List.reverse_sublist.mp (by rwa [List.reverse_reverse]))
    (List.reverse_sublist.mp (by rwa [List.reverse_reverse]))

theorem append_left (zs : List α) (h : Longest xs ys n) : Longest (zs ++ xs) (zs ++ ys) (zs.length + n) := by
  induction zs with
  | nil => rwa [List.length_nil, Nat.zero_add]
  | cons z zs ih =>
    have hcons := ih.cons z
    rwa [List.length_cons, Nat.add_right_comm]

theorem append_right (zs : List α) (h : Longest xs ys n) : Longest (xs ++ zs) (ys ++ zs) (n + zs.length) := by
  have hreverse := (h.reverse.append_left zs.reverse).reverse
  rwa [← List.reverse_append, ← List.reverse_append, List.reverse_reverse, List.reverse_reverse, List.length_reverse,
    Nat.add_comm] at hreverse

end Longest

end CommonSubsequences
