import Mathlib.Data.List.Infix

namespace LongestPrefix

variable {α : Type*} {pass : List α → Prop} {xs kept : List α}

def Passes (pass : List α → Prop) (kept : List α) : Prop := ∀ part, part <+: kept → part ≠ [] → pass part

/-- What is kept of a list by taking items as long as what is taken passes. -/
structure Longest (pass : List α → Prop) (xs kept : List α) : Prop where
  initial : kept <+: xs
  passes : Passes pass kept
  stops : ∀ next, kept ++ [next] <+: xs → ¬ pass (kept ++ [next])

theorem passes_nil : Passes pass [] := by
  intro part hpart hne
  exact absurd (List.prefix_nil.mp hpart) hne

theorem Passes.concat {next : α} (h : Passes pass kept) (hnext : pass (kept ++ [next])) : Passes pass (kept ++ [next]) := by
  intro part hpart hne
  rcases List.prefix_concat_iff.mp hpart with hpart | hpart
  · exact hpart ▸ hnext
  · exact h part hpart hne

theorem Passes.self (h : Passes pass kept) (hne : kept ≠ []) : pass kept := h kept List.prefix_rfl hne

theorem Passes.longest (h : Passes pass xs) : Longest pass xs xs where
  initial := List.prefix_rfl
  passes := h
  stops := by
    intro next hnext
    have hlength := hnext.length_le
    rw [List.length_append, List.length_singleton] at hlength
    omega

theorem Passes.stop {next : α} {rest : List α} (h : Passes pass kept) (hnext : ¬ pass (kept ++ [next])) :
    Longest pass (kept ++ next :: rest) kept where
  initial := List.prefix_append _ _
  passes := h
  stops := by
    intro other hother
    rw [List.prefix_append_right_inj, List.cons_prefix_cons] at hother
    rwa [hother.1]

theorem Longest.le {other : List α} (h : Longest pass xs kept) (hother : Longest pass xs other) : other.length ≤ kept.length := by
  by_contra hlt
  have hinit : kept <+: other := List.prefix_of_prefix_length_le h.initial hother.initial (by omega)
  obtain ⟨rest, rfl⟩ := hinit
  cases rest with
  | nil => simp at hlt
  | cons next rest =>
    have hnext : kept ++ [next] <+: kept ++ next :: rest := ⟨rest, by rw [List.append_assoc]; rfl⟩
    exact h.stops next (hnext.trans hother.initial) (hother.passes _ hnext (by simp))

theorem Longest.unique {other : List α} (h : Longest pass xs kept) (hother : Longest pass xs other) : kept = other := by
  have hlength : kept.length = other.length := le_antisymm (hother.le h) (h.le hother)
  exact (List.prefix_of_prefix_length_le h.initial hother.initial hlength.le).eq_of_length hlength

end LongestPrefix
