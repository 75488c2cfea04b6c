import Mathlib.Data.List.Basic

namespace Substrings

variable {α : Type} [DecidableEq α]

def find (pattern : List α) : List α → Option Nat
  | [] => if pattern = [] then some 0 else none
  | x :: text => if pattern.isPrefixOf (x :: text) then some 0 else (find pattern text).map (· + 1)

def indexOf (text pattern : List α) (position : Nat) : Option Nat :=
  (find pattern (text.drop position)).map (· + position)

/-- The pieces of a text between the separators found from the left, `fuel` of them at most. -/
def splitFrom (separator : List α) : Nat → List α → List (List α)
  | 0, text => [text]
  | fuel + 1, text =>
    match find separator text with
    | none => [text]
    | some i => text.take i :: splitFrom separator fuel (text.drop (i + separator.length))

def split (text separator : List α) : List (List α) := splitFrom separator text.length text

section Specification

variable {α : Type}

def Absent (pattern text : List α) : Prop := ∀ before after, text ≠ before ++ pattern ++ after

structure First (pattern text before after : List α) : Prop where
  eq : text = before ++ pattern ++ after
  first : ∀ other rest, text = other ++ pattern ++ rest → before.length ≤ other.length

/-- A text is cut at the only place of a pattern, places that overlap counted. -/
structure Only (pattern text before after : List α) : Prop where
  eq : text = before ++ pattern ++ after
  only : ∀ other rest, text = other ++ pattern ++ rest → other = before

/-- The pieces of a text between the places of a pattern that do not overlap, from the left. -/
inductive Pieces (pattern : List α) : List α → List (List α) → Prop
  | last {text} (h : Absent pattern text) : Pieces pattern text [text]
  | next {text before after pieces} (h : First pattern text before after) (rest : Pieces pattern after pieces) :
      Pieces pattern text (before :: pieces)

/-- Every place of a pattern that does not overlap one before it is replaced, and nothing else. -/
def Replaced (pattern other text result : List α) : Prop :=
  ∃ pieces, Pieces pattern text pieces ∧ result = other.intercalate pieces

variable {pattern text before after : List α}

theorem Only.first (h : Only pattern text before after) : First pattern text before after := by
  refine ⟨h.eq, fun other rest heq => ?_⟩
  exact Nat.le_of_eq (congrArg List.length (h.only other rest heq)).symm

theorem First.unique {before' after' : List α} (h : First pattern text before after)
    (h' : First pattern text before' after') : before = before' ∧ after = after' := by
  have hlength : before.length = before'.length := Nat.le_antisymm (h.first _ _ h'.eq) (h'.first _ _ h.eq)
  have heq : before ++ (pattern ++ after) = before' ++ (pattern ++ after') := by
    rw [← List.append_assoc, ← List.append_assoc, ← h.eq, ← h'.eq]
  obtain ⟨hbefore, hrest⟩ := List.append_inj heq hlength
  exact ⟨hbefore, List.append_cancel_left hrest⟩

theorem cut_eq (h : text = before ++ pattern ++ after) :
    text.take before.length = before ∧ text.drop (before.length + pattern.length) = after := by
  subst h
  constructor
  · rw [List.append_assoc, List.take_left]
  · rw [← List.length_append, List.drop_left]

end Specification

section Finding

variable {pattern text : List α}

theorem find_none (h : find pattern text = none) : Absent pattern text := by
  induction text with
  | nil =>
    intro before after heq
    rw [find] at h
    have hpattern : pattern = [] := by
      have happend := List.append_eq_nil_iff.mp heq.symm
      exact (List.append_eq_nil_iff.mp happend.1).2
    rw [if_pos hpattern] at h
    exact Option.some_ne_none 0 h
  | cons x text ih =>
    rw [find] at h
    by_cases hinit : pattern.isPrefixOf (x :: text) = true
    · rw [if_pos hinit] at h
      exact absurd h (Option.some_ne_none 0)
    · rw [if_neg hinit] at h
      intro before after heq
      cases before with
      | nil =>
        have hhead : pattern <+: x :: text := ⟨after, heq.symm⟩
        exact hinit (List.isPrefixOf_iff_prefix.mpr hhead)
      | cons y before =>
        have htail : text = before ++ pattern ++ after := (List.cons.inj heq).2
        exact ih (Option.map_eq_none_iff.mp h) before after htail

theorem find_some {i : Nat} (h : find pattern text = some i) :
    ∃ before after, before.length = i ∧ First pattern text before after := by
  induction text generalizing i with
  | nil =>
    rw [find] at h
    by_cases hpattern : pattern = []
    · rw [if_pos hpattern] at h
      refine ⟨[], [], Option.some.inj h, ?_, fun _ _ _ => Nat.zero_le _⟩
      rw [hpattern]
      rfl
    · rw [if_neg hpattern] at h
      exact absurd h.symm (Option.some_ne_none i)
  | cons x text ih =>
    rw [find] at h
    by_cases hinit : pattern.isPrefixOf (x :: text) = true
    · rw [if_pos hinit] at h
      obtain ⟨after, hafter⟩ := List.isPrefixOf_iff_prefix.mp hinit
      exact ⟨[], after, Option.some.inj h, hafter.symm, fun _ _ _ => Nat.zero_le _⟩
    · rw [if_neg hinit] at h
      obtain ⟨j, hfind, rfl⟩ := Option.map_eq_some_iff.mp h
      obtain ⟨before, after, hlength, hfirst⟩ := ih hfind
      refine ⟨x :: before, after, congrArg (· + 1) hlength, congrArg (x :: ·) hfirst.eq, fun other rest heq => ?_⟩
      cases other with
      | nil => exact absurd (List.isPrefixOf_iff_prefix.mpr ⟨rest, heq.symm⟩) hinit
      | cons y other =>
        have htail := hfirst.first other rest (List.cons.inj heq).2
        exact Nat.succ_le_succ htail

theorem find_of_first {before after : List α} (h : First pattern text before after) :
    find pattern text = some before.length := by
  cases hfind : find pattern text with
  | none => exact absurd h.eq (find_none hfind before after)
  | some i =>
    obtain ⟨before', after', hlength, hfirst⟩ := find_some hfind
    rw [← hlength, (hfirst.unique h).1]

end Finding

section Splitting

variable {separator : List α}

theorem pieces_splitFrom (hne : separator ≠ []) (fuel : Nat) {text : List α}
    (hfuel : text.length ≤ fuel) : Pieces separator text (splitFrom separator fuel text) := by
  induction fuel generalizing text with
  | zero =>
    have htext : text = [] := List.length_eq_zero_iff.mp (Nat.le_zero.mp hfuel)
    refine Pieces.last fun before after heq => hne ?_
    rw [htext] at heq
    exact (List.append_eq_nil_iff.mp (List.append_eq_nil_iff.mp heq.symm).1).2
  | succ fuel ih =>
    rw [splitFrom]
    cases hfind : find separator text with
    | none => exact Pieces.last (find_none hfind)
    | some i =>
      obtain ⟨before, after, rfl, hfirst⟩ := find_some hfind
      obtain ⟨hbefore, hafter⟩ := cut_eq hfirst.eq
      have hlength : text.length = before.length + separator.length + after.length := by
        rw [hfirst.eq, List.length_append, List.length_append]
      have hpos : 0 < separator.length := List.length_pos_iff.mpr hne
      dsimp only
      rw [hbefore, hafter]
      exact Pieces.next hfirst (ih (by omega))

theorem pieces_split (hne : separator ≠ []) (text : List α) : Pieces separator text (split text separator) :=
  pieces_splitFrom hne text.length (Nat.le_refl _)

end Splitting

section Places

theorem only_iff {pattern text before after : List α} (h : First pattern text before after)
    (hnext : indexOf text pattern (before.length + pattern.length) = none) :
    Only pattern text before after ↔
      ∀ k, 0 < k → k < pattern.length → ¬pattern <+: text.drop (before.length + k) := by
  constructor
  · intro honly k hpos hlt hinit
    obtain ⟨rest, hrest⟩ := hinit
    have heq : text = text.take (before.length + k) ++ pattern ++ rest := by
      rw [List.append_assoc, hrest, List.take_append_drop]
    have hplace := congrArg List.length (honly.only _ _ heq)
    have hle : before.length + k ≤ text.length := by
      by_contra hbeyond
      rw [List.drop_eq_nil_of_le (by omega)] at hrest
      have hpattern := congrArg List.length (List.append_eq_nil_iff.mp hrest).1
      rw [List.length_nil] at hpattern
      omega
    rw [List.length_take] at hplace
    omega
  · intro hnone
    refine ⟨h.eq, fun other rest heq => ?_⟩
    have hle := h.first other rest heq
    have hdrop : text.drop other.length = pattern ++ rest := by
      rw [heq, List.append_assoc, List.drop_left]
    obtain ⟨k, hk⟩ := Nat.exists_eq_add_of_le hle
    rcases Nat.eq_zero_or_pos k with hzero | hpos
    · have hlength : before.length = other.length := by omega
      have hboth : before ++ (pattern ++ after) = other ++ (pattern ++ rest) := by
        rw [← List.append_assoc, ← List.append_assoc, ← h.eq, ← heq]
      exact (List.append_inj hboth hlength).1.symm
    · by_cases hlt : k < pattern.length
      · refine absurd ⟨rest, ?_⟩ (hnone k hpos hlt)
        rw [← hk, hdrop]
      · have habsent := find_none (Option.map_eq_none_iff.mp hnext)
        have hafter : text.drop (before.length + pattern.length) =
            other.drop (before.length + pattern.length) ++ pattern ++ rest := by
          rw [heq, List.append_assoc, List.drop_append_of_le_length (by omega), ← List.append_assoc]
        exact absurd hafter (habsent _ _)

end Places

section Pieces

variable {α : Type*} [DecidableEq α]

theorem notMem_of_mem_splitOn {sep : α} {xs part : List α} (h : part ∈ xs.splitOn sep) :
    sep ∉ part := by
  rw [List.splitOn_eq_splitOnP] at h
  induction xs generalizing part with
  | nil =>
    rw [List.splitOnP_nil, List.mem_singleton] at h
    simp [h]
  | cons x xs ih =>
    rw [List.splitOnP_cons_eq_if_modifyHead] at h
    split at h
    · next hsep =>
        rcases List.mem_cons.mp h with rfl | hrest
        · simp
        · exact ih hrest
    · next hsep =>
        cases hparts : xs.splitOnP (· == sep) with
        | nil => exact absurd hparts (List.splitOnP_ne_nil _ _)
        | cons first rest =>
          rw [hparts] at h ih
          rcases List.mem_cons.mp h with rfl | hrest
          · rw [List.mem_cons, not_or]
            exact ⟨fun heq => hsep (by simp [heq]), ih (by simp)⟩
          · exact ih (by simp [hrest])

end Pieces

end Substrings
