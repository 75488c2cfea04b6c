import Mathlib.Algebra.GroupWithZero.Nat
import Mathlib.Algebra.BigOperators.Group.List.Basic

namespace WordWrapping

section

variable {α : Type*} (width : α → Nat) (space : α → Bool)

def total (cells : List α) : Nat := (cells.map width).sum

/-- A word of a text: what stands between blanks, or the ends of the text. -/
structure WordAt (whole left word right : List α) : Prop where
  whole : whole = left ++ word ++ right
  solid : ∀ cell ∈ word, space cell = false
  before : ∀ cell, left.getLast? = some cell → space cell = true
  after : ∀ cell, right.head? = some cell → space cell = true

/-- Where a line may begin: at the start of the text, after a blank, or inside of a word that is wider than a line. -/
inductive Seam (limit : Nat) (whole : List α) : List α → Prop
  | start : Seam limit whole []
  | blank {left : List α} {cell : α} : left.getLast? = some cell → space cell = true → Seam limit whole left
  | word {left front back right : List α} : WordAt space whole left (front ++ back) right →
      limit < total width (front ++ back) → Seam limit whole (left ++ front)

/-- A part of a text, up to some place, in lines: each fits, begins at a seam, and is followed by blanks that are in no line. -/
inductive Laid (limit : Nat) (whole : List α) : List α → List (List α) → Prop
  | start {gap : List α} : (∀ cell ∈ gap, space cell = true) → Laid limit whole gap []
  | line {done line gap : List α} {lines : List (List α)} : Laid limit whole done lines → Seam width space limit whole done →
      total width line ≤ limit → (∀ cell ∈ gap, space cell = true) →
      Laid limit whole (done ++ line ++ gap) (lines ++ [line])

end

section Facts

variable {α : Type*} {width : α → Nat} {space : α → Bool} {limit : Nat} {whole done : List α} {lines : List (List α)}

@[simp] theorem total_nil : total width ([] : List α) = 0 := rfl

@[simp] theorem total_append (cells others : List α) : total width (cells ++ others) = total width cells + total width others := by
  rw [total, List.map_append, List.sum_append]
  rfl

@[simp] theorem total_cons (cell : α) (cells : List α) : total width (cell :: cells) = width cell + total width cells := by
  rw [total, List.map_cons, List.sum_cons]
  rfl

theorem Laid.fits (h : Laid width space limit whole done lines) : ∀ line ∈ lines, total width line ≤ limit := by
  induction h with
  | start _ => exact nofun
  | line _ _ hfits _ ih =>
    intro line hline
    rcases List.mem_append.mp hline with hbefore | hlast
    · exact ih line hbefore
    · rwa [List.mem_singleton.mp hlast]

theorem filter_blanks {gap : List α} (h : ∀ cell ∈ gap, space cell = true) : gap.filter (fun cell => !space cell) = [] := by
  refine List.filter_eq_nil_iff.mpr fun cell hcell => ?_
  rw [h cell hcell]
  exact Bool.false_ne_true

theorem Laid.kept (h : Laid width space limit whole done lines) :
    lines.flatten.filter (fun cell => !space cell) = done.filter fun cell => !space cell := by
  induction h with
  | start hgap => exact (filter_blanks hgap).symm
  | line _ _ _ hgap ih =>
    rw [List.flatten_append, List.filter_append, ih, List.flatten_singleton, List.filter_append, List.filter_append,
      filter_blanks hgap, List.append_nil]

end Facts

end WordWrapping
