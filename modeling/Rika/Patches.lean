import Mathlib.Data.List.Basic

namespace Patches

structure Sides (β α : Type*) where
  old : β → Bool
  new : β → Bool
  line : β → α

structure Hunk (β : Type*) where
  oldStart : Nat
  oldCount : Nat
  newStart : Nat
  newCount : Nat
  body : List β

/-- How many lines are before those that a hunk's header names; where it names none, it names the line before. -/
def linesBefore (start count : Nat) : Nat := if count = 0 then start else start - 1

def startAfter (before count : Nat) : Nat := if count = 0 then before else before + 1

@[simp] theorem linesBefore_startAfter (before count : Nat) : linesBefore (startAfter before count) count = before := by
  rw [linesBefore, startAfter]
  by_cases h : count = 0
  · rw [if_pos h, if_pos h]
  · rw [if_neg h, if_neg h, Nat.add_sub_cancel]

theorem startAfter_pos {before count : Nat} (h : count ≠ 0) : 0 < startAfter before count := by
  rw [startAfter, if_neg h]
  exact Nat.succ_pos before

variable {β α : Type*}

def Hunk.oldBefore (hunk : Hunk β) : Nat := linesBefore hunk.oldStart hunk.oldCount

def Hunk.newBefore (hunk : Hunk β) : Nat := linesBefore hunk.newStart hunk.newCount

/-- One hunk ends before another begins, in both texts. -/
structure Hunk.Precedes (hunk other : Hunk β) : Prop where
  old : hunk.oldBefore + hunk.oldCount ≤ other.oldBefore
  new : hunk.newBefore + hunk.newCount ≤ other.newBefore

namespace Sides

variable (s : Sides β α)

def oldSide (script : List β) : List α := (script.filter s.old).map s.line

def newSide (script : List β) : List α := (script.filter s.new).map s.line

/-- What a hunk's header says is what its body has, and the lines are at these places of the texts. -/
structure Describes (old new : List α) (hunk : Hunk β) : Prop where
  oldCount : hunk.oldCount = (s.oldSide hunk.body).length
  newCount : hunk.newCount = (s.newSide hunk.body).length
  oldStart : hunk.oldCount ≠ 0 → 0 < hunk.oldStart
  newStart : hunk.newCount ≠ 0 → 0 < hunk.newStart
  old : (old.drop hunk.oldBefore).take hunk.oldCount = s.oldSide hunk.body
  new : (new.drop hunk.newBefore).take hunk.newCount = s.newSide hunk.body

/-- Applies hunks to the lines left after `passed` of them, `made` lines made; one that does not fit there is refused. -/
def apply [DecidableEq α] : Nat → Nat → List α → List (Hunk β) → Option (List α)
  | _, _, lines, [] => some lines
  | passed, made, lines, hunk :: hunks =>
    let kept := hunk.oldBefore - passed
    let rest := lines.drop kept
    if passed ≤ hunk.oldBefore ∧ kept ≤ lines.length ∧ hunk.newBefore = made + kept ∧ rest.take hunk.oldCount = s.oldSide hunk.body then
      (apply (hunk.oldBefore + hunk.oldCount) (hunk.newBefore + hunk.newCount) (rest.drop hunk.oldCount) hunks).map
        (lines.take kept ++ s.newSide hunk.body ++ ·)
    else none

def hunk (script : List β) (slice : Nat × Nat) : Hunk β :=
  let before := script.take slice.1
  let body := (script.take slice.2).drop slice.1
  { oldStart := startAfter (s.oldSide before).length (s.oldSide body).length
    oldCount := (s.oldSide body).length
    newStart := startAfter (s.newSide before).length (s.newSide body).length
    newCount := (s.newSide body).length
    body := body }

/-- Slices of a script from a place on, with only lines of both texts around them. -/
inductive Cut (script : List β) : Nat → List (Nat × Nat) → Prop
  | nil {from' : Nat} : (∀ entry ∈ script.drop from', s.old entry = true ∧ s.new entry = true) → Cut script from' []
  | cons {from' start stop : Nat} {slices : List (Nat × Nat)} : from' ≤ start → start ≤ stop → stop ≤ script.length →
      (∀ entry ∈ (script.take start).drop from', s.old entry = true ∧ s.new entry = true) → Cut script stop slices →
      Cut script from' ((start, stop) :: slices)

theorem oldSide_append (script others : List β) : s.oldSide (script ++ others) = s.oldSide script ++ s.oldSide others := by
  rw [oldSide, List.filter_append, List.map_append]
  rfl

theorem newSide_append (script others : List β) : s.newSide (script ++ others) = s.newSide script ++ s.newSide others := by
  rw [newSide, List.filter_append, List.map_append]
  rfl

variable {script : List β} {start stop from' first last : Nat} {slices : List (Nat × Nat)}

theorem sides_kept (h : ∀ entry ∈ script, s.old entry = true ∧ s.new entry = true) : s.oldSide script = s.newSide script := by
  rw [oldSide, newSide, List.filter_eq_self.mpr fun entry hentry => (h entry hentry).1,
    List.filter_eq_self.mpr fun entry hentry => (h entry hentry).2]

section

variable (script : List β)

theorem oldBefore_hunk (slice : Nat × Nat) : (s.hunk script slice).oldBefore = (s.oldSide (script.take slice.1)).length :=
  linesBefore_startAfter _ _

theorem newBefore_hunk (slice : Nat × Nat) : (s.hunk script slice).newBefore = (s.newSide (script.take slice.1)).length :=
  linesBefore_startAfter _ _

theorem take_append_slice (h : start ≤ stop) :
    script.take start ++ (script.take stop).drop start = script.take stop := by
  have hmin : min start stop = start := Nat.min_eq_left h
  have htake : script.take start = (script.take stop).take start := by rw [List.take_take, hmin]
  rw [htake, List.take_append_drop]

theorem slice_append_drop (h : start ≤ stop) :
    (script.take stop).drop start ++ script.drop stop = script.drop start := by
  have hwhole : script.take start ++ ((script.take stop).drop start ++ script.drop stop) = script.take start ++ script.drop start := by
    rw [← List.append_assoc, take_append_slice script h, List.take_append_drop, List.take_append_drop]
  exact List.append_cancel_left hwhole

theorem describes_hunk (h : start ≤ stop) :
    s.Describes (s.oldSide script) (s.newSide script) (s.hunk script (start, stop)) := by
  have hscript : script.take start ++ ((script.take stop).drop start ++ script.drop stop) = script := by
    rw [slice_append_drop script h, List.take_append_drop]
  refine ⟨rfl, rfl, startAfter_pos, startAfter_pos, ?_, ?_⟩
  · rw [oldBefore_hunk]
    conv_lhs => rw [← hscript, oldSide_append, oldSide_append, hscript]
    rw [List.drop_left, hunk, List.take_left]
  · rw [newBefore_hunk]
    conv_lhs => rw [← hscript, newSide_append, newSide_append, hscript]
    rw [List.drop_left, hunk, List.take_left]

theorem hunk_ends (h : start ≤ stop) :
    (s.hunk script (start, stop)).oldBefore + (s.hunk script (start, stop)).oldCount = (s.oldSide (script.take stop)).length ∧
      (s.hunk script (start, stop)).newBefore + (s.hunk script (start, stop)).newCount = (s.newSide (script.take stop)).length := by
  rw [oldBefore_hunk, newBefore_hunk, ← take_append_slice script h, oldSide_append, newSide_append, List.length_append, List.length_append]
  exact ⟨rfl, rfl⟩

end

theorem apply_hunks [DecidableEq α] (h : s.Cut script from' slices) :
    s.apply (s.oldSide (script.take from')).length (s.newSide (script.take from')).length (s.oldSide (script.drop from'))
      (slices.map (s.hunk script)) = some (s.newSide (script.drop from')) := by
  induction h with
  | nil hkept => rw [List.map_nil, apply, s.sides_kept hkept]
  | @cons from' start stop slices hfrom hstart hstop hkept hcut ih =>
    have hgap := slice_append_drop script hfrom
    have hbody := slice_append_drop script hstart
    have hsame := s.sides_kept hkept
    generalize hgapEq : (script.take start).drop from' = gap at hgap hsame
    generalize hbodyEq : (script.take stop).drop start = body at hbody
    have hstartTake : script.take start = script.take from' ++ gap := by rw [← hgapEq, take_append_slice script hfrom]
    have holdBefore : (s.hunk script (start, stop)).oldBefore = (s.oldSide (script.take from')).length + (s.oldSide gap).length := by
      rw [oldBefore_hunk, hstartTake, oldSide_append, List.length_append]
    have hnewBefore : (s.hunk script (start, stop)).newBefore = (s.newSide (script.take from')).length + (s.newSide gap).length := by
      rw [newBefore_hunk, hstartTake, newSide_append, List.length_append]
    have holdCount : (s.hunk script (start, stop)).oldCount = (s.oldSide body).length := by rw [hunk, hbodyEq]
    have hbodySide : (s.hunk script (start, stop)).body = body := by rw [hunk, hbodyEq]
    have hold : s.oldSide (script.drop from') = s.oldSide gap ++ (s.oldSide body ++ s.oldSide (script.drop stop)) := by
      rw [← hgap, ← hbody, oldSide_append, oldSide_append]
    have hnew : s.newSide (script.drop from') = s.newSide gap ++ (s.newSide body ++ s.newSide (script.drop stop)) := by
      rw [← hgap, ← hbody, newSide_append, newSide_append]
    have hkeptLines : (s.hunk script (start, stop)).oldBefore - (s.oldSide (script.take from')).length = (s.oldSide gap).length := by
      rw [holdBefore, Nat.add_sub_cancel_left]
    obtain ⟨holdEnd, hnewEnd⟩ := s.hunk_ends script hstart
    rw [List.map_cons, apply, hkeptLines, holdEnd, hnewEnd, holdCount, hbodySide, hold, hnew, List.drop_left, List.take_left,
      List.take_left, List.drop_left, ih, if_pos]
    · rw [Option.map_some, hsame, List.append_assoc]
    · refine ⟨?_, ?_, ?_, rfl⟩
      · rw [holdBefore]
        exact Nat.le_add_right _ _
      · rw [List.length_append]
        exact Nat.le_add_right _ _
      · rw [hnewBefore, hsame]

theorem length_oldSide_take_le (script : List β) (h : first ≤ last) :
    (s.oldSide (script.take first)).length ≤ (s.oldSide (script.take last)).length := by
  rw [← take_append_slice script h, oldSide_append, List.length_append]
  exact Nat.le_add_right _ _

theorem length_newSide_take_le (script : List β) (h : first ≤ last) :
    (s.newSide (script.take first)).length ≤ (s.newSide (script.take last)).length := by
  rw [← take_append_slice script h, newSide_append, List.length_append]
  exact Nat.le_add_right _ _

variable {s} in
theorem Cut.from_le (h : s.Cut script from' slices) : ∀ slice ∈ slices, from' ≤ slice.1 ∧ slice.1 ≤ slice.2 := by
  induction h with
  | nil _ => exact nofun
  | cons hfrom hstart _ _ _ ih =>
    refine List.forall_mem_cons.mpr ⟨⟨hfrom, hstart⟩, fun slice hslice => ?_⟩
    obtain ⟨hle, hlast⟩ := ih slice hslice
    exact ⟨by omega, hlast⟩

theorem hunks_ordered (h : s.Cut script from' slices) : (slices.map (s.hunk script)).Pairwise Hunk.Precedes := by
  induction h with
  | nil _ => exact List.Pairwise.nil
  | @cons from' start stop slices _ hstart _ _ hcut ih =>
    rw [List.map_cons, List.pairwise_cons]
    refine ⟨List.forall_mem_map.mpr fun slice hslice => ?_, ih⟩
    obtain ⟨hold, hnew⟩ := s.hunk_ends script hstart
    have hle := (hcut.from_le slice hslice).1
    constructor
    · rw [hold, oldBefore_hunk]
      exact s.length_oldSide_take_le script hle
    · rw [hnew, newBefore_hunk]
      exact s.length_newSide_take_le script hle

end Sides

end Patches
