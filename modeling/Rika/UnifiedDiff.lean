import Rika.WideText

namespace Rika.UnifiedDiff

open WideText

def newline : UInt16 := 10

def splitLines (text : Units) : List Units :=
  if text.length = 0 then []
  else
    let lines := text.splitOn newline
    if lines.getLast? = some [] then lines.dropLast else lines

inductive Tag
  | equal
  | delete
  | insert
deriving DecidableEq

structure Op where
  tag : Tag
  line : Units

def lcsMatrixLimit : Nat := 4000000

def lcsRow (line : Units) : List Units → List Nat → List Nat
  | [], _ => [0]
  | new :: newLines, below =>
    let rest := lcsRow line newLines below.tail
    (if line = new then below.tail.headD 0 + 1 else max (below.headD 0) (rest.headD 0)) :: rest

def lcsTable (newLines : List Units) : List Units → List (List Nat)
  | [] => [List.replicate (newLines.length + 1) 0]
  | line :: oldLines =>
    let below := lcsTable newLines oldLines
    lcsRow line newLines (below.headD []) :: below

def entry (table : List (List Nat)) (row col : Nat) : Nat := (table.getD row []).getD col 0

/-- The operations from a row and a column on; `fuel` of them at most. -/
def opsFrom (oldLines newLines : List Units) (table : List (List Nat)) : Nat → Nat → Nat → List Op
  | 0, _, _ => []
  | fuel + 1, row, col =>
    match oldLines[row]?, newLines[col]? with
    | some old, some new =>
      if old = new then ⟨.equal, old⟩ :: opsFrom oldLines newLines table fuel (row + 1) (col + 1)
      else if entry table row (col + 1) ≤ entry table (row + 1) col then
        ⟨.delete, old⟩ :: opsFrom oldLines newLines table fuel (row + 1) col
      else ⟨.insert, new⟩ :: opsFrom oldLines newLines table fuel row (col + 1)
    | some old, none => ⟨.delete, old⟩ :: opsFrom oldLines newLines table fuel (row + 1) col
    | none, some new => ⟨.insert, new⟩ :: opsFrom oldLines newLines table fuel row (col + 1)
    | none, none => []

def diffMiddle (oldLines newLines : List Units) : List Op :=
  let rows := oldLines.length
  let cols := newLines.length
  if rows = 0 then newLines.map (Op.mk .insert)
  else if cols = 0 then oldLines.map (Op.mk .delete)
  else if lcsMatrixLimit < rows * cols then oldLines.map (Op.mk .delete) ++ newLines.map (Op.mk .insert)
  else opsFrom oldLines newLines (lcsTable newLines oldLines) (rows + cols) 0 0

def commonPrefix : List Units → List Units → Nat
  | old :: oldLines, new :: newLines => if old = new then commonPrefix oldLines newLines + 1 else 0
  | _, _ => 0

def diffLines (oldLines newLines : List Units) : List Op :=
  let before := commonPrefix oldLines newLines
  let suffix := commonPrefix (oldLines.drop before).reverse (newLines.drop before).reverse
  (oldLines.take before).map (Op.mk .equal) ++
    diffMiddle ((oldLines.take (oldLines.length - suffix)).drop before) ((newLines.take (newLines.length - suffix)).drop before) ++
      (oldLines.drop (oldLines.length - suffix)).map (Op.mk .equal)

structure Annotated where
  tag : Tag
  oldNo : Nat
  newNo : Nat
  line : Units

def annotate : List Op → Nat → Nat → List Annotated
  | [], _, _ => []
  | op :: ops, oldNo, newNo =>
    ⟨op.tag, oldNo, newNo, op.line⟩ ::
      annotate ops (if op.tag = .insert then oldNo else oldNo + 1) (if op.tag = .delete then newNo else newNo + 1)

def context : Nat := 3

def marker : Tag → Units
  | .delete => units ['-']
  | .insert => units ['+']
  | .equal => units [' ']

def clustersFrom (clusters : List (Nat × Nat)) : List Nat → List (Nat × Nat)
  | [] => clusters
  | index :: changes =>
    match clusters.getLast? with
    | none => clustersFrom [(index, index)] changes
    | some last =>
      if index - last.2 ≤ context * 2 + 1 then clustersFrom (clusters.dropLast ++ [(last.1, index)]) changes
      else clustersFrom (clusters ++ [(index, index)]) changes

def joinLines (lines : List Units) : Units := List.intercalate [newline] lines

def spec (count number : Nat) : String := if count = 0 then s!"{number - 1},0" else s!"{number},{count}"

def hunk (annotated : List Annotated) (cluster : Nat × Nat) : Units :=
  let start := cluster.1 - context
  let slice := (annotated.take (min (annotated.length - 1) (cluster.2 + context) + 1)).drop start
  let oldCount := (slice.filter fun entry => entry.tag ≠ .insert).length
  let newCount := (slice.filter fun entry => entry.tag ≠ .delete).length
  let first := slice.head?
  let oldSpec := spec oldCount ((first.map Annotated.oldNo).getD 0)
  let newSpec := spec newCount ((first.map Annotated.newNo).getD 0)
  joinLines (units s!"@@ -{oldSpec} +{newSpec} @@".toList ::
    slice.map fun entry => marker entry.tag ++ entry.line)

def unifiedDiff (path : String) (oldText newText : Units) (created : Bool) : Option Units :=
  if oldText = newText then none
  else
    let annotated := annotate (diffLines (splitLines oldText) (splitLines newText)) 1 1
    let changes := (annotated.zipIdx.filter fun entry => entry.1.tag ≠ .equal).map Prod.snd
    if changes.length = 0 then none
    else
      let body := (clustersFrom [] changes).map (hunk annotated)
      let source := if created then "/dev/null" else s!"a/{path}"
      let header := [s!"diff --git a/{path} b/{path}"] ++ (if created then ["new file mode 100644"] else []) ++
        [s!"--- {source}", s!"+++ b/{path}"]
      some (joinLines (header.map (fun line => units line.toList) ++ body))

section Lines

def oldLinesOf (ops : List Op) : List Units := (ops.filter fun op => op.tag ≠ .insert).map Op.line

def newLinesOf (ops : List Op) : List Units := (ops.filter fun op => op.tag ≠ .delete).map Op.line

theorem linesOf_append (ops others : List Op) :
    oldLinesOf (ops ++ others) = oldLinesOf ops ++ oldLinesOf others ∧
      newLinesOf (ops ++ others) = newLinesOf ops ++ newLinesOf others := by
  simp only [oldLinesOf, newLinesOf, List.filter_append, List.map_append, and_self]

theorem linesOf_equal (lines : List Units) :
    oldLinesOf (lines.map (Op.mk .equal)) = lines ∧ newLinesOf (lines.map (Op.mk .equal)) = lines := by
  induction lines with
  | nil => exact ⟨rfl, rfl⟩
  | cons line lines ih => exact ⟨congrArg (line :: ·) ih.1, congrArg (line :: ·) ih.2⟩

theorem linesOf_delete (lines : List Units) :
    oldLinesOf (lines.map (Op.mk .delete)) = lines ∧ newLinesOf (lines.map (Op.mk .delete)) = [] := by
  induction lines with
  | nil => exact ⟨rfl, rfl⟩
  | cons line lines ih => exact ⟨congrArg (line :: ·) ih.1, ih.2⟩

theorem linesOf_insert (lines : List Units) :
    oldLinesOf (lines.map (Op.mk .insert)) = [] ∧ newLinesOf (lines.map (Op.mk .insert)) = lines := by
  induction lines with
  | nil => exact ⟨rfl, rfl⟩
  | cons line lines ih => exact ⟨ih.1, congrArg (line :: ·) ih.2⟩

theorem drop_of_getElem? {lines : List Units} {index : Nat} {line : Units} (h : lines[index]? = some line) :
    index < lines.length ∧ lines.drop index = line :: lines.drop (index + 1) := by
  obtain ⟨hlt, rfl⟩ := List.getElem?_eq_some_iff.mp h
  exact ⟨hlt, List.drop_eq_getElem_cons hlt⟩

theorem linesOf_opsFrom {oldLines newLines : List Units} (table : List (List Nat)) {fuel row col : Nat}
    (hrow : row ≤ oldLines.length) (hcol : col ≤ newLines.length)
    (hfuel : oldLines.length + newLines.length ≤ fuel + row + col) :
    oldLinesOf (opsFrom oldLines newLines table fuel row col) = oldLines.drop row ∧
      newLinesOf (opsFrom oldLines newLines table fuel row col) = newLines.drop col := by
  induction fuel generalizing row col with
  | zero => exact ⟨(List.drop_eq_nil_of_le (by omega)).symm, (List.drop_eq_nil_of_le (by omega)).symm⟩
  | succ fuel ih =>
    rw [opsFrom]
    cases hold : oldLines[row]? with
    | none =>
      have hend := List.getElem?_eq_none_iff.mp hold
      cases hnew : newLines[col]? with
      | none =>
        have hlast := List.getElem?_eq_none_iff.mp hnew
        exact ⟨(List.drop_eq_nil_of_le hend).symm, (List.drop_eq_nil_of_le hlast).symm⟩
      | some new =>
        obtain ⟨hlt, hdrop⟩ := drop_of_getElem? hnew
        obtain ⟨hrest, hothers⟩ := ih hrow hlt (by omega)
        rw [hdrop]
        exact ⟨hrest, congrArg (new :: ·) hothers⟩
    | some old =>
      obtain ⟨hlt, hdrop⟩ := drop_of_getElem? hold
      cases hnew : newLines[col]? with
      | none =>
        obtain ⟨hrest, hothers⟩ := ih hlt hcol (by omega)
        rw [hdrop]
        exact ⟨congrArg (old :: ·) hrest, hothers⟩
      | some new =>
        obtain ⟨hltNew, hdropNew⟩ := drop_of_getElem? hnew
        dsimp only
        by_cases hsame : old = new
        · obtain ⟨hrest, hothers⟩ := ih hlt hltNew (by omega)
          rw [if_pos hsame, hdrop, hdropNew, ← hsame]
          exact ⟨congrArg (old :: ·) hrest, congrArg (old :: ·) hothers⟩
        rw [if_neg hsame]
        by_cases hdelete : entry table row (col + 1) ≤ entry table (row + 1) col
        · obtain ⟨hrest, hothers⟩ := ih hlt hcol (by omega)
          rw [if_pos hdelete, hdrop]
          exact ⟨congrArg (old :: ·) hrest, hothers⟩
        · obtain ⟨hrest, hothers⟩ := ih hrow hltNew (by omega)
          rw [if_neg hdelete, hdropNew]
          exact ⟨hrest, congrArg (new :: ·) hothers⟩

section

variable (oldLines newLines : List Units)

theorem linesOf_diffMiddle :
    oldLinesOf (diffMiddle oldLines newLines) = oldLines ∧ newLinesOf (diffMiddle oldLines newLines) = newLines := by
  rw [diffMiddle]
  by_cases hrows : oldLines.length = 0
  · rw [if_pos hrows, List.length_eq_zero_iff.mp hrows]
    exact linesOf_insert newLines
  rw [if_neg hrows]
  by_cases hcols : newLines.length = 0
  · rw [if_pos hcols, List.length_eq_zero_iff.mp hcols]
    exact linesOf_delete oldLines
  rw [if_neg hcols]
  by_cases hlimit : lcsMatrixLimit < oldLines.length * newLines.length
  · rw [if_pos hlimit, (linesOf_append _ _).1, (linesOf_append _ _).2, (linesOf_delete oldLines).1,
      (linesOf_delete oldLines).2, (linesOf_insert newLines).1, (linesOf_insert newLines).2]
    exact ⟨List.append_nil _, rfl⟩
  · rw [if_neg hlimit]
    exact linesOf_opsFrom _ (Nat.zero_le _) (Nat.zero_le _) (Nat.le_refl _)

theorem take_commonPrefix :
    oldLines.take (commonPrefix oldLines newLines) = newLines.take (commonPrefix oldLines newLines) ∧
      commonPrefix oldLines newLines ≤ oldLines.length ∧ commonPrefix oldLines newLines ≤ newLines.length := by
  induction oldLines generalizing newLines with
  | nil => exact ⟨rfl, Nat.le_refl _, Nat.zero_le _⟩
  | cons old oldLines ih =>
    cases newLines with
    | nil => exact ⟨rfl, Nat.zero_le _, Nat.le_refl _⟩
    | cons new newLines =>
      obtain ⟨htake, hold, hnew⟩ := ih newLines
      rw [commonPrefix]
      by_cases h : old = new
      · rw [if_pos h, h, List.take_succ_cons, List.take_succ_cons, htake]
        exact ⟨rfl, Nat.succ_le_succ hold, Nat.succ_le_succ hnew⟩
      · rw [if_neg h]
        exact ⟨rfl, Nat.zero_le _, Nat.zero_le _⟩

theorem take_drop_ends {lines : List Units} {before suffix : Nat} (h : before + suffix ≤ lines.length) :
    lines.take before ++ (lines.take (lines.length - suffix)).drop before ++ lines.drop (lines.length - suffix) = lines := by
  have hmin : min before (lines.length - suffix) = before := by omega
  have htake : lines.take before = (lines.take (lines.length - suffix)).take before := by
    rw [List.take_take, hmin]
  rw [htake, List.take_append_drop, List.take_append_drop]

/-- The lines of a diff that are not inserted are those of the old text, and those that are not
deleted are those of the new one. -/
theorem linesOf_diffLines :
    oldLinesOf (diffLines oldLines newLines) = oldLines ∧ newLinesOf (diffLines oldLines newLines) = newLines := by
  obtain ⟨hbefore, hold, hnew⟩ := take_commonPrefix oldLines newLines
  obtain ⟨hsuffix, hrold, hrnew⟩ :=
    take_commonPrefix (oldLines.drop (commonPrefix oldLines newLines)).reverse (newLines.drop (commonPrefix oldLines newLines)).reverse
  simp only [diffLines]
  generalize commonPrefix (oldLines.drop _).reverse (newLines.drop _).reverse = suffix at hsuffix hrold hrnew
  generalize commonPrefix oldLines newLines = before at *
  rw [List.length_reverse, List.length_drop] at hrold hrnew
  have hends : oldLines.drop (oldLines.length - suffix) = newLines.drop (newLines.length - suffix) := by
    rw [List.take_reverse, List.take_reverse, List.reverse_inj, List.drop_drop, List.drop_drop, List.length_drop,
      List.length_drop] at hsuffix
    have holdEnd : before + (oldLines.length - before - suffix) = oldLines.length - suffix := by omega
    have hnewEnd : before + (newLines.length - before - suffix) = newLines.length - suffix := by omega
    rwa [holdEnd, hnewEnd] at hsuffix
  rw [(linesOf_append _ _).1, (linesOf_append _ _).1, (linesOf_append _ _).2, (linesOf_append _ _).2,
    (linesOf_equal _).1, (linesOf_equal _).2, (linesOf_equal _).1, (linesOf_equal _).2, (linesOf_diffMiddle _ _).1,
    (linesOf_diffMiddle _ _).2]
  constructor
  · exact take_drop_ends (by omega)
  · rw [hbefore, hends]
    exact take_drop_ends (by omega)

end

end Lines

end Rika.UnifiedDiff
