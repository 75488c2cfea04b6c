import Rika.CommonSubsequences
import Rika.UnifiedDiff

namespace Rika.UnifiedDiff

open CommonSubsequences
open WideText (Units)

section Scripts

def follow : List Op → List Units → Option (List Units)
  | [], [] => some []
  | ⟨.insert, line⟩ :: ops, lines => (follow ops lines).map (line :: ·)
  | ⟨.delete, line⟩ :: ops, old :: lines => if line = old then follow ops lines else none
  | ⟨.equal, line⟩ :: ops, old :: lines => if line = old then (follow ops lines).map (line :: ·) else none
  | _, _ => none

def changed (ops : List Op) : Nat := (ops.filter fun op => op.tag ≠ .equal).length

def keptLines (ops : List Op) : List Units := (ops.filter fun op => op.tag = .equal).map Op.line

theorem follow_eq_some {ops : List Op} {lines result : List Units} :
    follow ops lines = some result ↔ oldLinesOf ops = lines ∧ newLinesOf ops = result := by
  induction ops generalizing lines result with
  | nil =>
    cases lines with
    | nil => exact ⟨fun h => ⟨rfl, Option.some.inj h⟩, fun h => congrArg some h.2⟩
    | cons old lines =>
      constructor
      · intro h
        cases h
      · intro h
        cases h.1
  | cons op ops ih =>
    obtain ⟨tag, line⟩ := op
    cases tag with
    | insert =>
      rw [follow, Option.map_eq_some_iff]
      constructor
      · rintro ⟨rest, hrest, rfl⟩
        obtain ⟨hold, hnew⟩ := ih.mp hrest
        exact ⟨hold, congrArg (line :: ·) hnew⟩
      · rintro ⟨hold, rfl⟩
        exact ⟨_, ih.mpr ⟨hold, rfl⟩, rfl⟩
    | delete =>
      cases lines with
      | nil =>
        constructor
        · intro h
          cases h
        · intro h
          cases h.1
      | cons old lines =>
        rw [follow, Option.ite_none_right_eq_some, ih]
        constructor
        · rintro ⟨rfl, rfl, hnew⟩
          exact ⟨rfl, hnew⟩
        · rintro ⟨hold, hnew⟩
          obtain ⟨hline, hrest⟩ := List.cons.inj hold
          exact ⟨hline, hrest, hnew⟩
    | equal =>
      cases lines with
      | nil =>
        constructor
        · intro h
          cases h
        · intro h
          cases h.1
      | cons old lines =>
        rw [follow, Option.ite_none_right_eq_some, Option.map_eq_some_iff]
        constructor
        · rintro ⟨rfl, rest, hrest, rfl⟩
          obtain ⟨hold, hnew⟩ := ih.mp hrest
          exact ⟨congrArg (line :: ·) hold, congrArg (line :: ·) hnew⟩
        · rintro ⟨hold, rfl⟩
          obtain ⟨hline, hrest⟩ := List.cons.inj hold
          exact ⟨hline, _, ih.mpr ⟨hrest, rfl⟩, rfl⟩

theorem keptLines_sublist (ops : List Op) :
    (keptLines ops).Sublist (oldLinesOf ops) ∧ (keptLines ops).Sublist (newLinesOf ops) := by
  constructor
  · refine List.Sublist.map Op.line (List.monotone_filter_right ops ?_)
    intro op hop
    rw [decide_eq_true_eq] at hop
    rw [hop]
    rfl
  · refine List.Sublist.map Op.line (List.monotone_filter_right ops ?_)
    intro op hop
    rw [decide_eq_true_eq] at hop
    rw [hop]
    rfl

theorem length_sides (ops : List Op) :
    (oldLinesOf ops).length + (newLinesOf ops).length = changed ops + 2 * (keptLines ops).length := by
  induction ops with
  | nil => rfl
  | cons op ops ih =>
    obtain ⟨tag, line⟩ := op
    rw [oldLinesOf, newLinesOf, changed, keptLines, List.length_map, List.length_map, List.length_map] at ih ⊢
    cases tag with
    | equal | delete | insert =>
      simp only [List.filter_cons, ne_eq, reduceCtorEq, not_false_eq_true, not_true_eq_false, decide_true, decide_false, if_true,
        Bool.false_eq_true, if_false, List.length_cons] at ih ⊢
      omega

/-- No script makes fewer changes than one that keeps a longest part of both texts. -/
theorem least_of_longest {ops others : List Op} {oldLines newLines : List Units}
    (hlongest : Longest oldLines newLines (keptLines ops).length) (hops : follow ops oldLines = some newLines)
    (hothers : follow others oldLines = some newLines) : changed ops ≤ changed others := by
  obtain ⟨hold, hnew⟩ := follow_eq_some.mp hops
  obtain ⟨hold', hnew'⟩ := follow_eq_some.mp hothers
  have hsides := length_sides ops
  have hsides' := length_sides others
  obtain ⟨hkeptOld, hkeptNew⟩ := keptLines_sublist others
  rw [hold'] at hkeptOld
  rw [hnew'] at hkeptNew
  have hmost := hlongest.most (keptLines others) hkeptOld hkeptNew
  rw [hold, hnew] at hsides
  rw [hold', hnew'] at hsides'
  omega

end Scripts

section Table

variable {oldLines newLines : List Units}

theorem longest_lcsRow (line : Units) {below : List Nat}
    (h : ∀ col ≤ newLines.length, Longest oldLines (newLines.drop col) (below.getD col 0)) {col : Nat}
    (hcol : col ≤ newLines.length) :
    Longest (line :: oldLines) (newLines.drop col) ((lcsRow line newLines below).getD col 0) := by
  induction newLines generalizing below col with
  | nil =>
    obtain rfl := Nat.le_zero.mp hcol
    exact Longest.nil_right _
  | cons new newLines ih =>
    have htail : ∀ col, below.tail.getD col 0 = below.getD (col + 1) 0 := by
      intro col
      cases below with
      | nil => rfl
      | cons value below => rfl
    have hhead : ∀ values : List Nat, values.headD 0 = values.getD 0 0 := by
      intro values
      cases values with
      | nil => rfl
      | cons value values => rfl
    have hbelow : ∀ col ≤ newLines.length, Longest oldLines (newLines.drop col) (below.tail.getD col 0) := by
      intro col hcol
      rw [htail]
      exact h (col + 1) (Nat.succ_le_succ hcol)
    cases col with
    | succ col => exact ih hbelow (Nat.le_of_succ_le_succ hcol)
    | zero =>
      rw [lcsRow]
      change Longest (line :: oldLines) (new :: newLines) (if line = new then _ else _)
      by_cases hline : line = new
      · have hdiagonal := hbelow 0 (Nat.zero_le _)
        rw [if_pos hline, hline, hhead]
        exact hdiagonal.cons new
      · have hleft := h 0 (Nat.zero_le _)
        have hright := ih hbelow (Nat.zero_le newLines.length)
        rw [if_neg hline, hhead, hhead]
        exact Longest.cons_of_ne hline hleft hright

/-- The table has the length of a longest common part of what is left of the texts. -/
theorem longest_entry {row col : Nat} (hrow : row ≤ oldLines.length) (hcol : col ≤ newLines.length) :
    Longest (oldLines.drop row) (newLines.drop col) (entry (lcsTable newLines oldLines) row col) := by
  induction oldLines generalizing row col with
  | nil =>
    obtain rfl := Nat.le_zero.mp hrow
    have hzero : entry (lcsTable newLines []) 0 col = 0 := by
      change (List.replicate (newLines.length + 1) 0).getD col 0 = 0
      rw [List.getD_eq_getElem?_getD, List.getElem?_replicate]
      by_cases hlt : col < newLines.length + 1
      · rw [if_pos hlt]
        rfl
      · rw [if_neg hlt]
        rfl
    rw [hzero]
    exact Longest.nil_left _
  | cons line oldLines ih =>
    cases row with
    | succ row => exact ih (Nat.le_of_succ_le_succ hrow) hcol
    | zero =>
      have hhead : (lcsTable newLines oldLines).headD [] = (lcsTable newLines oldLines).getD 0 [] := by
        cases lcsTable newLines oldLines with
        | nil => rfl
        | cons values table => rfl
      change Longest (line :: oldLines) (newLines.drop col) ((lcsRow line newLines _).getD col 0)
      apply longest_lcsRow line _ hcol
      intro col hcol
      rw [hhead]
      exact ih (Nat.zero_le _) hcol

/-- The walk through the table keeps as many lines as the entry it stands at says. -/
theorem longest_opsFrom {fuel row col : Nat} (hrow : row ≤ oldLines.length) (hcol : col ≤ newLines.length)
    (hfuel : oldLines.length + newLines.length ≤ fuel + row + col) :
    Longest (oldLines.drop row) (newLines.drop col)
      (keptLines (opsFrom oldLines newLines (lcsTable newLines oldLines) fuel row col)).length := by
  induction fuel generalizing row col with
  | zero =>
    rw [List.drop_eq_nil_of_le (by omega)]
    exact Longest.nil_left _
  | succ fuel ih =>
    rw [opsFrom]
    cases hold : oldLines[row]? with
    | none =>
      rw [List.drop_eq_nil_of_le (List.getElem?_eq_none_iff.mp hold)]
      cases hnew : newLines[col]? with
      | none => exact Longest.nil_left _
      | some new =>
        obtain ⟨hlt, -⟩ := List.getElem?_eq_some_iff.mp hnew
        have hrest := ih hrow hlt (by omega)
        rw [List.drop_eq_nil_of_le (List.getElem?_eq_none_iff.mp hold)] at hrest
        change Longest [] _ (keptLines (opsFrom oldLines newLines _ fuel row (col + 1))).length
        rw [← (Longest.nil_left _).unique hrest]
        exact Longest.nil_left _
    | some old =>
      obtain ⟨hlt, hdrop⟩ := drop_of_getElem? hold
      cases hnew : newLines[col]? with
      | none =>
        have hend := List.getElem?_eq_none_iff.mp hnew
        have hrest := ih hlt hcol (by omega)
        rw [List.drop_eq_nil_of_le hend] at hrest ⊢
        change Longest _ [] (keptLines (opsFrom oldLines newLines _ fuel (row + 1) col)).length
        rw [← (Longest.nil_right _).unique hrest]
        exact Longest.nil_right _
      | some new =>
        obtain ⟨hltNew, hdropNew⟩ := drop_of_getElem? hnew
        dsimp only
        by_cases hsame : old = new
        · have hrest := ih hlt hltNew (by omega)
          rw [if_pos hsame, hdrop, hdropNew, ← hsame]
          exact hrest.cons old
        have hbelow := @longest_entry oldLines newLines (row + 1) col hlt hcol
        have hright := @longest_entry oldLines newLines row (col + 1) hrow hltNew
        have hmax : Longest (oldLines.drop row) (newLines.drop col)
            (max (entry (lcsTable newLines oldLines) (row + 1) col) (entry (lcsTable newLines oldLines) row (col + 1))) := by
          rw [hdropNew] at hbelow ⊢
          rw [hdrop] at hright ⊢
          exact Longest.cons_of_ne hsame hbelow hright
        rw [if_neg hsame]
        by_cases hdelete : entry (lcsTable newLines oldLines) row (col + 1) ≤ entry (lcsTable newLines oldLines) (row + 1) col
        · have hrest := ih hlt hcol (by omega)
          rw [if_pos hdelete]
          rwa [Nat.max_eq_left hdelete, hbelow.unique hrest] at hmax
        · have hrest := ih hrow hltNew (by omega)
          rw [if_neg hdelete]
          rwa [Nat.max_eq_right (Nat.le_of_not_le hdelete), hright.unique hrest] at hmax

end Table

section Lines

/-- What is left of two texts without the lines they begin and end with alike. -/
def trimmedMiddle (oldLines newLines : List Units) : List Units × List Units :=
  let before := commonPrefix oldLines newLines
  let suffix := commonPrefix (oldLines.drop before).reverse (newLines.drop before).reverse
  ((oldLines.take (oldLines.length - suffix)).drop before, (newLines.take (newLines.length - suffix)).drop before)

theorem keptLines_append (ops others : List Op) : keptLines (ops ++ others) = keptLines ops ++ keptLines others := by
  rw [keptLines, List.filter_append, List.map_append]
  rfl

theorem keptLines_equal (lines : List Units) : keptLines (lines.map (Op.mk .equal)) = lines := by
  induction lines with
  | nil => rfl
  | cons line lines ih => exact congrArg (line :: ·) ih

theorem longest_diffMiddle {oldLines newLines : List Units} (h : oldLines.length * newLines.length ≤ lcsMatrixLimit) :
    Longest oldLines newLines (keptLines (diffMiddle oldLines newLines)).length := by
  have hsides := keptLines_sublist (diffMiddle oldLines newLines)
  rw [(linesOf_diffMiddle oldLines newLines).1, (linesOf_diffMiddle oldLines newLines).2] at hsides
  by_cases hrows : oldLines.length = 0
  · obtain rfl := List.length_eq_zero_iff.mp hrows
    rw [List.sublist_nil.mp hsides.1]
    exact Longest.nil_left _
  by_cases hcols : newLines.length = 0
  · obtain rfl := List.length_eq_zero_iff.mp hcols
    rw [List.sublist_nil.mp hsides.2]
    exact Longest.nil_right _
  rw [diffMiddle, if_neg hrows, if_neg hcols, if_neg (Nat.not_lt.mpr h)]
  exact longest_opsFrom (Nat.zero_le _) (Nat.zero_le _) (Nat.le_refl _)

/-- Trimming loses nothing: the lines that the texts begin and end with alike are in a longest common part. -/
theorem longest_diffLines {oldLines newLines : List Units}
    (h : (trimmedMiddle oldLines newLines).1.length * (trimmedMiddle oldLines newLines).2.length ≤ lcsMatrixLimit) :
    Longest oldLines newLines (keptLines (diffLines oldLines newLines)).length := by
  have hmiddle := longest_diffMiddle h
  have hends := linesOf_diffLines oldLines newLines
  simp only [trimmedMiddle] at hmiddle
  simp only [diffLines] at hends ⊢
  generalize commonPrefix (oldLines.drop _).reverse (newLines.drop _).reverse = suffix at *
  generalize commonPrefix oldLines newLines = before at *
  rw [(linesOf_append _ _).1, (linesOf_append _ _).1, (linesOf_append _ _).2, (linesOf_append _ _).2,
    (linesOf_equal _).1, (linesOf_equal _).2, (linesOf_equal _).1, (linesOf_equal _).2, (linesOf_diffMiddle _ _).1,
    (linesOf_diffMiddle _ _).2] at hends
  rw [keptLines_append, keptLines_append, keptLines_equal, keptLines_equal, List.length_append, List.length_append]
  have hwhole := (hmiddle.append_left (oldLines.take before)).append_right (oldLines.drop (oldLines.length - suffix))
  rwa [hends.1, hends.2] at hwhole

/-- The script of a diff turns the old lines into the new ones and keeps a longest common part of them. -/
theorem diffLines_least {oldLines newLines : List Units}
    (h : (trimmedMiddle oldLines newLines).1.length * (trimmedMiddle oldLines newLines).2.length ≤ lcsMatrixLimit) :
    follow (diffLines oldLines newLines) oldLines = some newLines ∧
      (∀ script, follow script oldLines = some newLines → changed (diffLines oldLines newLines) ≤ changed script) ∧
      ∃ common, Longest oldLines newLines common ∧
        changed (diffLines oldLines newLines) = oldLines.length + newLines.length - 2 * common := by
  have hfollow : follow (diffLines oldLines newLines) oldLines = some newLines :=
    follow_eq_some.mpr (linesOf_diffLines oldLines newLines)
  have hlongest := longest_diffLines h
  refine ⟨hfollow, fun script hscript => least_of_longest hlongest hfollow hscript, _, hlongest, ?_⟩
  have hsides := length_sides (diffLines oldLines newLines)
  rw [(linesOf_diffLines oldLines newLines).1, (linesOf_diffLines oldLines newLines).2] at hsides
  omega

theorem diffLines_least_sample :
    follow (diffLines [[1], [2], [3], [9]] [[1], [3], [2], [9]]) [[1], [2], [3], [9]] = some [[1], [3], [2], [9]] ∧
      (∀ script, follow script [[1], [2], [3], [9]] = some [[1], [3], [2], [9]] →
        changed (diffLines [[1], [2], [3], [9]] [[1], [3], [2], [9]]) ≤ changed script) ∧
      ∃ common, @Longest Units [[1], [2], [3], [9]] [[1], [3], [2], [9]] common ∧
        changed (diffLines [[1], [2], [3], [9]] [[1], [3], [2], [9]]) = 4 + 4 - 2 * common :=
  @diffLines_least [[1], [2], [3], [9]] [[1], [3], [2], [9]] (by decide)

end Lines

end Rika.UnifiedDiff
