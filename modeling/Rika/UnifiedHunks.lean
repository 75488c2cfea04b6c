import Mathlib.Data.List.Pairwise
import Rika.Patches
import Rika.Substrings
import Rika.UnifiedDiff

namespace Rika.UnifiedDiff

open Patches
open WideText (Units units)

def sides : Sides Op Units := ⟨fun op => op.tag ≠ .insert, fun op => op.tag ≠ .delete, Op.line⟩

def headerLines (path : String) (created : Bool) : List String :=
  let source := if created then "/dev/null" else s!"a/{path}"
  [s!"diff --git a/{path} b/{path}"] ++ (if created then ["new file mode 100644"] else []) ++
    [s!"--- {source}", s!"+++ b/{path}"]

def hunkText (hunk : Hunk Op) : Units :=
  joinLines (units s!"@@ -{hunk.oldStart},{hunk.oldCount} +{hunk.newStart},{hunk.newCount} @@".toList ::
    hunk.body.map fun op => marker op.tag ++ op.line)

section Annotations

section

variable (ops : List Op) (oldNo newNo : Nat)

theorem length_annotate : (annotate ops oldNo newNo).length = ops.length := by
  induction ops generalizing oldNo newNo with
  | nil => rfl
  | cons op ops ih => rw [annotate, List.length_cons, List.length_cons, ih]

theorem map_annotate :
    (annotate ops oldNo newNo).map (fun entry => Op.mk entry.tag entry.line) = ops := by
  induction ops generalizing oldNo newNo with
  | nil => rfl
  | cons op ops ih => rw [annotate, List.map_cons, ih]

theorem take_annotate (ops : List Op) (oldNo newNo n : Nat) : (annotate ops oldNo newNo).take n = annotate (ops.take n) oldNo newNo := by
  induction ops generalizing oldNo newNo n with
  | nil => rw [List.take_nil, annotate, List.take_nil]
  | cons op ops ih =>
    cases n with
    | zero => rfl
    | succ n => rw [annotate, List.take_succ_cons, List.take_succ_cons, annotate, ih]

theorem drop_annotate (ops : List Op) (oldNo newNo n : Nat) : (annotate ops oldNo newNo).drop n =
    annotate (ops.drop n) (oldNo + (sides.oldSide (ops.take n)).length) (newNo + (sides.newSide (ops.take n)).length) := by
  induction ops generalizing oldNo newNo n with
  | nil => rw [List.drop_nil, annotate, List.drop_nil, annotate]
  | cons op ops ih =>
    cases n with
    | zero => rfl
    | succ n =>
      rw [annotate, List.drop_succ_cons, List.drop_succ_cons, List.take_succ_cons, ih]
      congr 1
      · cases htag : op.tag <;> simp [Sides.oldSide, sides, htag] <;> omega
      · cases htag : op.tag <;> simp [Sides.newSide, sides, htag] <;> omega

theorem spec_eq (count number : Nat) : spec count (1 + number) = s!"{startAfter number count},{count}" := by
  rw [spec, startAfter, Nat.add_sub_cancel_left, Nat.add_comm]
  by_cases h : count = 0
  · have hzero : toString ",0" = toString "," ++ toString 0 := rfl
    rw [if_pos h, if_pos h, h, hzero, String.append_assoc]
  · rw [if_neg h, if_neg h]

def hunkSlice (ops : List Op) (cluster : Nat × Nat) : Nat × Nat :=
  (cluster.1 - context, min (ops.length - 1) (cluster.2 + context) + 1)

theorem filter_annotate :
    ((annotate ops oldNo newNo).filter fun entry => entry.tag ≠ .insert).length = (sides.oldSide ops).length ∧
      ((annotate ops oldNo newNo).filter fun entry => entry.tag ≠ .delete).length = (sides.newSide ops).length := by
  induction ops generalizing oldNo newNo with
  | nil => exact ⟨rfl, rfl⟩
  | cons op ops ih =>
    obtain ⟨hold, hnew⟩ := ih (if op.tag = .insert then oldNo else oldNo + 1) (if op.tag = .delete then newNo else newNo + 1)
    rw [annotate]
    cases htag : op.tag <;> simp_all [Sides.oldSide, Sides.newSide, sides]

theorem map_marker_annotate :
    ((annotate ops oldNo newNo).map fun entry => marker entry.tag ++ entry.line) = ops.map fun op => marker op.tag ++ op.line := by
  conv_rhs => rw [← map_annotate ops oldNo newNo, List.map_map]
  rfl

end

theorem hunk_annotate {ops : List Op} {cluster : Nat × Nat} (hfirst : cluster.1 ≤ cluster.2) (hlast : cluster.2 < ops.length) :
    hunk (annotate ops 1 1) cluster = hunkText (sides.hunk ops (hunkSlice ops cluster)) := by
  have hslice : hunkSlice ops cluster = (cluster.1 - context, min (ops.length - 1) (cluster.2 + context) + 1) := rfl
  rw [hunk, hunkText, length_annotate, take_annotate, drop_annotate, List.take_take, hslice]
  generalize hstart : cluster.1 - context = start
  generalize hstop : min (ops.length - 1) (cluster.2 + context) + 1 = stop
  have hmin : min start stop = start := by omega
  have hbody : (ops.take stop).drop start ≠ [] := by
    rw [← List.length_pos_iff, List.length_drop, List.length_take]
    omega
  rw [hmin, Sides.hunk]
  dsimp only
  generalize (ops.take stop).drop start = body at hbody
  rw [map_marker_annotate, (filter_annotate _ _ _).1, (filter_annotate _ _ _).2]
  cases body with
  | nil => exact absurd rfl hbody
  | cons op body =>
    rw [annotate, List.head?_cons, Option.map_some, Option.map_some, Option.getD_some, Option.getD_some, spec_eq, spec_eq]
    have hself (text : String) : toString text = text := rfl
    simp only [hself, String.append_assoc]

end Annotations

section Clusters

/-- The changes so far are in clusters, which are further from one another than two contexts. -/
structure Grouped (changes : List Nat) (clusters : List (Nat × Nat)) : Prop where
  covered : ∀ index ∈ changes, ∃ cluster ∈ clusters, cluster.1 ≤ index ∧ index ≤ cluster.2
  bounds : ∀ cluster ∈ clusters, cluster.1 ≤ cluster.2 ∧ cluster.2 ∈ changes
  apart : clusters.Pairwise fun cluster other => cluster.2 + (context * 2 + 1) < other.1

variable {clusters : List (Nat × Nat)}

theorem Grouped.le_last {changes : List Nat} {last : Nat × Nat} (h : Grouped changes clusters)
    (hlast : clusters.getLast? = some last) : ∀ cluster ∈ clusters, cluster.2 ≤ last.2 := by
  obtain ⟨before, rfl⟩ := List.getLast?_eq_some_iff.mp hlast
  intro cluster hcluster
  rcases List.mem_append.mp hcluster with hbefore | hend
  · have hapart := (List.pairwise_append.mp h.apart).2.2 cluster hbefore last List.mem_cons_self
    have hbounds := (h.bounds last (List.mem_append_right _ List.mem_cons_self)).1
    omega
  · exact Nat.le_of_eq (congrArg Prod.snd (List.mem_singleton.mp hend))

theorem Grouped.next {changes : List Nat} {index : Nat} (h : Grouped changes clusters)
    (hlt : ∀ other ∈ changes, other < index) :
    ∃ clusters', Grouped (changes ++ [index]) clusters' ∧ ∀ rest, clustersFrom clusters (index :: rest) = clustersFrom clusters' rest := by
  have hmem : index ∈ changes ++ [index] := List.mem_append_right _ List.mem_cons_self
  cases hlast : clusters.getLast? with
  | none =>
    obtain rfl := List.getLast?_eq_none_iff.mp hlast
    refine ⟨[(index, index)], ⟨?_, ?_, List.pairwise_singleton _ _⟩, fun rest => rfl⟩
    · intro other hother
      rcases List.mem_append.mp hother with hother | hother
      · obtain ⟨_, hnone, -⟩ := h.covered other hother
        cases hnone
      · obtain rfl := List.mem_singleton.mp hother
        exact ⟨_, List.mem_cons_self, Nat.le_refl _, Nat.le_refl _⟩
    · exact List.forall_mem_singleton.mpr ⟨Nat.le_refl _, hmem⟩
  | some last =>
    have hle := h.le_last hlast
    obtain ⟨before, rfl⟩ := List.getLast?_eq_some_iff.mp hlast
    have hend : last ∈ before ++ [last] := List.mem_append_right _ List.mem_cons_self
    have hafter : last.2 < index := hlt _ (h.bounds last hend).2
    have hstart : last.1 ≤ last.2 := (h.bounds last hend).1
    by_cases hnear : index - last.2 ≤ context * 2 + 1
    · refine ⟨before ++ [(last.1, index)], ⟨?_, ?_, ?_⟩, fun rest => ?_⟩
      · intro other hother
        rcases List.mem_append.mp hother with hother | hother
        · obtain ⟨cluster, hcluster, hfrom, hto⟩ := h.covered other hother
          rcases List.mem_append.mp hcluster with hcluster | hcluster
          · exact ⟨cluster, List.mem_append_left _ hcluster, hfrom, hto⟩
          · obtain rfl := List.mem_singleton.mp hcluster
            exact ⟨_, List.mem_append_right _ List.mem_cons_self, hfrom, by omega⟩
        · obtain rfl := List.mem_singleton.mp hother
          exact ⟨_, List.mem_append_right _ List.mem_cons_self, by omega, Nat.le_refl _⟩
      · refine List.forall_mem_append.mpr ⟨fun cluster hcluster => ?_, List.forall_mem_singleton.mpr ⟨by omega, hmem⟩⟩
        obtain ⟨hfrom, hto⟩ := h.bounds cluster (List.mem_append_left _ hcluster)
        exact ⟨hfrom, List.mem_append_left _ hto⟩
      · obtain ⟨hbefore, -, hapart⟩ := List.pairwise_append.mp h.apart
        refine List.pairwise_append.mpr ⟨hbefore, List.pairwise_singleton _ _, fun cluster hcluster other hother => ?_⟩
        rw [List.mem_singleton.mp hother]
        exact hapart cluster hcluster last List.mem_cons_self
      · rw [clustersFrom, hlast]
        dsimp only
        rw [if_pos hnear, List.dropLast_concat]
    · refine ⟨before ++ [last] ++ [(index, index)], ⟨?_, ?_, ?_⟩, fun rest => ?_⟩
      · intro other hother
        rcases List.mem_append.mp hother with hother | hother
        · obtain ⟨cluster, hcluster, hrange⟩ := h.covered other hother
          exact ⟨cluster, List.mem_append_left _ hcluster, hrange⟩
        · obtain rfl := List.mem_singleton.mp hother
          exact ⟨_, List.mem_append_right _ List.mem_cons_self, Nat.le_refl _, Nat.le_refl _⟩
      · refine List.forall_mem_append.mpr ⟨fun cluster hcluster => ?_, List.forall_mem_singleton.mpr ⟨Nat.le_refl _, hmem⟩⟩
        obtain ⟨hfrom, hto⟩ := h.bounds cluster hcluster
        exact ⟨hfrom, List.mem_append_left _ hto⟩
      · refine List.pairwise_append.mpr ⟨h.apart, List.pairwise_singleton _ _, fun cluster hcluster other hother => ?_⟩
        have hbound := hle cluster hcluster
        rw [List.mem_singleton.mp hother]
        dsimp only
        omega
      · rw [clustersFrom, hlast]
        dsimp only
        rw [if_neg hnear]

theorem grouped_clustersFrom {changes rest : List Nat} (h : Grouped changes clusters)
    (hsorted : (changes ++ rest).Pairwise (· < ·)) : Grouped (changes ++ rest) (clustersFrom clusters rest) := by
  induction rest generalizing changes clusters with
  | nil => rwa [List.append_nil]
  | cons index rest ih =>
    have hlt : ∀ other ∈ changes, other < index := fun other hother =>
      (List.pairwise_append.mp hsorted).2.2 other hother index List.mem_cons_self
    obtain ⟨clusters', hnext, heq⟩ := h.next hlt
    have happend : changes ++ index :: rest = changes ++ [index] ++ rest := by rw [List.append_assoc, List.singleton_append]
    rw [happend] at hsorted ⊢
    rw [heq]
    exact ih hnext hsorted

end Clusters

section Cuts

theorem sides_iff (op : Op) : sides.old op = true ∧ sides.new op = true ↔ op.tag = .equal := by
  cases htag : op.tag <;> simp [sides, htag]

/-- Clusters that have all the changes from a place on cut the operations into their hunks. -/
theorem cut_clusters {ops : List Op} {clusters : List (Nat × Nat)} {from' : Nat}
    (hapart : clusters.Pairwise fun cluster other => cluster.2 + (context * 2 + 1) < other.1)
    (hbounds : ∀ cluster ∈ clusters, cluster.1 ≤ cluster.2 ∧ cluster.2 < ops.length)
    (hfrom : ∀ cluster ∈ clusters, from' ≤ cluster.1 - context)
    (hcovered : ∀ index op, from' ≤ index → ops[index]? = some op → op.tag ≠ .equal →
      ∃ cluster ∈ clusters, cluster.1 ≤ index ∧ index ≤ cluster.2) :
    sides.Cut ops from' (clusters.map (hunkSlice ops)) := by
  induction clusters generalizing from' with
  | nil =>
    refine .nil fun op hop => (sides_iff op).mpr ?_
    by_contra hne
    obtain ⟨index, hindex⟩ := List.mem_iff_getElem?.mp hop
    rw [List.getElem?_drop] at hindex
    obtain ⟨_, hnone, -⟩ := hcovered _ op (Nat.le_add_right _ _) hindex hne
    cases hnone
  | cons cluster clusters ih =>
    obtain ⟨hfirst, hrest⟩ := List.pairwise_cons.mp hapart
    obtain ⟨hle, hlt⟩ := hbounds cluster List.mem_cons_self
    have hstart := hfrom cluster List.mem_cons_self
    have hcontext : context = 3 := rfl
    refine .cons hstart (by omega) (by omega) (fun op hop => (sides_iff op).mpr ?_) (ih hrest ?_ ?_ ?_)
    · by_contra hne
      obtain ⟨index, hindex⟩ := List.mem_iff_getElem?.mp hop
      rw [List.getElem?_drop, List.getElem?_take] at hindex
      split at hindex
      · next hbefore =>
          obtain ⟨other, hother, hlow, -⟩ := hcovered _ op (Nat.le_add_right _ _) hindex hne
          rcases List.mem_cons.mp hother with rfl | hother
          · omega
          · have hafter := hfirst other hother
            omega
      · cases hindex
    · exact fun other hother => hbounds other (List.mem_cons_of_mem _ hother)
    · intro other hother
      have hafter := hfirst other hother
      omega
    · intro index op hindex hop hne
      obtain ⟨other, hother, hlow, hhigh⟩ := hcovered index op (by omega) hop hne
      rcases List.mem_cons.mp hother with rfl | hother
      · omega
      · exact ⟨other, hother, hlow, hhigh⟩

theorem changes_spec (annotated : List Annotated) :
    (∀ index, index ∈ (annotated.zipIdx.filter fun entry => entry.1.tag ≠ .equal).map Prod.snd ↔
      ∃ entry, annotated[index]? = some entry ∧ entry.tag ≠ .equal) ∧
    ((annotated.zipIdx.filter fun entry => entry.1.tag ≠ .equal).map Prod.snd).Pairwise (· < ·) := by
  constructor
  · intro index
    rw [List.mem_map]
    constructor
    · intro h
      obtain ⟨⟨entry, place⟩, hmem, heq⟩ := h
      obtain ⟨hzip, htag⟩ := List.mem_filter.mp hmem
      subst heq
      exact ⟨entry, List.mem_zipIdx_iff_getElem?.mp hzip, of_decide_eq_true htag⟩
    · intro h
      obtain ⟨entry, hentry, htag⟩ := h
      exact ⟨(entry, index), List.mem_filter.mpr ⟨List.mem_zipIdx_iff_getElem?.mpr hentry, decide_eq_true htag⟩, rfl⟩
  · have hsorted : (annotated.zipIdx.map Prod.snd).Pairwise (· < ·) := by
      rw [List.zipIdx_map_snd]
      exact List.pairwise_lt_range'
    exact hsorted.sublist (List.filter_sublist.map _)

end Cuts

section Diffs

theorem commonPrefix_self (lines : List Units) : commonPrefix lines lines = lines.length := by
  induction lines with
  | nil => rfl
  | cons line lines ih => rw [commonPrefix, if_pos rfl, ih, List.length_cons]

theorem diffLines_self (lines : List Units) : diffLines lines lines = lines.map (Op.mk .equal) := by
  simp [diffLines, commonPrefix_self, diffMiddle]

theorem linesOf_kept {ops : List Op} (h : ∀ op ∈ ops, op.tag = .equal) : oldLinesOf ops = newLinesOf ops :=
  sides.sides_kept fun op hop => (sides_iff op).mpr (h op hop)

theorem newline_notMem_splitLines (text : Units) {line : Units} (h : line ∈ splitLines text) : newline ∉ line := by
  rw [splitLines] at h
  split at h
  · cases h
  · dsimp only at h
    split at h
    · exact Substrings.notMem_of_mem_splitOn (List.dropLast_subset _ h)
    · exact Substrings.notMem_of_mem_splitOn h

theorem newline_notMem_diffLines {oldText newText : Units} {op : Op} (h : op ∈ diffLines (splitLines oldText) (splitLines newText)) :
    newline ∉ op.line := by
  obtain ⟨hold, hnew⟩ := linesOf_diffLines (splitLines oldText) (splitLines newText)
  by_cases htag : op.tag = .insert
  · refine newline_notMem_splitLines newText ?_
    rw [← hnew]
    exact List.mem_map_of_mem (List.mem_filter.mpr ⟨h, by simp [htag]⟩)
  · refine newline_notMem_splitLines oldText ?_
    rw [← hold]
    exact List.mem_map_of_mem (List.mem_filter.mpr ⟨h, decide_eq_true htag⟩)

theorem no_changes (oldLines newLines : List Units) :
    (((annotate (diffLines oldLines newLines) 1 1).zipIdx.filter fun entry => entry.1.tag ≠ .equal).map Prod.snd).length = 0 ↔
      oldLines = newLines := by
  obtain ⟨hold, hnew⟩ := linesOf_diffLines oldLines newLines
  obtain ⟨hchanges, -⟩ := changes_spec (annotate (diffLines oldLines newLines) 1 1)
  rw [List.length_eq_zero_iff, List.eq_nil_iff_forall_not_mem]
  constructor
  · intro hnone
    have hkept : oldLinesOf (diffLines oldLines newLines) = newLinesOf (diffLines oldLines newLines) := by
      refine linesOf_kept fun op hop => ?_
      rw [← map_annotate (diffLines oldLines newLines) 1 1] at hop
      obtain ⟨entry, hentry, rfl⟩ := List.mem_map.mp hop
      obtain ⟨index, hindex⟩ := List.mem_iff_getElem?.mp hentry
      by_contra hne
      exact hnone index ((hchanges index).mpr ⟨entry, hindex, hne⟩)
    rwa [hold, hnew] at hkept
  · intro hsame index hmem
    obtain ⟨entry, hentry, htag⟩ := (hchanges index).mp hmem
    have hop := List.mem_map_of_mem (f := fun entry => Op.mk entry.tag entry.line) (List.mem_of_getElem? hentry)
    rw [map_annotate, hsame, diffLines_self] at hop
    obtain ⟨line, -, hline⟩ := List.mem_map.mp hop
    exact htag (congrArg Op.tag hline).symm

/-- Texts with the same lines have no diff; any other's hunks are in order, fit, and make the new lines of the old ones.
-/
theorem unifiedDiff_applies (path : String) (oldText newText : Units) (created : Bool) :
    (unifiedDiff path oldText newText created = none ↔ splitLines oldText = splitLines newText) ∧
    ∀ diff, unifiedDiff path oldText newText created = some diff → ∃ hunks : List (Hunk Op),
      diff = joinLines ((headerLines path created).map (fun line => units line.toList) ++ hunks.map hunkText) ∧
      (∀ hunk ∈ hunks, sides.Describes (splitLines oldText) (splitLines newText) hunk ∧ ∀ op ∈ hunk.body, newline ∉ op.line) ∧
      hunks.Pairwise Hunk.Precedes ∧ sides.apply 0 0 (splitLines oldText) hunks = some (splitLines newText) := by
  rw [unifiedDiff]
  by_cases htext : oldText = newText
  · rw [if_pos htext]
    refine ⟨⟨fun _ => congrArg splitLines htext, fun _ => rfl⟩, fun diff hdiff => ?_⟩
    cases hdiff
  · rw [if_neg htext]
    dsimp only
    have hnone := no_changes (splitLines oldText) (splitLines newText)
    obtain ⟨hold, hnew⟩ := linesOf_diffLines (splitLines oldText) (splitLines newText)
    obtain ⟨hchanges, hsorted⟩ := changes_spec (annotate (diffLines (splitLines oldText) (splitLines newText)) 1 1)
    have hline : ∀ op ∈ diffLines (splitLines oldText) (splitLines newText), newline ∉ op.line := fun op hop =>
      newline_notMem_diffLines hop
    generalize splitLines oldText = oldLines at *
    generalize splitLines newText = newLines at *
    generalize diffLines oldLines newLines = ops at *
    generalize (((annotate ops 1 1).zipIdx.filter fun entry => entry.1.tag ≠ .equal).map Prod.snd) = changes at *
    by_cases hempty : changes.length = 0
    · rw [if_pos hempty]
      refine ⟨⟨fun _ => hnone.mp hempty, fun _ => rfl⟩, fun diff hdiff => ?_⟩
      cases hdiff
    rw [if_neg hempty]
    refine ⟨⟨fun habsurd => absurd habsurd (Option.some_ne_none _), fun hsame => absurd (hnone.mpr hsame) hempty⟩, fun diff hdiff => ?_⟩
    have hinitial : Grouped [] [] := ⟨nofun, nofun, List.Pairwise.nil⟩
    have hgrouped : Grouped changes (clustersFrom [] changes) := grouped_clustersFrom hinitial hsorted
    generalize clustersFrom [] changes = clusters at *
    have hbounds : ∀ cluster ∈ clusters, cluster.1 ≤ cluster.2 ∧ cluster.2 < ops.length := by
      intro cluster hcluster
      obtain ⟨hle, hmem⟩ := hgrouped.bounds cluster hcluster
      obtain ⟨entry, hentry, -⟩ := (hchanges cluster.2).mp hmem
      obtain ⟨hlt, -⟩ := List.getElem?_eq_some_iff.mp hentry
      rw [length_annotate] at hlt
      exact ⟨hle, hlt⟩
    have hcut : sides.Cut ops 0 (clusters.map (hunkSlice ops)) := by
      refine cut_clusters hgrouped.apart hbounds (fun _ _ => Nat.zero_le _) fun index op _ hop hne => ?_
      refine hgrouped.covered index ((hchanges index).mpr ?_)
      rw [← map_annotate ops 1 1, List.getElem?_map] at hop
      obtain ⟨entry, hentry, rfl⟩ := Option.map_eq_some_iff.mp hop
      exact ⟨entry, hentry, hne⟩
    refine ⟨(clusters.map (hunkSlice ops)).map (sides.hunk ops), ?_, ?_, sides.hunks_ordered hcut, ?_⟩
    · have hbody : clusters.map (hunk (annotate ops 1 1)) = ((clusters.map (hunkSlice ops)).map (sides.hunk ops)).map hunkText := by
        rw [List.map_map, List.map_map]
        refine List.map_congr_left fun cluster hcluster => ?_
        exact hunk_annotate (hbounds cluster hcluster).1 (hbounds cluster hcluster).2
      rw [hbody, Option.some.injEq] at hdiff
      exact hdiff.symm
    · refine List.forall_mem_map.mpr fun slice hslice => ?_
      have hdescribes := sides.describes_hunk ops (hcut.from_le slice hslice).2
      have holdSide : sides.oldSide ops = oldLines := hold
      have hnewSide : sides.newSide ops = newLines := hnew
      rw [holdSide, hnewSide] at hdescribes
      exact ⟨hdescribes, fun op hop => hline op (List.mem_of_mem_take (List.mem_of_mem_drop hop))⟩
    · have happly := sides.apply_hunks hcut
      have holdSide : sides.oldSide ops = oldLines := hold
      have hnewSide : sides.newSide ops = newLines := hnew
      rw [List.drop_zero, holdSide, hnewSide] at happly
      exact happly

end Diffs

end Rika.UnifiedDiff
