import Rika.GrepLines

namespace Rika.Grep

open WideText

variable {traversal : Traversal}

section Distinct

theorem nodup_contentMatches (relative : List String) (content : Units) :
    (contentMatches traversal relative content).Nodup := by
  have hnumbers : ((contentMatches traversal relative content).map (·.number)).Nodup := by
    have hmap : (contentMatches traversal relative content).map (·.number) =
        ((((content.splitOn newline).zipIdx 0).filter fun entry => traversal.matcher entry.1).map Prod.snd).map (· + 1) := by
      rw [contentMatches, matchesFrom, List.map_map, List.map_map]
      rfl
    have hindexes : (((content.splitOn newline).zipIdx 0).map Prod.snd).Nodup := by
      rw [List.zipIdx_map_snd]
      exact List.nodup_range'
    rw [hmap]
    exact (hindexes.sublist (List.filter_sublist.map _)).map fun _ _ h => Nat.succ_injective h
  exact hnumbers.of_map _

variable {relative : List String} {entries : List (String × Node)} {shadowed : Bool} {line : Line}

theorem relative_contentMatches {content : Units} :
    ∀ found ∈ contentMatches traversal relative content, found.relative = relative := by
  intro found hfound
  obtain ⟨entry, _, rfl⟩ := List.mem_map.mp hfound
  rfl

theorem mem_entriesLines {lines : String × Node → Bool → List Line}
    (h : line ∈ entriesLines shadowed (entries.map fun entry => (entry.1, lines entry))) :
    ∃ entry ∈ entries, ∃ flag, line ∈ lines entry flag := by
  induction entries generalizing shadowed with
  | nil => cases h
  | cons entry entries ih =>
    rw [List.map_cons, entriesLines] at h
    rcases List.mem_append.mp h with hfirst | hrest
    · exact ⟨entry, List.mem_cons_self, _, hfirst⟩
    · obtain ⟨other, hother, hline⟩ := ih hrest
      exact ⟨other, List.mem_cons_of_mem _ hother, hline⟩

theorem prefix_of_mem_entryLines (node : Node) {name : String}
    (h : line ∈ entryLines traversal relative name node shadowed) : relative <+: line.found.relative := by
  induction node using Node.induct generalizing relative name shadowed with
  | file size content =>
    cases content with
    | none => cases h
    | some content =>
      rw [entryLines] at h
      split at h
      · cases h
      · obtain ⟨found, hfound, rfl⟩ := List.mem_map.mp h
        exact ⟨[], (List.append_nil _).trans (relative_contentMatches found hfound).symm⟩
  | directory readable entries ih =>
    rw [entryLines] at h
    split at h
    · cases h
    · rw [toSorted_childLines] at h
      obtain ⟨entry, hentry, flag, hline⟩ := mem_entriesLines h
      exact (List.prefix_append _ _).trans (ih entry (StableSort.mem_toSorted _ |>.mp hentry) hline)
  | link | other | gone => cases h

theorem distinct_entries {entries : Entries} (h : entries.distinct = true) :
    entries.names.Nodup ∧ ∀ entry ∈ entries.toList, entry.2.distinct = true := by
  match entries with
  | .nil =>
    refine ⟨List.nodup_nil, fun entry hentry => ?_⟩
    cases hentry
  | .cons name node rest =>
    rw [Entries.distinct, Bool.and_eq_true, Bool.and_eq_true, Bool.not_eq_true'] at h
    obtain ⟨hnames, hentries⟩ := distinct_entries h.2
    have hname : name ∉ rest.names := by
      intro hmem
      rw [List.contains_iff_mem.mpr hmem] at h
      exact Bool.noConfusion h.1.1
    exact ⟨List.nodup_cons.mpr ⟨hname, hnames⟩, List.forall_mem_cons.mpr ⟨h.1.2, hentries⟩⟩

theorem nodup_entriesLines (hnames : (entries.map Prod.fst).Nodup) (hentries : ∀ entry ∈ entries, ∀ flag,
      ((entryLines traversal (relative ++ [entry.1]) entry.1 entry.2 flag).map (·.found)).Nodup) (shadowed : Bool) :
    ((entriesLines shadowed (entries.map fun entry =>
      (entry.1, entryLines traversal (relative ++ [entry.1]) entry.1 entry.2))).map (·.found)).Nodup := by
  induction entries generalizing shadowed with
  | nil => exact List.nodup_nil
  | cons entry entries ih =>
    rw [List.map_cons, List.nodup_cons] at hnames
    rw [List.map_cons, entriesLines, List.map_append, List.nodup_append]
    refine ⟨hentries entry List.mem_cons_self _,
      ih hnames.2 (fun other hother => hentries other (List.mem_cons_of_mem _ hother)) _, ?_⟩
    intro found hfound other hother heq
    subst heq
    obtain ⟨line, hline, hlineFound⟩ := List.mem_map.mp hfound
    obtain ⟨later, hlater, hlaterFound⟩ := List.mem_map.mp hother
    obtain ⟨child, hchild, flag, hmem⟩ := mem_entriesLines hlater
    have hfirst := prefix_of_mem_entryLines _ hline
    have hsecond := prefix_of_mem_entryLines _ hmem
    rw [hlineFound] at hfirst
    rw [hlaterFound] at hsecond
    have hsame : relative ++ [entry.1] = relative ++ [child.1] :=
      (List.prefix_of_prefix_length_le hfirst hsecond (by simp)).eq_of_length (by simp)
    have hname : entry.1 = child.1 := by simpa using hsame
    exact hnames.1 (hname ▸ List.mem_map_of_mem hchild)

theorem nodup_entryLines (node : Node) (hdistinct : node.distinct = true) (relative : List String) (name : String)
    (shadowed : Bool) : ((entryLines traversal relative name node shadowed).map (·.found)).Nodup := by
  induction node using Node.induct generalizing relative name shadowed with
  | file size content =>
    cases content with
    | none => exact List.nodup_nil
    | some content =>
      rw [entryLines]
      split
      · exact List.nodup_nil
      · rw [List.map_map]
        have hid : (fun line : Line => line.found) ∘ Line.mk shadowed = id := rfl
        rw [hid, List.map_id]
        exact nodup_contentMatches relative content
  | directory readable entries ih =>
    rw [Node.distinct] at hdistinct
    obtain ⟨hnames, hentries⟩ := distinct_entries hdistinct
    rw [entryLines]
    split
    · exact List.nodup_nil
    · rw [toSorted_childLines]
      refine nodup_entriesLines ?_ (fun entry hentry flag => ?_) shadowed
      · exact ((StableSort.toSorted_perm _ _).map _).nodup_iff.mpr hnames
      · have hmem := StableSort.mem_toSorted _ |>.mp hentry
        exact ih entry hmem (hentries entry hmem) _ _ _
  | link | other | gone => exact List.nodup_nil

theorem distinct_at {node child : Node} {names : List String} (hdistinct : node.distinct = true)
    (h : node.at names = some child) : child.distinct = true := by
  induction names generalizing node with
  | nil =>
    cases h
    exact hdistinct
  | cons name names ih =>
    cases node with
    | directory readable entries =>
      rw [Node.at] at h
      obtain ⟨next, hnext, hchild⟩ := Option.bind_eq_some_iff.mp h
      obtain ⟨before, after, hsplit, _⟩ := List.lookup_eq_some_iff.mp hnext
      have hmem : (name, next) ∈ entries.toList := by
        rw [hsplit]
        exact List.mem_append_right _ List.mem_cons_self
      exact ih ((distinct_entries hdistinct).2 _ hmem) hchild
    | file | link | other | gone => cases h

end Distinct

section Completeness

theorem take_reached_iff {lines : List Line} (hnodup : (lines.map (·.found)).Nodup) (count : Nat) :
    (reached lines).take count = (lines.map (·.found)).take count ↔
      ∀ line ∈ lines.take count, line.shadowed = false := by
  induction lines generalizing count with
  | nil =>
    refine iff_of_true rfl fun line hline => ?_
    rw [List.take_nil] at hline
    cases hline
  | cons line lines ih =>
    rw [List.map_cons, List.nodup_cons] at hnodup
    cases count with
    | zero =>
      refine iff_of_true rfl fun line hline => ?_
      cases hline
    | succ count =>
      rw [List.map_cons, List.take_succ_cons, List.take_succ_cons, List.forall_mem_cons]
      cases hshadowed : line.shadowed with
      | false =>
        have hreached : reached (line :: lines) = line.found :: reached lines := by
          rw [reached, List.filter_cons_of_pos (by rw [hshadowed]; rfl)]
          rfl
        rw [hreached, List.take_succ_cons, List.cons_inj_right, ih hnodup.2]
        exact (and_iff_right rfl).symm
      | true =>
        have hreached : reached (line :: lines) = reached lines := by
          rw [reached, List.filter_cons_of_neg (by rw [hshadowed]; exact Bool.false_ne_true)]
          rfl
        refine iff_of_false (fun heq => hnodup.1 ?_) fun h => Bool.noConfusion h.1
        have hmem : line.found ∈ (reached lines).take (count + 1) := by
          rw [← hreached, heq]
          exact List.mem_cons_self
        obtain ⟨other, hother, hfound⟩ := List.mem_map.mp (List.mem_of_mem_take hmem)
        exact hfound ▸ List.mem_map_of_mem (List.mem_of_mem_filter hother)

def isFound (traversal : Traversal) (relative : List String) (size : Nat) : Bool :=
  !relative.getLast?.any ignoredFiles.contains && looksInto traversal relative size

def targetLines (traversal : Traversal) (place : Place) : List Line :=
  match place.node with
  | .directory readable entries =>
    if !readable then []
    else entriesLines false (StableSort.toSorted (compareNames traversal) (childLines traversal [] entries))
  | .file size (some content) =>
    if isFound traversal place.relative size then
      (contentMatches traversal place.relative content).map (Line.mk false)
    else []
  | .file _ none | .link | .other | .gone => []

def fileIsFound (traversal : Traversal) (place : Place) : Bool :=
  match place.node with
  | .file size (some content) =>
    isFound traversal place.relative size || (contentMatches traversal place.relative content).isEmpty
  | .file _ none | .directory _ _ | .link | .other | .gone => true

def isCut (found : List Match) : Bool := !(byteLength (rawText found) ≤ maxOutputBytes)

/-- The lines found are the first ones, and the answer tells whether there are more or its text was cut. -/
structure Complete (traversal : Traversal) (place : Place) (found : List Match) (answer : BoundedText) : Prop where
  lines : found = ((targetLines traversal place).map (·.found)).take traversal.maxResults
  text : answer.text = (bounded (rawText found) maxOutputBytes).text
  truncated : answer.truncated = (isCut found || traversal.maxResults < (targetLines traversal place).length)

/-- None of the first lines is hidden, and there are fewer or more lines than the limit, if the text is not cut. -/
structure Exposed (traversal : Traversal) (place : Place) : Prop where
  file : fileIsFound traversal place = true
  unhidden : ∀ line ∈ (targetLines traversal place).take traversal.maxResults, line.shadowed = false
  count : (targetLines traversal place).length ≠ traversal.maxResults ∨
    isCut (((targetLines traversal place).map (·.found)).take traversal.maxResults) = true

theorem truncated_bounded (text : Units) : (bounded text maxOutputBytes).truncated = !(byteLength text ≤ maxOutputBytes) := by
  rw [bounded]
  split
  · next hle => simp [hle]
  · next hle => simp [hle]

variable {platform : Platform} {parameters : GrepParameters} {place : Place} {found : List Match}

theorem maxResults_pos (h : makeTraversal platform parameters = .ok traversal) : 1 ≤ traversal.maxResults := by
  rw [makeTraversal] at h
  obtain ⟨matcher, _, h⟩ := Fold.bind_eq_ok.mp h
  obtain ⟨glob, _, h⟩ := Fold.bind_eq_ok.mp h
  cases h
  cases parameters.maxResults with
  | none => exact Nat.le_add_left 1 199
  | some count => exact count.property

theorem search_file {realRoot relative : List String} {size : Nat} {content : Units}
    (h : search traversal ⟨realRoot, relative, .file size (some content)⟩ = .ok found) :
    found = (contentMatches traversal relative content).take traversal.maxResults := by
  rw [search] at h
  cases h
  rw [appendMatches, appendLines_eq relative _ 0 (Nat.zero_le _), List.nil_append, contentMatches]

theorem targetLines_file (realRoot relative : List String) (size : Nat) (content : Units) :
    targetLines traversal ⟨realRoot, relative, .file size (some content)⟩ =
      if isFound traversal relative size then (contentMatches traversal relative content).map (Line.mk false) else [] :=
  rfl

theorem search_eq (hfile : fileIsFound traversal place = true)
    (h : search traversal place = .ok found) : found = (reached (targetLines traversal place)).take traversal.maxResults := by
  obtain ⟨realRoot, relative, node⟩ := place
  match node with
  | .directory readable entries =>
    have hfinds : Finds traversal (visitDirectory traversal readable (visits traversal realRoot [] entries))
        (targetLines traversal ⟨realRoot, relative, .directory readable entries⟩) :=
      Finds.directory fun entry _ hname => finds_visitEntry entry.2 _ _ _ hname
    rw [hfinds [] found (Nat.zero_le _) h, List.nil_append]
  | .file size (some content) =>
    have hleaves : (isFound traversal relative size || (contentMatches traversal relative content).isEmpty) = true :=
      hfile
    rw [Bool.or_eq_true] at hleaves
    rw [search_file h, targetLines_file]
    split
    · rw [reached_mk]
    · next hleft =>
        have hempty : contentMatches traversal relative content = [] :=
          List.isEmpty_iff.mp (hleaves.resolve_left hleft)
        rw [hempty]
        rfl
  | .file size none => cases h
  | .link | .other | .gone =>
    cases h
    exact List.take_nil.symm

theorem nodup_targetLines (h : place.node.distinct = true) : ((targetLines traversal place).map (·.found)).Nodup := by
  obtain ⟨realRoot, relative, node⟩ := place
  match node with
  | .directory readable entries =>
    obtain ⟨hnames, hentries⟩ := distinct_entries h
    have hlines : targetLines traversal ⟨realRoot, relative, .directory readable entries⟩ =
        if !readable then []
        else entriesLines false (StableSort.toSorted (compareNames traversal) (childLines traversal [] entries)) := rfl
    rw [hlines]
    split
    · exact List.nodup_nil
    · rw [toSorted_childLines]
      refine nodup_entriesLines ?_ (fun entry hentry flag => ?_) false
      · exact ((StableSort.toSorted_perm _ _).map _).nodup_iff.mpr hnames
      · exact nodup_entryLines entry.2 (hentries entry (StableSort.mem_toSorted _ |>.mp hentry)) _ _ _
  | .file size (some content) =>
    rw [targetLines_file]
    split
    · rw [List.map_map]
      have hid : (fun line : Line => line.found) ∘ Line.mk false = id := rfl
      rw [hid, List.map_id]
      exact nodup_contentMatches relative content
    · exact List.nodup_nil
  | .file size none | .link | .other | .gone => exact List.nodup_nil

/-- A file that a traversal would leave out is found all the same where it is the target. -/
theorem fileIsFound_of_lines (hpos : 1 ≤ traversal.maxResults) (hsearch : search traversal place = .ok found)
    (h : found = ((targetLines traversal place).map (·.found)).take traversal.maxResults) :
    fileIsFound traversal place = true := by
  obtain ⟨realRoot, relative, node⟩ := place
  match node with
  | .file size (some content) =>
    have hgoal : fileIsFound traversal ⟨realRoot, relative, .file size (some content)⟩ =
        (isFound traversal relative size || (contentMatches traversal relative content).isEmpty) := rfl
    rw [hgoal]
    cases hisFound : isFound traversal relative size with
    | true => rfl
    | false =>
      rw [targetLines_file, hisFound, if_neg Bool.false_ne_true, List.map_nil, List.take_nil, search_file hsearch] at h
      rw [Bool.false_or]
      rcases List.take_eq_nil_iff.mp h with hzero | hnil
      · omega
      · exact List.isEmpty_iff.mpr hnil
  | .file size none | .directory _ _ | .link | .other | .gone => rfl

theorem truncated_render (count : Nat) (found : List Match) :
    (render count found).truncated = (isCut found || decide (count ≤ found.length)) := by
  rw [render, truncated_bounded, isCut]

theorem distinct_target {tree : FileTree} {rootReal : List String}
    (h : target platform tree rootReal parameters = .ok place) : place.node.distinct = true := by
  rw [target] at h
  split at h
  · cases h
  · split at h
    · cases h
    · split at h
      · cases h
      · cases h
      · next node _ hat =>
          cases h
          exact distinct_at tree.distinct hat

/-- A search is answered in full exactly where no ignored file comes first, the lines are not the limit, and the target
is traversed. -/
theorem grep_complete_iff {platform : Platform} {tree : FileTree} {rootReal : List String} {parameters : GrepParameters}
    {place : Place} {found : List Match} (htraversal : makeTraversal platform parameters = .ok traversal)
    (hplace : target platform tree rootReal parameters = .ok place) (hfound : search traversal place = .ok found) :
    grep platform tree rootReal parameters = .ok (render traversal.maxResults found) ∧
      (Complete traversal place found (render traversal.maxResults found) ↔ Exposed traversal place) := by
  refine ⟨?_, fun hcomplete => ?_, fun hexposed => ?_⟩
  · rw [grep, htraversal]
    show ((target platform tree rootReal parameters).mapError GrepFailure.error).bind _ = _
    rw [hplace]
    show ((search traversal place).mapError GrepFailure.error).bind _ = _
    rw [hfound]
    rfl
  · have hfile := fileIsFound_of_lines (maxResults_pos htraversal) hfound hcomplete.lines
    have hreached := search_eq hfile hfound
    refine ⟨hfile, ?_, ?_⟩
    · exact (take_reached_iff (nodup_targetLines (distinct_target hplace)) _).mp (hreached.symm.trans hcomplete.lines)
    · by_cases hcount : (targetLines traversal place).length = traversal.maxResults
      · right
        have hlength : traversal.maxResults ≤ found.length := by
          rw [hcomplete.lines, List.length_take, List.length_map, hcount, Nat.min_self]
        have hmarked := hcomplete.truncated
        rw [truncated_render, decide_eq_true hlength, Bool.or_true, hcount, decide_eq_false (Nat.lt_irrefl _),
          Bool.or_false] at hmarked
        rw [← hcomplete.lines]
        exact hmarked.symm
      · exact Or.inl hcount
  · have hlines : found = ((targetLines traversal place).map (·.found)).take traversal.maxResults :=
      (search_eq hexposed.file hfound).trans
        ((take_reached_iff (nodup_targetLines (distinct_target hplace)) _).mpr hexposed.unhidden)
    refine ⟨hlines, rfl, ?_⟩
    rw [truncated_render]
    cases hcut : isCut found with
    | true => rfl
    | false =>
      have hcount : (targetLines traversal place).length ≠ traversal.maxResults := by
        refine hexposed.count.resolve_right fun h => ?_
        rw [← hlines, hcut] at h
        exact Bool.noConfusion h
      have hlength : found.length = min traversal.maxResults (targetLines traversal place).length := by
        rw [hlines, List.length_take, List.length_map]
      rw [Bool.false_or, Bool.false_or, hlength]
      exact decide_eq_decide.mpr (by omega)

def samplePlatform : Platform :=
  ⟨Collation.codePoint, fun pattern => some fun line => line.tails.any pattern.isPrefixOf, fun _ => some ["work"]⟩

def sampleParameters : GrepParameters := ⟨units "needle".toList, some "/work", none, none⟩

def sampleTraversal : Traversal :=
  ⟨Collation.codePoint, fun line => line.tails.any (units "needle".toList).isPrefixOf, none, 200⟩

def sampleFile : Node := .file 7 (some (units "needle\n".toList))

def sampleDirectory : Node :=
  .directory true (.cons "a.txt" sampleFile (.cons "dist" (.directory true (.cons "b.txt" sampleFile .nil)) .nil))

def sampleTree : FileTree := ⟨.directory true (.cons "work" sampleDirectory .nil), by decide⟩

def samplePlace : Place := ⟨["work"], [], sampleDirectory⟩

theorem grep_complete_iff_sample :
    grep samplePlatform sampleTree ["work"] sampleParameters = .ok ⟨units "a.txt:1:needle".toList, false⟩ ∧
      Complete sampleTraversal samplePlace [⟨["a.txt"], 1, units "needle".toList⟩]
        (render 200 [⟨["a.txt"], 1, units "needle".toList⟩]) := by
  have hgrep := @grep_complete_iff sampleTraversal samplePlatform sampleTree ["work"] sampleParameters samplePlace
    [⟨["a.txt"], 1, units "needle".toList⟩] rfl rfl (by rfl)
  refine ⟨hgrep.1.trans (congrArg Except.ok (by decide +kernel)), hgrep.2.mpr ⟨rfl, ?_, Or.inl ?_⟩⟩
  · decide +kernel
  · decide +kernel

def storeDirectory : Node :=
  .directory true (.cons "a.txt" sampleFile (.cons ".DS_Store" (.file 0 (some [])) .nil))

def storeTree : FileTree := ⟨.directory true (.cons "work" storeDirectory .nil), by decide⟩

/-- The matching line after an ignored file is not found, and nothing tells so. -/
theorem ignored_file_hides :
    target samplePlatform storeTree ["work"] sampleParameters = .ok ⟨["work"], [], storeDirectory⟩ ∧
      makeTraversal samplePlatform sampleParameters = .ok sampleTraversal ∧
      grep samplePlatform storeTree ["work"] sampleParameters = .ok ⟨[], false⟩ ∧
      search sampleTraversal ⟨["work"], [], storeDirectory⟩ = .ok [] ∧
      (targetLines sampleTraversal ⟨["work"], [], storeDirectory⟩).map (·.found) =
        [⟨["a.txt"], 1, units "needle".toList⟩] ∧
      ¬ Complete sampleTraversal ⟨["work"], [], storeDirectory⟩ [] (render 200 []) := by
  have hlines : (targetLines sampleTraversal ⟨["work"], [], storeDirectory⟩).map (·.found) =
      [⟨["a.txt"], 1, units "needle".toList⟩] := by decide +kernel
  refine ⟨rfl, rfl, rfl, rfl, hlines, fun hcomplete => ?_⟩
  have hfound := hcomplete.lines
  rw [hlines] at hfound
  cases hfound

end Completeness

end Rika.Grep
