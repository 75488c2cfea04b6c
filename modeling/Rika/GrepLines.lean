import Rika.Fold
import Rika.Grep

namespace Rika.Grep

open StableSort (mem_toSorted toSorted toSorted_map)
open WideText

variable {traversal : Traversal}

/-- A matching line of a tree, with whether an ignored file is listed before it, or before a
directory it is in. -/
structure Line where
  shadowed : Bool
  found : Match

def matchesFrom (traversal : Traversal) (relative : List String) (lines : List Units) (index : Nat) : List Match :=
  ((lines.zipIdx index).filter fun entry => traversal.matcher entry.1).map fun entry => ⟨relative, entry.2 + 1, entry.1⟩

def contentMatches (traversal : Traversal) (relative : List String) (content : Units) : List Match :=
  matchesFrom traversal relative (content.splitOn newline) 0

def entriesLines (shadowed : Bool) : List (String × (Bool → List Line)) → List Line
  | [] => []
  | (name, lines) :: rest =>
    lines (shadowed || ignoredFiles.contains name) ++ entriesLines (shadowed || ignoredFiles.contains name) rest

mutual

/-- All matching lines of an entry in the order of a traversal, which leaves out what the tool is told to leave out. -/
def entryLines (traversal : Traversal) (relative : List String) (name : String) : Node → Bool → List Line
  | .file size (some content) => fun shadowed =>
    if ignoredFiles.contains name || !looksInto traversal relative size then []
    else (contentMatches traversal relative content).map (Line.mk shadowed)
  | .directory readable entries => fun shadowed =>
    if ignoredDirectories.contains name || !readable then []
    else entriesLines shadowed (toSorted (compareNames traversal) (childLines traversal relative entries))
  | .file _ none | .link | .other | .gone => fun _ => []

def childLines (traversal : Traversal) (relativeDirectory : List String) : Entries → List (String × (Bool → List Line))
  | .nil => []
  | .cons name node rest =>
    (name, entryLines traversal (relativeDirectory ++ [name]) name node) :: childLines traversal relativeDirectory rest

end

theorem Node.induct {P : Node → Prop} (file : ∀ size content, P (.file size content))
    (directory : ∀ readable entries, (∀ entry ∈ entries.toList, P entry.2) → P (.directory readable entries))
    (link : P .link) (other : P .other) (gone : P .gone) (node : Node) : P node := by
  refine @Node.rec P (fun entries => ∀ entry ∈ entries.toList, P entry.2) file directory link other gone ?_ ?_ node
  · intro entry hentry
    cases hentry
  · intro name node rest hnode hrest entry hentry
    cases hentry with
    | head => exact hnode
    | tail _ hmem => exact hrest entry hmem

theorem visits_eq (directory relative : List String) (entries : Entries) :
    visits traversal directory relative entries =
      entries.toList.map fun entry =>
        (entry.1, visitEntry traversal (directory ++ [entry.1]) (relative ++ [entry.1]) entry.1 entry.2) := by
  match entries with
  | .nil => rfl
  | .cons name node rest => rw [visits, Entries.toList, List.map_cons, visits_eq directory relative rest]

theorem childLines_eq (relative : List String) (entries : Entries) :
    childLines traversal relative entries =
      entries.toList.map fun entry => (entry.1, entryLines traversal (relative ++ [entry.1]) entry.1 entry.2) := by
  match entries with
  | .nil => rfl
  | .cons name node rest => rw [childLines, Entries.toList, List.map_cons, childLines_eq relative rest]

def sortedEntries (traversal : Traversal) (entries : Entries) : List (String × Node) :=
  toSorted (compareNames traversal) entries.toList

theorem toSorted_visits (directory relative : List String) (entries : Entries) :
    toSorted (compareNames traversal) (visits traversal directory relative entries) =
      (sortedEntries traversal entries).map fun entry =>
        (entry.1, visitEntry traversal (directory ++ [entry.1]) (relative ++ [entry.1]) entry.1 entry.2) := by
  rw [visits_eq, sortedEntries]
  exact toSorted_map _ _ _ fun _ _ => rfl

theorem toSorted_childLines (relative : List String) (entries : Entries) :
    toSorted (compareNames traversal) (childLines traversal relative entries) =
      (sortedEntries traversal entries).map fun entry =>
        (entry.1, entryLines traversal (relative ++ [entry.1]) entry.1 entry.2) := by
  rw [childLines_eq, sortedEntries]
  exact toSorted_map _ _ _ fun _ _ => rfl

section Visits

def reached (lines : List Line) : List Match := (lines.filter fun line => !line.shadowed).map (·.found)

theorem reached_append (lines others : List Line) : reached (lines ++ others) = reached lines ++ reached others := by
  rw [reached, List.filter_append, List.map_append]
  rfl

variable {lines : List Line} {α : Type} {visit : Visit}

theorem reached_of_shadowed (h : ∀ line ∈ lines, line.shadowed = true) : reached lines = [] := by
  rw [reached, List.filter_eq_nil_iff.mpr, List.map_nil]
  intro line hline
  rw [h line hline]
  exact Bool.false_ne_true

theorem reached_mk (found : List Match) : reached (found.map (Line.mk false)) = found := by
  induction found with
  | nil => rfl
  | cons first rest ih => exact congrArg (first :: ·) ih

theorem take_append_take (count : Nat) (xs ys : List α) : (xs.take count ++ ys).take count = (xs ++ ys).take count := by
  rw [List.take_append, List.take_append, List.take_take, Nat.min_self, List.length_take]
  rcases Nat.le_total count xs.length with hle | hle
  · rw [Nat.min_eq_left hle, Nat.sub_self, Nat.sub_eq_zero_of_le hle]
  · rw [Nat.min_eq_right hle]

theorem take_append_of_full {count : Nat} {xs : List α} (hle : xs.length ≤ count) (hfull : count ≤ xs.length)
    (ys : List α) : (xs ++ ys).take count = xs :=
  List.take_left' (Nat.le_antisymm hle hfull)

theorem appendLines_eq (relative : List String) (lines : List Units) (index : Nat) {found : List Match}
    (hle : found.length ≤ traversal.maxResults) :
    appendLines traversal relative lines index found =
      (found ++ matchesFrom traversal relative lines index).take traversal.maxResults := by
  induction lines generalizing index found with
  | nil =>
    rw [appendLines, matchesFrom, List.zipIdx_nil, List.filter_nil, List.map_nil, List.append_nil,
      List.take_of_length_le hle]
  | cons line lines ih =>
    rw [appendLines, matchesFrom, List.zipIdx_cons, List.filter_cons]
    by_cases hroom : found.length < traversal.maxResults
    · rw [if_pos hroom]
      cases hmatch : traversal.matcher line with
      | true =>
        have hnext : (found ++ [Match.mk relative (index + 1) line]).length ≤ traversal.maxResults := by
          rw [List.length_append]
          exact hroom
        rw [if_pos rfl, if_pos rfl, ih (index + 1) hnext, List.map_cons, List.append_assoc]
        rfl
      | false =>
        rw [if_neg Bool.false_ne_true, if_neg Bool.false_ne_true, ih (index + 1) hle]
        rfl
    · rw [if_neg hroom]
      exact (take_append_of_full hle (Nat.not_lt.mp hroom) _).symm

def Finds (traversal : Traversal) (visit : Visit) (lines : List Line) : Prop :=
  ∀ found found', found.length ≤ traversal.maxResults → visit found = .ok found' →
    found' = (found ++ reached lines).take traversal.maxResults

theorem Finds.nothing (h : visit = .ok) : Finds traversal visit [] := by
  intro found found' hle hvisit
  rw [h] at hvisit
  cases hvisit
  exact ((congrArg (List.take _) (List.append_nil found)).trans (List.take_of_length_le hle)).symm

theorem Finds.failure {error : RunnerGrepError} (h : visit = fun _ => .error error) : Finds traversal visit lines := by
  intro found found' _ hvisit
  rw [h] at hvisit
  cases hvisit

theorem entriesLines_shadowed {entries : List (String × (Bool → List Line))}
    (h : ∀ entry ∈ entries, ∀ line ∈ entry.2 true, line.shadowed = true) :
    ∀ line ∈ entriesLines true entries, line.shadowed = true := by
  induction entries with
  | nil =>
    intro line hline
    cases hline
  | cons entry entries ih =>
    intro line hline
    rw [entriesLines, Bool.true_or] at hline
    rcases List.mem_append.mp hline with hfirst | hrest
    · exact h entry List.mem_cons_self line hfirst
    · exact ih (fun other hother => h other (List.mem_cons_of_mem _ hother)) line hrest

theorem entryLines_shadowed (relative : List String) (name : String) (node : Node) :
    ∀ line ∈ entryLines traversal relative name node true, line.shadowed = true := by
  induction node using Node.induct generalizing relative name with
  | file size content =>
    intro line hline
    cases content with
    | none => cases hline
    | some content =>
      rw [entryLines] at hline
      split at hline
      · cases hline
      · obtain ⟨found, _, rfl⟩ := List.mem_map.mp hline
        rfl
  | directory readable entries ih =>
    intro line hline
    rw [entryLines] at hline
    split at hline
    · cases hline
    · rw [toSorted_childLines] at hline
      refine entriesLines_shadowed (fun entry hentry => ?_) line hline
      obtain ⟨child, hchild, rfl⟩ := List.mem_map.mp hentry
      exact ih child (mem_toSorted _ |>.mp hchild) _ _
  | link | other | gone =>
    intro line hline
    cases hline

theorem Finds.entries {entries : List (String × Node)} {visit : String × Node → Visit}
    {lines : String × Node → Bool → List Line}
    (hshadowed : ∀ entry ∈ entries, ∀ line ∈ lines entry true, line.shadowed = true)
    (hfinds : ∀ entry ∈ entries, ignoredFiles.contains entry.1 = false → Finds traversal (visit entry) (lines entry false)) :
    Finds traversal (visitEntries traversal (entries.map fun entry => (entry.1, visit entry)))
      (entriesLines false (entries.map fun entry => (entry.1, lines entry))) := by
  induction entries with
  | nil => exact Finds.nothing rfl
  | cons entry entries ih =>
    have hrest := ih (fun other hother => hshadowed other (List.mem_cons_of_mem _ hother))
      (fun other hother => hfinds other (List.mem_cons_of_mem _ hother))
    intro found found' hle hvisit
    rw [List.map_cons, visitEntries] at hvisit
    rw [List.map_cons, entriesLines, Bool.false_or]
    cases hignored : ignoredFiles.contains entry.1 with
    | true =>
      rw [hignored, Bool.or_true, if_pos rfl] at hvisit
      cases hvisit
      have hhidden : ∀ line ∈ lines entry true ++
          entriesLines true (entries.map fun entry => (entry.1, lines entry)), line.shadowed = true := by
        refine List.forall_mem_append.mpr ⟨hshadowed entry List.mem_cons_self, entriesLines_shadowed fun other hother => ?_⟩
        obtain ⟨child, hchild, rfl⟩ := List.mem_map.mp hother
        exact hshadowed child (List.mem_cons_of_mem _ hchild)
      rw [reached_of_shadowed hhidden, List.append_nil, List.take_of_length_le hle]
    | false =>
      rw [hignored, Bool.or_false] at hvisit
      by_cases hfull : traversal.maxResults ≤ found.length
      · rw [if_pos (decide_eq_true hfull)] at hvisit
        cases hvisit
        exact (take_append_of_full hle hfull _).symm
      · rw [if_neg (by simpa using hfull)] at hvisit
        obtain ⟨middle, hmiddle, hlater⟩ := Fold.bind_eq_ok.mp hvisit
        obtain rfl := hfinds entry List.mem_cons_self hignored found middle hle hmiddle
        rw [hrest _ _ (List.length_take_le _ _) hlater, take_append_take, reached_append, List.append_assoc]

theorem Finds.directory {readable : Bool} {directory relative : List String} {entries : Entries}
    (h : ∀ entry ∈ entries.toList, ignoredFiles.contains entry.1 = false →
      Finds traversal (visitEntry traversal (directory ++ [entry.1]) (relative ++ [entry.1]) entry.1 entry.2)
        (entryLines traversal (relative ++ [entry.1]) entry.1 entry.2 false)) :
    Finds traversal (visitDirectory traversal readable (visits traversal directory relative entries))
      (if !readable then []
      else entriesLines false (toSorted (compareNames traversal) (childLines traversal relative entries))) := by
  intro found found' hle hvisit
  rw [visitDirectory] at hvisit
  by_cases hfull : traversal.maxResults ≤ found.length
  · rw [if_pos hfull] at hvisit
    cases hvisit
    exact (take_append_of_full hle hfull _).symm
  · rw [if_neg hfull] at hvisit
    cases readable with
    | false => cases hvisit
    | true =>
      rw [Bool.not_true, if_neg Bool.false_ne_true, toSorted_visits] at hvisit
      rw [Bool.not_true, if_neg Bool.false_ne_true, toSorted_childLines]
      exact Finds.entries (fun entry _ => entryLines_shadowed _ _ _)
        (fun entry hentry => h entry (mem_toSorted _ |>.mp hentry)) found found' hle hvisit

theorem finds_visitEntry (node : Node) (candidate relative : List String) (name : String)
    (hname : ignoredFiles.contains name = false) :
    Finds traversal (visitEntry traversal candidate relative name node) (entryLines traversal relative name node false) := by
  induction node using Node.induct generalizing candidate relative name with
  | file size content =>
    cases content with
    | none =>
      rw [visitEntry, entryLines]
      split
      · exact Finds.nothing rfl
      · exact Finds.failure rfl
    | some content =>
      rw [visitEntry, entryLines, hname, Bool.false_or]
      split
      · exact Finds.nothing rfl
      · intro found found' hle hvisit
        cases hvisit
        rw [reached_mk, appendMatches]
        exact appendLines_eq relative _ 0 hle
  | directory readable entries ih =>
    rw [visitEntry, entryLines]
    cases hignored : ignoredDirectories.contains name with
    | true => exact Finds.nothing rfl
    | false =>
      rw [if_neg Bool.false_ne_true, Bool.false_or]
      exact Finds.directory fun entry hentry hentryName => ih entry hentry _ _ _ hentryName
  | link | other => exact Finds.nothing rfl
  | gone => exact Finds.failure rfl

end Visits

end Rika.Grep
