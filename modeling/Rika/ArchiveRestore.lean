import Mathlib.Data.Set.Finite.Lattice
import Rika.ModeTrees
import Rika.TarLinks

namespace Rika.ArchiveRestore

open ModeTree (Mode)
open Tar (Text Pending Header WorkspaceArchiveError failure members split)

abbrev Bytes := List UInt8

abbrev Node := ModeTree.Node Text Bytes

abbrev Entries := ModeTree.Entries Text Bytes

def maximumArchiveBytes : Nat := 67108864

structure Archive where
  bytes : Bytes
  contentDigest : String
  sizeBytes : Nat

def validDescriptor (archive : Archive) : Bool :=
  let text := archive.contentDigest.toList
  0 < archive.sizeBytes && archive.sizeBytes ≤ maximumArchiveBytes && text.take 7 = "sha256:".toList &&
    (text.drop 7).length = 64 && (text.drop 7).all fun c => c.isDigit || ('a' ≤ c && c ≤ 'f')

structure Staged where
  mode : Mode
  entries : Entries
  distinct : entries.distinct = true

def Staged.root (staged : Staged) : Node := .directory staged.mode staged.entries

/-- The programs and the operating system; `newDirectory` is the mode of a new one, and `outside` tells the paths whose
links lead to something that is not in the archive. -/
structure Platform where
  digest : Bytes → String
  headers : Bytes → Except WorkspaceArchiveError (List (Pending × Header))
  extract : Bytes → Except WorkspaceArchiveError Staged
  maximumLinks : Nat
  outside : List Text → Bool
  newDirectory : Mode
  names : ∀ {bytes found registry staged}, headers bytes = .ok found → Tar.inspectEntries found = .ok registry →
    extract bytes = .ok staged → ∀ name ∈ staged.entries.names, ∃ member ∈ members found, (split member.path).head? = some name

section Links

def view (root : Node) : FileTree.Tree Text := fun path =>
  match root.reach path with
  | none => none
  | some (.directory _ _) => some .directory
  | some (.file _ _) => some .file
  | some (.link target) => if Tar.startsWith target ['/'] then none else some (.link (Tar.components target))

def realPath (maximumLinks : Nat) (root : Node) (path : List Text) : Option (List Text) :=
  (FileTree.chase (view root) maximumLinks maximumLinks path).filter fun reached =>
    view root reached = some .directory || view root reached = some .file

abbrev Visited := List (List Text)

/-- The loop of `walk` over the names of a directory. -/
def walkNames (outside : List Text → Bool) (maximumLinks : Nat) (root : Node)
    (walk : Visited → List Text → Option (Except WorkspaceArchiveError Visited)) (current : List Text) :
    List Text → Visited → Option (Except WorkspaceArchiveError Visited)
  | [], visited => some (.ok visited)
  | name :: names, visited =>
    match realPath maximumLinks root (current ++ [name]) with
    | none =>
      some (failure .archive
        (if outside (current ++ [name]) then "Workspace archive link escapes the Workspace"
        else "Workspace archive contains an invalid link"))
    | some resolved =>
      if view root resolved = some .directory ∧ resolved ∉ visited then
        match walk (visited ++ [resolved]) resolved with
        | some (.ok visited) => walkNames outside maximumLinks root walk current names visited
        | some (.error error) => some (.error error)
        | none => none
      else walkNames outside maximumLinks root walk current names visited

/-- `walk` of the directory that a path stands for, so deep at most. -/
def walk (outside : List Text → Bool) (maximumLinks : Nat) (root : Node) :
    Nat → Visited → List Text → Option (Except WorkspaceArchiveError Visited)
  | 0, _, _ => none
  | depth + 1, visited, current =>
    match root.reach current with
    | some (.directory mode entries) =>
      if mode.reads then walkNames outside maximumLinks root (walk outside maximumLinks root depth) current entries.names visited
      else some (failure .archive "Workspace archive contains an invalid directory")
    | some (.file _ _) | some (.link _) | none => some (failure .archive "Workspace archive contains an invalid directory")

def inspectLinks (outside : List Text → Bool) (maximumLinks : Nat) (root : Node) : Except WorkspaceArchiveError Unit :=
  match walk outside maximumLinks root (root.directories.length + 1) [[]] [] with
  | some (.ok _) => .ok ()
  | some (.error error) => .error error
  | none => failure .archive "Workspace archive contains an invalid directory"

end Links

section Copies

variable (newDirectory : Mode)

mutual

/-- `copy` of what is in a directory that is searched or not: the copy, or what it leaves of it and why it failed. -/
def copy (searched : Bool) : Node → Except (Option Node × WorkspaceArchiveError) Node
  | .link target =>
    if searched then .ok (.link target) else .error (none, ⟨.archive, "Workspace archive entry could not be restored"⟩)
  | .file mode content =>
    if !searched then .error (none, ⟨.archive, "Workspace archive entry could not be restored"⟩)
    else if mode.reads then .ok (.file mode content)
    else .error (none, ⟨.archive, "Workspace archive file could not be restored"⟩)
  | .directory mode entries =>
    if !searched then .error (none, ⟨.archive, "Workspace archive entry could not be restored"⟩)
    else if mode.reads then
      match copyEntries mode.searches entries with
      | (copied, some error) => .error (some (.directory newDirectory copied), error)
      | (copied, none) => .ok (.directory mode copied)
    else
      .error (some (.directory newDirectory .nil), ⟨.archive, "Workspace archive directory could not be restored"⟩)

def copyEntries (searched : Bool) : Entries → Entries × Option WorkspaceArchiveError
  | .nil => (.nil, none)
  | .cons name node rest =>
    match copy searched node with
    | .ok copied => (.cons name copied (copyEntries searched rest).1, (copyEntries searched rest).2)
    | .error (some left, error) => (.cons name left .nil, some error)
    | .error (none, error) => (.nil, some error)

end

/-- The loop of `replaceWorkspace` over the entries of the staged directory. -/
def copyIncoming (searched : Bool) : Entries → Entries × Option WorkspaceArchiveError
  | .nil => (.nil, none)
  | .cons name node rest =>
    if name = ".git".toList then (.nil, some ⟨.archive, "Workspace archive contains a forbidden path"⟩)
    else
      match copy newDirectory searched node with
      | .ok copied => (.cons name copied (copyIncoming searched rest).1, (copyIncoming searched rest).2)
      | .error (some left, error) => (.cons name left .nil, some error)
      | .error (none, error) => (.nil, some error)

def append : Entries → Entries → Entries
  | .nil, others => others
  | .cons name node rest, others => .cons name node (append rest others)

def keptEntries : Entries → Entries
  | .nil => .nil
  | .cons name node rest => if name = ".git".toList then .cons name node (keptEntries rest) else keptEntries rest

/-- `replaceWorkspace`, for a workspace that its owner may write to. -/
def replaceWorkspace (workspace : Entries) (staged : Staged) : Entries × Option WorkspaceArchiveError :=
  if staged.mode.reads then
    (append (keptEntries workspace) (copyIncoming newDirectory staged.mode.searches staged.entries).1,
      (copyIncoming newDirectory staged.mode.searches staged.entries).2)
  else (keptEntries workspace, some ⟨.archive, "Workspace archive staging directory could not be read"⟩)

end Copies

variable (platform : Platform)

def inspectTar (bytes : Bytes) : Except WorkspaceArchiveError PUnit := do
  let found ← platform.headers bytes
  let _ ← Tar.inspectEntries found
  return ⟨⟩

/-- `inspectArchive` without secret values to look for. -/
def inspectArchive (archive : Archive) : Except WorkspaceArchiveError PUnit := do
  if !validDescriptor archive then failure .archive "Workspace archive descriptor is invalid"
  else if archive.sizeBytes ≠ archive.bytes.length then failure .size "Workspace archive byte length is invalid"
  else if platform.digest archive.bytes ≠ archive.contentDigest then failure .archive "Workspace archive digest is invalid"
  else
    inspectTar platform archive.bytes
    let staged ← platform.extract archive.bytes
    inspectLinks platform.outside platform.maximumLinks staged.root

def stage (archive : Archive) : Except WorkspaceArchiveError Staged := do
  inspectArchive platform archive
  let staged ← platform.extract archive.bytes
  inspectLinks platform.outside platform.maximumLinks staged.root
  return staged

/-- The workspace after `restoreArchive`, and why it failed. -/
def restoreArchive (workspace : Entries) (archive : Archive) : Entries × Option WorkspaceArchiveError :=
  match stage platform archive with
  | .error error => (workspace, some error)
  | .ok staged => replaceWorkspace platform.newDirectory workspace staged

/-- All of an archive beside the workspace's own `.git`, or else the workspace as it was. -/
def AllOrNothing (workspace : Entries) (archive : Archive) : Prop :=
  match restoreArchive platform workspace archive with
  | (after, none) =>
    ∃ staged, platform.extract archive.bytes = .ok staged ∧ after = append (keptEntries workspace) staged.entries
  | (after, some _) => after = workspace

section Inspection

variable {outside : List Text → Bool} {maximumLinks : Nat} {root : Node} {path reached : List Text}

theorem view_eq_directory : view root path = some .directory ↔
    ∃ mode entries, root.reach path = some (.directory mode entries) := by
  rw [view]
  cases root.reach path with
  | none => simp
  | some node =>
    cases node with
    | file mode content => simp
    | directory mode entries => simp
    | link target =>
      constructor
      · intro h
        dsimp only at h
        split at h
        · cases h
        · cases h
      · rintro ⟨mode, entries, h⟩
        cases h

theorem realPath_directory (h : view root path = some .directory) : realPath maximumLinks root path = some path := by
  have hchase : FileTree.chase (view root) maximumLinks maximumLinks path = some path := by
    cases maximumLinks with
    | zero => rfl
    | succ links =>
      rw [FileTree.chase, h]
  rw [realPath, hchase, Option.filter_some, h]
  rfl

theorem view_of_realPath (h : realPath maximumLinks root path = some reached) : (view root path).isSome = true := by
  by_contra hnone
  rw [Option.not_isSome_iff_eq_none] at hnone
  have hchase : FileTree.chase (view root) maximumLinks maximumLinks path = some path := by
    cases maximumLinks with
    | zero => rfl
    | succ links =>
      rw [FileTree.chase, hnone]
  rw [realPath, hchase, Option.filter_some, hnone] at h
  cases h

/-- What a walk ensures of a directory: it is listed, and searched where it has entries, and its directories are visited. -/
structure Walked (root : Node) (visited : Visited) (path : List Text) : Prop where
  opens : ∀ mode entries, root.reach path = some (.directory mode entries) →
    mode.reads = true ∧ (entries.toList.isEmpty = true ∨ mode.searches = true)
  children : ∀ mode entries, root.reach path = some (.directory mode entries) → ∀ name ∈ entries.names,
    view root (path ++ [name]) = some .directory → path ++ [name] ∈ visited

variable {visited visited' : Visited} {names : List Text} {depth : Nat} {staged : Staged}

theorem Walked.mono (h : Walked root visited path) (hsubset : visited ⊆ visited') : Walked root visited' path :=
  ⟨h.opens, fun mode entries hreach name hname hview => hsubset (h.children mode entries hreach name hname hview)⟩

/-- What a walk adds to the directories that were visited. -/
structure Extends (root : Node) (visited visited' : Visited) : Prop where
  subset : visited ⊆ visited'
  walked : ∀ path ∈ visited', path ∉ visited → Walked root visited' path

theorem Extends.refl (visited : Visited) : Extends root visited visited := ⟨fun _ h => h, fun _ h hnot => absurd h hnot⟩

theorem Extends.trans {first second third : Visited} (h : Extends root first second) (h' : Extends root second third) :
    Extends root first third := by
  refine ⟨fun _ hmem => h'.subset (h.subset hmem), fun path hmem hnot => ?_⟩
  by_cases hsecond : path ∈ second
  · exact (h.walked path hsecond hnot).mono h'.subset
  · exact h'.walked path hmem hsecond

variable {recurse : Visited → List Text → Option (Except WorkspaceArchiveError Visited)} {current : List Text}

theorem walkNames_ok (hrecurse : ∀ visited next visited', recurse visited next = some (.ok visited') →
      Extends root visited visited' ∧ Walked root visited' next)
    (h : walkNames outside maximumLinks root recurse current names visited = some (.ok visited')) :
    Extends root visited visited' ∧ ∀ name ∈ names, (view root (current ++ [name])).isSome = true ∧
      (view root (current ++ [name]) = some .directory → current ++ [name] ∈ visited') := by
  induction names generalizing visited with
  | nil =>
    cases h
    exact ⟨.refl _, nofun⟩
  | cons name names ih =>
    rw [walkNames] at h
    cases hreal : realPath maximumLinks root (current ++ [name]) with
    | none =>
      rw [hreal] at h
      cases h
    | some resolved =>
      rw [hreal] at h
      dsimp only at h
      have hsome := view_of_realPath hreal
      have hself (hview : view root (current ++ [name]) = some .directory) : resolved = current ++ [name] := by
        rw [realPath_directory hview] at hreal
        exact (Option.some.inj hreal).symm
      by_cases hnew : view root resolved = some .directory ∧ resolved ∉ visited
      · rw [if_pos hnew] at h
        cases hwalk : recurse (visited ++ [resolved]) resolved with
        | none =>
          rw [hwalk] at h
          cases h
        | some outcome =>
          rw [hwalk] at h
          cases outcome with
          | error error => cases h
          | ok between =>
            obtain ⟨hextends, hwalked⟩ := hrecurse _ _ _ hwalk
            obtain ⟨hrest, hnames⟩ := ih h
            have hresolved : resolved ∈ between := hextends.subset (List.mem_append_right _ List.mem_cons_self)
            have hfirst : Extends root visited between := by
              refine ⟨fun _ hmem => hextends.subset (List.mem_append_left _ hmem), fun path hmem hnot => ?_⟩
              by_cases heq : path = resolved
              · rw [heq]
                exact hwalked
              · refine hextends.walked path hmem fun happend => ?_
                rcases List.mem_append.mp happend with hold | hlast
                · exact hnot hold
                · exact heq (List.mem_singleton.mp hlast)
            refine ⟨hfirst.trans hrest, fun other hother => ?_⟩
            rcases List.mem_cons.mp hother with rfl | hother
            · refine ⟨hsome, fun hview => hrest.subset ?_⟩
              rw [← hself hview]
              exact hresolved
            · exact hnames other hother
      · rw [if_neg hnew] at h
        obtain ⟨hrest, hnames⟩ := ih h
        refine ⟨hrest, fun other hother => ?_⟩
        rcases List.mem_cons.mp hother with rfl | hother
        · refine ⟨hsome, fun hview => hrest.subset ?_⟩
          rw [hself hview] at hnew
          by_contra hnot
          exact hnew ⟨hview, hnot⟩
        · exact hnames other hother

theorem searches_of_view {name : Text} {mode : Mode} {entries : Entries}
    (hreach : root.reach path = some (.directory mode entries)) (h : (view root (path ++ [name])).isSome = true) :
    mode.searches = true := by
  by_contra hnot
  rw [view, ModeTree.Node.reach_concat hreach, if_neg hnot] at h
  cases h

theorem walk_ok (h : walk outside maximumLinks root depth visited current = some (.ok visited')) :
    Extends root visited visited' ∧ Walked root visited' current := by
  induction depth generalizing visited visited' current with
  | zero => cases h
  | succ depth ih =>
    rw [walk] at h
    split at h
    · next mode entries hreach =>
      split at h
      · next hreads =>
        obtain ⟨hextends, hnames⟩ := walkNames_ok (fun visited next visited' hwalk => ih hwalk) h
        refine ⟨hextends, ?_, ?_⟩
        · intro mode' entries' hreach'
          rw [hreach] at hreach'
          cases hreach'
          refine ⟨hreads, ?_⟩
          cases hentries : entries.toList with
          | nil => exact .inl rfl
          | cons first rest =>
            right
            have hname : first.1 ∈ entries.names := List.mem_map.mpr ⟨first, by rw [hentries]; exact List.mem_cons_self, rfl⟩
            exact searches_of_view hreach (hnames first.1 hname).1
        · intro mode' entries' hreach' name hname
          rw [hreach] at hreach'
          cases hreach'
          exact (hnames name hname).2
      · cases h
    · cases h
    · cases h
    · cases h

/-- The directories of a tree that was walked to its end are open to their owner. -/
theorem opens_of_walked
    (hwalked : ∀ path ∈ visited, Walked staged.root visited path) (hroot : [] ∈ visited) : staged.root.opens = true := by
  refine ModeTree.Node.opens_of_listed staged.distinct ?_
  have hvisited : ∀ path mode entries, staged.root.at path = some (.directory mode entries) →
      path ∈ visited ∧ staged.root.reach path = some (.directory mode entries) := by
    intro path
    induction path using List.reverseRecOn with
    | nil => exact fun mode entries hat => ⟨hroot, hat⟩
    | append_singleton path name ih =>
      intro mode entries hat
      obtain ⟨mode', entries', hparent, hlookup⟩ := ModeTree.Node.at_concat hat
      obtain ⟨hmem, hreach⟩ := ih mode' entries' hparent
      have hentry : (name, .directory mode entries) ∈ entries'.toList := ModeTree.mem_of_lookup hlookup
      have hsearches : mode'.searches = true := by
        refine ((hwalked path hmem).opens mode' entries' hreach).2.resolve_left fun hempty => ?_
        rw [List.isEmpty_iff.mp hempty] at hentry
        cases hentry
      have hchild : staged.root.reach (path ++ [name]) = some (.directory mode entries) := by
        rw [ModeTree.Node.reach_concat hreach, if_pos hsearches, hlookup]
      refine ⟨?_, hchild⟩
      exact (hwalked path hmem).children mode' entries' hreach name (List.mem_map_of_mem hentry)
        (view_eq_directory.mpr ⟨mode, entries, hchild⟩)
  intro path mode entries hat
  obtain ⟨hmem, hreach⟩ := hvisited path mode entries hat
  exact (hwalked path hmem).opens mode entries hreach

theorem missing_lt {resolved : List Text} (hview : view root resolved = some .directory) (hnew : resolved ∉ visited) :
    (root.directories.filter (· ∉ visited ++ [resolved])).length < (root.directories.filter (· ∉ visited)).length := by
  obtain ⟨mode, entries, hreach⟩ := view_eq_directory.mp hview
  have hmem : resolved ∈ root.directories.filter (· ∉ visited) :=
    List.mem_filter.mpr ⟨ModeTree.Node.mem_directories hreach, decide_eq_true hnew⟩
  have hfilter : root.directories.filter (· ∉ visited ++ [resolved]) =
      (root.directories.filter (· ∉ visited)).filter (· ≠ resolved) := by
    rw [List.filter_filter]
    refine List.filter_congr fun path _ => ?_
    rw [Bool.eq_iff_iff, Bool.and_eq_true, decide_eq_true_iff, decide_eq_true_iff, decide_eq_true_iff, List.mem_append,
      List.mem_singleton, not_or, and_comm]
  rw [hfilter, List.length_filter_lt_length_iff_exists]
  exact ⟨resolved, hmem, by simp⟩

theorem missing_le {visited visited' : Visited} (h : visited ⊆ visited') :
    (root.directories.filter (· ∉ visited')).length ≤ (root.directories.filter (· ∉ visited)).length := by
  refine (List.monotone_filter_right _ fun path hpath => ?_).length_le
  rw [decide_eq_true_iff] at hpath ⊢
  exact fun hmem => hpath (h hmem)

theorem walkNames_ne_none {bound : Nat}
    (hrecurse : ∀ visited next, (root.directories.filter (· ∉ visited)).length < bound → recurse visited next ≠ none)
    (hextends : ∀ visited next visited', recurse visited next = some (.ok visited') → visited ⊆ visited')
    (h : (root.directories.filter (· ∉ visited)).length ≤ bound) :
    walkNames outside maximumLinks root recurse current names visited ≠ none := by
  induction names generalizing visited with
  | nil => exact Option.some_ne_none _
  | cons name names ih =>
    rw [walkNames]
    cases hreal : realPath maximumLinks root (current ++ [name]) with
    | none => exact Option.some_ne_none _
    | some resolved =>
      dsimp only
      by_cases hnew : view root resolved = some .directory ∧ resolved ∉ visited
      · rw [if_pos hnew]
        have hless := missing_lt hnew.1 hnew.2
        cases hwalk : recurse (visited ++ [resolved]) resolved with
        | none => exact absurd hwalk (hrecurse _ _ (by omega))
        | some outcome =>
          cases outcome with
          | error error => exact Option.some_ne_none _
          | ok between =>
            have hmore := @missing_le root _ _ (hextends _ _ _ hwalk)
            exact ih (by omega)
      · rw [if_neg hnew]
        exact ih h

theorem walk_ne_none (h : (root.directories.filter (· ∉ visited)).length < depth) :
    walk outside maximumLinks root depth visited current ≠ none := by
  induction depth generalizing visited current with
  | zero => exact absurd h (Nat.not_lt_zero _)
  | succ depth ih =>
    rw [walk]
    split
    · split
      · refine walkNames_ne_none (fun visited next hless => ih hless) (fun visited next visited' hwalk => ?_)
          (Nat.le_of_lt_succ h)
        exact (walk_ok hwalk).1.subset
      · exact Option.some_ne_none _
    · exact Option.some_ne_none _
    · exact Option.some_ne_none _
    · exact Option.some_ne_none _

theorem opens_of_inspectLinks (h : inspectLinks outside maximumLinks staged.root = .ok ()) : staged.root.opens = true := by
  rw [inspectLinks] at h
  cases hwalk : walk outside maximumLinks staged.root (staged.root.directories.length + 1) [[]] [] with
  | none =>
    rw [hwalk] at h
    cases h
  | some outcome =>
    cases outcome with
    | error error =>
      rw [hwalk] at h
      cases h
    | ok visited =>
      obtain ⟨hextends, hroot⟩ := walk_ok hwalk
      refine opens_of_walked (fun path hmem => ?_) (hextends.subset List.mem_cons_self)
      by_cases hstart : path ∈ [[]]
      · rw [List.mem_singleton.mp hstart]
        exact hroot
      · exact hextends.walked path hmem hstart

end Inspection

theorem walk_of_root (outside : List Text → Bool) (maximumLinks : Nat) (root : Node) :
    walk outside maximumLinks root (root.directories.length + 1) [[]] [] ≠ none :=
  walk_ne_none (Nat.lt_succ_of_le (List.length_filter_le _ _))

section Copying

variable {newDirectory : Mode}

mutual

theorem copy_eq_ok : {node : Node} → node.opens = true → node.filesRead = true → copy newDirectory true node = .ok node
  | .file mode content, _, hread => by
    rw [copy, if_neg (by simp)]
    exact if_pos hread
  | .link target, _, _ => rfl
  | .directory mode entries, hopens, hread => by
    rw [ModeTree.Node.opens, Bool.and_eq_true, Bool.and_eq_true, Bool.or_eq_true] at hopens
    have hentries : copyEntries newDirectory mode.searches entries = (entries, none) :=
      copyEntries_eq_ok hopens.2 hopens.1.2 hread
    rw [copy, if_neg (by simp), if_pos hopens.1.1, hentries]

theorem copyEntries_eq_ok {searched : Bool} : {entries : Entries} → entries.opens = true →
    entries.toList.isEmpty = true ∨ searched = true → entries.filesRead = true →
    copyEntries newDirectory searched entries = (entries, none)
  | .nil, _, _, _ => rfl
  | .cons name node rest, hopens, hsearched, hread => by
    obtain rfl : searched = true := hsearched.resolve_left Bool.false_ne_true
    rw [ModeTree.Entries.opens, Bool.and_eq_true] at hopens
    rw [ModeTree.Entries.filesRead, Bool.and_eq_true] at hread
    have hnode : copy newDirectory true node = .ok node := copy_eq_ok hopens.1 hread.1
    have hrest : copyEntries newDirectory true rest = (rest, none) := copyEntries_eq_ok hopens.2 (.inr rfl) hread.2
    rw [copyEntries, hnode]
    dsimp only
    rw [hrest]

end

mutual

theorem copy_eq_error : {node : Node} → node.opens = true → node.filesRead = false →
    ∃ left error, copy newDirectory true node = .error (left, error)
  | .file mode content, _, hread => by
    refine ⟨none, ⟨.archive, "Workspace archive file could not be restored"⟩, ?_⟩
    rw [ModeTree.Node.filesRead] at hread
    rw [copy, if_neg (by simp), if_neg (by simp [hread])]
  | .link target, _, hread => by cases hread
  | .directory mode entries, hopens, hread => by
    rw [ModeTree.Node.opens, Bool.and_eq_true, Bool.and_eq_true, Bool.or_eq_true] at hopens
    obtain ⟨copied, error, hentries⟩ : ∃ copied error, copyEntries newDirectory mode.searches entries = (copied, some error) :=
      copyEntries_eq_error hopens.2 hopens.1.2 hread
    refine ⟨some (.directory newDirectory copied), error, ?_⟩
    rw [copy, if_neg (by simp), if_pos hopens.1.1, hentries]

theorem copyEntries_eq_error {searched : Bool} : {entries : Entries} → entries.opens = true →
    entries.toList.isEmpty = true ∨ searched = true → entries.filesRead = false →
    ∃ copied error, copyEntries newDirectory searched entries = (copied, some error)
  | .nil, _, _, hread => by cases hread
  | .cons name node rest, hopens, hsearched, hread => by
    obtain rfl : searched = true := hsearched.resolve_left Bool.false_ne_true
    rw [ModeTree.Entries.opens, Bool.and_eq_true] at hopens
    rw [copyEntries]
    cases hnode : node.filesRead with
    | false =>
      obtain ⟨left, error, hcopy⟩ : ∃ left error, copy newDirectory true node = .error (left, error) :=
        copy_eq_error hopens.1 hnode
      rw [hcopy]
      cases left with
      | none => exact ⟨_, _, rfl⟩
      | some left => exact ⟨_, _, rfl⟩
    | true =>
      have hrest : rest.filesRead = false := by
        rwa [ModeTree.Entries.filesRead, hnode, Bool.true_and] at hread
      obtain ⟨copied, error, hcopied⟩ : ∃ copied error, copyEntries newDirectory true rest = (copied, some error) :=
        copyEntries_eq_error hopens.2 (.inr rfl) hrest
      rw [copy_eq_ok hopens.1 hnode]
      dsimp only
      rw [hcopied]
      exact ⟨_, _, rfl⟩

end

theorem copyIncoming_eq : {entries : Entries} → (searched : Bool) → ".git".toList ∉ entries.names →
    copyIncoming newDirectory searched entries = copyEntries newDirectory searched entries
  | .nil, _, _ => rfl
  | .cons name node rest, searched, hgit => by
    rw [ModeTree.Entries.names, ModeTree.Entries.toList, List.map_cons, List.mem_cons, not_or] at hgit
    rw [copyIncoming, if_neg fun heq => hgit.1 heq.symm, copyIncoming_eq searched hgit.2, copyEntries]

theorem names_copyEntries (newDirectory : Mode) (searched : Bool) : (entries : Entries) →
    ∀ name ∈ (copyEntries newDirectory searched entries).1.names, name ∈ entries.names
  | .nil, name, h => by cases h
  | .cons first node rest, name, h => by
    rw [copyEntries] at h
    rw [ModeTree.Entries.names, ModeTree.Entries.toList, List.map_cons, List.mem_cons]
    split at h
    · rcases List.mem_cons.mp h with hfirst | hrest
      · exact .inl hfirst
      · exact .inr (names_copyEntries newDirectory searched rest name hrest)
    · rcases List.mem_cons.mp h with hfirst | hrest
      · exact .inl hfirst
      · cases hrest
    · cases h

end Copying

section Restoration

variable {platform : Platform} {archive : Archive} {staged : Staged}

theorem inspectArchive_eq_ok (h : inspectArchive platform archive = .ok ⟨⟩) : inspectTar platform archive.bytes = .ok ⟨⟩ ∧
    ∃ staged, platform.extract archive.bytes = .ok staged ∧ inspectLinks platform.outside platform.maximumLinks staged.root = .ok () := by
  rw [inspectArchive] at h
  split at h
  · cases h
  · split at h
    · cases h
    · split at h
      · cases h
      · obtain ⟨_, htar, h⟩ := Fold.bind_eq_ok.mp h
        obtain ⟨staged, hstaged, hlinks⟩ := Fold.bind_eq_ok.mp h
        exact ⟨htar, staged, hstaged, hlinks⟩

theorem stage_eq_ok : stage platform archive = .ok staged ↔
    inspectArchive platform archive = .ok ⟨⟩ ∧ platform.extract archive.bytes = .ok staged := by
  constructor
  · intro h
    obtain ⟨_, hinspect, h⟩ := Fold.bind_eq_ok.mp h
    obtain ⟨staged', hstaged, h⟩ := Fold.bind_eq_ok.mp h
    obtain ⟨_, -, h⟩ := Fold.bind_eq_ok.mp h
    cases h
    exact ⟨hinspect, hstaged⟩
  · rintro ⟨hinspect, hstaged⟩
    obtain ⟨-, staged', hstaged', hlinks⟩ := inspectArchive_eq_ok hinspect
    obtain rfl : staged' = staged := Except.ok.inj (hstaged'.symm.trans hstaged)
    refine Fold.bind_eq_ok.mpr ⟨⟨⟩, hinspect, Fold.bind_eq_ok.mpr ⟨staged', hstaged, ?_⟩⟩
    exact Fold.bind_eq_ok.mpr ⟨(), hlinks, rfl⟩

theorem notGit_of_inspectTar (htar : inspectTar platform archive.bytes = .ok ⟨⟩)
    (hextract : platform.extract archive.bytes = .ok staged) : ".git".toList ∉ staged.entries.names := by
  obtain ⟨found, hfound, htar⟩ := Fold.bind_eq_ok.mp htar
  obtain ⟨registry, hregistry, -⟩ := Fold.bind_eq_ok.mp htar
  intro hgit
  obtain ⟨member, hmember, hhead⟩ := platform.names hfound hregistry hextract _ hgit
  have hallowed := ((Tar.inspectEntries_eq_ok hregistry).2.1 member hmember).allowed
  have hpart : ".git".toList ∈ split member.path := List.mem_of_head? hhead
  rw [Tar.forbiddenPath, Bool.or_eq_false_iff, Bool.or_eq_false_iff] at hallowed
  have hfree := List.any_eq_false.mp hallowed.1.1 _ hpart
  exact hfree (by simp)

theorem stage_opens (h : stage platform archive = .ok staged) : staged.root.opens = true ∧
    (staged.entries.toList.isEmpty = true ∨ staged.mode.searches = true) ∧ staged.entries.opens = true := by
  obtain ⟨hinspect, hextract⟩ := stage_eq_ok.mp h
  obtain ⟨-, staged', hstaged', hlinks⟩ := inspectArchive_eq_ok hinspect
  obtain rfl : staged' = staged := Except.ok.inj (hstaged'.symm.trans hextract)
  have hopens := opens_of_inspectLinks hlinks
  refine ⟨hopens, ?_⟩
  rw [Staged.root, ModeTree.Node.opens, Bool.and_eq_true, Bool.and_eq_true, Bool.or_eq_true] at hopens
  exact ⟨hopens.1.2, hopens.2⟩

theorem replaceWorkspace_eq (workspace : Entries) (h : stage platform archive = .ok staged) :
    replaceWorkspace platform.newDirectory workspace staged =
      (append (keptEntries workspace) (copyEntries platform.newDirectory staged.mode.searches staged.entries).1,
        (copyEntries platform.newDirectory staged.mode.searches staged.entries).2) := by
  obtain ⟨hinspect, hextract⟩ := stage_eq_ok.mp h
  have hopens := (stage_opens h).1
  rw [Staged.root, ModeTree.Node.opens, Bool.and_eq_true, Bool.and_eq_true] at hopens
  rw [replaceWorkspace, if_pos hopens.1.1, copyIncoming_eq _ (notGit_of_inspectTar (inspectArchive_eq_ok hinspect).1 hextract)]

variable {workspace : Entries}

theorem allOrNothing_of_error {error : WorkspaceArchiveError} (h : stage platform archive = .error error) :
    AllOrNothing platform workspace archive := by
  rw [AllOrNothing, restoreArchive, h]

theorem allOrNothing_of_filesRead (h : stage platform archive = .ok staged)
    (hread : staged.entries.filesRead = true) : AllOrNothing platform workspace archive := by
  obtain ⟨-, hsearches, hopens⟩ := stage_opens h
  rw [AllOrNothing, restoreArchive, h]
  dsimp only
  rw [replaceWorkspace_eq _ h, copyEntries_eq_ok hopens hsearches hread]
  exact ⟨staged, (stage_eq_ok.mp h).2, rfl⟩

theorem not_allOrNothing (h : stage platform archive = .ok staged) (hread : staged.entries.filesRead = false) :
    ∃ workspace, ¬AllOrNothing platform workspace archive := by
  obtain ⟨-, hsearches, hopens⟩ := stage_opens h
  obtain ⟨copied, error, hcopied⟩ : ∃ copied error, copyEntries platform.newDirectory staged.mode.searches staged.entries =
    (copied, some error) := copyEntries_eq_error hopens hsearches hread
  obtain ⟨name, hname⟩ := Infinite.exists_notMem_finset (".git".toList :: staged.entries.names).toFinset
  rw [List.mem_toFinset, List.mem_cons, not_or] at hname
  refine ⟨.cons name (.file 0 []) .nil, fun hall => ?_⟩
  rw [AllOrNothing, restoreArchive, h] at hall
  dsimp only at hall
  rw [replaceWorkspace_eq _ h, hcopied, keptEntries, if_neg hname.1] at hall
  have hnames := names_copyEntries platform.newDirectory staged.mode.searches staged.entries name
  rw [hcopied] at hnames
  refine hname.2 (hnames ?_)
  have hafter : copied = .cons name (.file 0 []) .nil := hall
  rw [hafter]
  exact List.mem_cons_self

end Restoration

/-- A restoration is all or nothing just where the archive is refused or its owner reads every file that it describes. -/
theorem restoreArchive_iff (platform : Platform) (archive : Archive) :
    (∀ workspace, AllOrNothing platform workspace archive) ↔
      (inspectArchive platform archive = .ok ⟨⟩ → ∀ staged, platform.extract archive.bytes = .ok staged →
        staged.root.filesRead = true) := by
  constructor
  · intro h hinspect staged hextract
    by_contra hunread
    obtain ⟨workspace, hnot⟩ := not_allOrNothing (stage_eq_ok.mpr ⟨hinspect, hextract⟩) (Bool.eq_false_iff.mpr hunread)
    exact hnot (h workspace)
  · intro h workspace
    cases hstage : stage platform archive with
    | error error => exact allOrNothing_of_error hstage
    | ok staged =>
      obtain ⟨hinspect, hextract⟩ := stage_eq_ok.mp hstage
      exact allOrNothing_of_filesRead hstage (h hinspect staged hextract)

section Sample

def sampleDigest : String := "sha256:0000000000000000000000000000000000000000000000000000000000000000"

def sampleHeaders : List (Pending × Header) := [({}, ⟨"hidden.txt".toList, [], 0, '0'⟩)]

def samplePlatform : Platform where
  digest _ := sampleDigest
  headers _ := .ok sampleHeaders
  extract _ := .ok ⟨448, .cons "hidden.txt".toList (.file 0 []) .nil, by decide +kernel⟩
  maximumLinks := 40
  outside _ := false
  newDirectory := 493
  names := by
    intro bytes found registry staged hfound _ hextract name hname
    cases hfound
    cases hextract
    obtain rfl := List.mem_singleton.mp hname
    exact ⟨⟨"hidden.txt".toList, .file, []⟩, by decide +kernel, by decide +kernel⟩

def sampleArchive : Archive := ⟨[0], sampleDigest, 1⟩

def sampleWorkspace : Entries := .cons "notes.txt".toList (.file 420 [104, 105]) .nil

/-- The restoration fails after it removed the workspace's file. -/
theorem sample_loses_workspace : restoreArchive samplePlatform sampleWorkspace sampleArchive =
        (.nil, some ⟨.archive, "Workspace archive file could not be restored"⟩) ∧
      ¬AllOrNothing samplePlatform sampleWorkspace sampleArchive := by
  have hrestore : restoreArchive samplePlatform sampleWorkspace sampleArchive =
      (.nil, some ⟨.archive, "Workspace archive file could not be restored"⟩) := rfl
  refine ⟨hrestore, fun hall => ?_⟩
  rw [AllOrNothing, hrestore] at hall
  cases hall

end Sample

end Rika.ArchiveRestore
