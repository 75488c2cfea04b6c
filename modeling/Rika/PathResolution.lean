import Mathlib.Data.List.Forall2
import Mathlib.Data.List.Induction

namespace Rika.PathResolution

/-- An absolute path by its segments, as `path.resolve` leaves them. -/
abbrev Path := List String

inductive PlatformError
  | notFound
  | notDirectory
deriving DecidableEq

structure Lookup where
  exists' : Path → Bool
  readDirectory : Path → Except PlatformError (List String)

inductive LocalPathReason
  | notFound
  | ambiguousCase
deriving DecidableEq

inductive Failure
  | localPath (path : String) (reason : LocalPathReason) (candidates : List String)
  | platform (error : PlatformError)
deriving DecidableEq

/-- The loop of `walk` over the segments that are left; `toLowerCase` is that of strings. -/
def walk (lookup : Lookup) (toLowerCase : String → String) (input : String) (allowMissing : Bool) :
    Path → List String → Except Failure Path
  | current, [] => .ok current
  | current, segment :: rest =>
    if lookup.exists' (current ++ [segment]) = true then
      walk lookup toLowerCase input allowMissing (current ++ [segment]) rest
    else
      match lookup.readDirectory current with
      | .error error =>
        if allowMissing = false ∧ lookup.exists' current = false then .error (.localPath input .notFound [])
        else .error (.platform error)
      | .ok listed =>
        match listed.filter fun entry => toLowerCase entry = toLowerCase segment with
        | [entry] => walk lookup toLowerCase input allowMissing (current ++ [entry]) rest
        | [] => if allowMissing = false then .error (.localPath input .notFound []) else .ok (current ++ segment :: rest)
        | entry :: other :: entries => .error (.localPath input .ambiguousCase (entry :: other :: entries))

def resolveWith (lookup : Lookup) (toLowerCase : String → String) (input : String) (absolute : Path) (allowMissing : Bool) :
    Except Failure Path :=
  if lookup.exists' absolute = true then .ok absolute else walk lookup toLowerCase input allowMissing [] absolute

def resolveExistingPath (lookup : Lookup) (toLowerCase : String → String) (input : String) (absolute : Path) :
    Except Failure Path :=
  resolveWith lookup toLowerCase input absolute false

inductive Kind
  | directory
  | file

structure DirectoryTree where
  node : Path → Option Kind
  entries : Path → List String
  root : node [] = some .directory
  mem_entries : ∀ path name, name ∈ entries path ↔ (node (path ++ [name])).isSome = true
  nodup_entries : ∀ path, (entries path).Nodup
  parent : ∀ path name, (node (path ++ [name])).isSome = true → node path = some .directory

namespace DirectoryTree

variable (tree : DirectoryTree)

def Exists (path : Path) : Prop := (tree.node path).isSome = true

def lookup : Lookup where
  exists' path := (tree.node path).isSome
  readDirectory path :=
    match tree.node path with
    | none => .error .notFound
    | some .file => .error .notDirectory
    | some .directory => .ok (tree.entries path)

end DirectoryTree

variable (tree : DirectoryTree) (toLowerCase : String → String)

def Matches (request path : Path) : Prop := List.Forall₂ (fun segment name => toLowerCase name = toLowerCase segment) request path

def alike (path : Path) (segment : String) : List String :=
  (tree.entries path).filter fun entry => toLowerCase entry = toLowerCase segment

/-- Where segments lead: at every level to the entry of just that name, or else to the only one alike. -/
inductive Reached : List String → Path → Prop
  | root : Reached [] []
  | exact {segments : List String} {path : Path} {segment : String} : Reached segments path → segment ∈ tree.entries path →
      Reached (segments ++ [segment]) (path ++ [segment])
  | folded {segments : List String} {path : Path} {segment entry : String} : Reached segments path →
      segment ∉ tree.entries path → alike tree toLowerCase path segment = [entry] →
        Reached (segments ++ [segment]) (path ++ [entry])

/-- How a request is answered: with the path that it reaches, or by what is alike in the directory, or the file,
that is the last it reaches. -/
inductive Answers (input : String) (request : Path) : Except Failure Path → Prop
  | found {path : Path} : Reached tree toLowerCase request path → Answers input request (.ok path)
  | ambiguous {segments rest : List String} {segment : String} {path : Path} : request = segments ++ segment :: rest →
      Reached tree toLowerCase segments path → segment ∉ tree.entries path →
        1 < (alike tree toLowerCase path segment).length →
          Answers input request (.error (.localPath input .ambiguousCase (alike tree toLowerCase path segment)))
  | missing {segments rest : List String} {segment : String} {path : Path} : request = segments ++ segment :: rest →
      Reached tree toLowerCase segments path → tree.node path = some .directory →
        alike tree toLowerCase path segment = [] → Answers input request (.error (.localPath input .notFound []))
  | file {segments rest : List String} {segment : String} {path : Path} : request = segments ++ segment :: rest →
      Reached tree toLowerCase segments path → tree.node path = some .file →
        Answers input request (.error (.platform .notDirectory))

/-- No two paths of the tree are alike to one prefix of the request. -/
def Apart (request : Path) : Prop :=
  ∀ segments, segments <+: request → ∀ path other, tree.Exists path → tree.Exists other →
    Matches toLowerCase segments path → Matches toLowerCase segments other → path = other

variable {tree toLowerCase} {input : String} {request path : Path}

section Walks

theorem mem_alike {segment entry : String} :
    entry ∈ alike tree toLowerCase path segment ↔ entry ∈ tree.entries path ∧ toLowerCase entry = toLowerCase segment := by
  rw [alike, List.mem_filter, decide_eq_true_iff]

variable {name : String} {segments : List String} {outcome : Except Failure Path}

theorem node_of_mem (h : name ∈ tree.entries path) : tree.node path = some .directory :=
  tree.parent path name ((tree.mem_entries path name).mp h)

theorem Reached.exists (h : Reached tree toLowerCase request path) : tree.Exists path := by
  cases h with
  | root =>
    rw [DirectoryTree.Exists, tree.root]
    rfl
  | exact hreached hmem => exact (tree.mem_entries _ _).mp hmem
  | folded hreached hfree halike =>
    have hmem := (mem_alike.mp (halike ▸ List.mem_cons_self)).1
    exact (tree.mem_entries _ _).mp hmem

theorem Matches.concat {segment : String} (h : Matches toLowerCase segments path)
    (heq : toLowerCase name = toLowerCase segment) : Matches toLowerCase (segments ++ [segment]) (path ++ [name]) :=
  List.rel_append h (.cons heq .nil)

theorem Reached.matches (h : Reached tree toLowerCase request path) : Matches toLowerCase request path := by
  induction h with
  | root => exact .nil
  | exact hreached hmem ih => exact ih.concat rfl
  | folded hreached hfree halike ih => exact ih.concat (mem_alike.mp (halike ▸ List.mem_cons_self)).2

theorem readDirectory_directory (h : tree.node path = some .directory) :
    tree.lookup.readDirectory path = .ok (tree.entries path) := by
  simp [DirectoryTree.lookup, h]

theorem readDirectory_file (h : tree.node path = some .file) : tree.lookup.readDirectory path = .error .notDirectory := by
  simp [DirectoryTree.lookup, h]

variable {segment : String} {rest : List String}

theorem walk_of_mem (h : segment ∈ tree.entries path) :
    walk tree.lookup toLowerCase input false path (segment :: rest) =
      walk tree.lookup toLowerCase input false (path ++ [segment]) rest := by
  rw [walk]
  exact if_pos ((tree.mem_entries path segment).mp h)

theorem walk_of_notMem (hfree : segment ∉ tree.entries path) (hdirectory : tree.node path = some .directory) :
    walk tree.lookup toLowerCase input false path (segment :: rest) =
      match alike tree toLowerCase path segment with
      | [entry] => walk tree.lookup toLowerCase input false (path ++ [entry]) rest
      | [] => .error (.localPath input .notFound [])
      | entry :: other :: entries => .error (.localPath input .ambiguousCase (entry :: other :: entries)) := by
  have hmissing : ¬tree.lookup.exists' (path ++ [segment]) = true := mt (tree.mem_entries path segment).mpr hfree
  rw [walk, if_neg hmissing, readDirectory_directory hdirectory]
  rfl

theorem walk_of_file (h : tree.node path = some .file) :
    walk tree.lookup toLowerCase input false path (segment :: rest) = .error (.platform .notDirectory) := by
  have hfree : ¬tree.lookup.exists' (path ++ [segment]) = true := by
    intro hexists
    rw [tree.parent path segment hexists] at h
    cases h
  have hexists : tree.lookup.exists' path = true := by simp [DirectoryTree.lookup, h]
  rw [walk, if_neg hfree, readDirectory_file h]
  exact if_neg fun h => absurd (hexists.symm.trans h.2) Bool.noConfusion

theorem Reached.walk_append (h : Reached tree toLowerCase segments path) (rest : List String) :
    walk tree.lookup toLowerCase input false [] (segments ++ rest) = walk tree.lookup toLowerCase input false path rest := by
  induction h generalizing rest with
  | root => rfl
  | exact hreached hmem ih =>
    rw [List.append_assoc, ih, List.cons_append, List.nil_append, walk_of_mem hmem]
  | folded hreached hfree halike ih =>
    have hmem := (mem_alike.mp (halike ▸ List.mem_cons_self)).1
    rw [List.append_assoc, ih, List.cons_append, List.nil_append, walk_of_notMem hfree (node_of_mem hmem), halike]

theorem answers_walk (h : Reached tree toLowerCase segments path) (rest : List String) :
    Answers tree toLowerCase input (segments ++ rest) (walk tree.lookup toLowerCase input false path rest) := by
  induction rest generalizing segments path with
  | nil =>
    rw [List.append_nil]
    exact .found h
  | cons segment rest ih =>
    have hassoc : segments ++ segment :: rest = segments ++ [segment] ++ rest := by
      rw [List.append_assoc, List.cons_append, List.nil_append]
    by_cases hmem : segment ∈ tree.entries path
    · rw [walk_of_mem hmem, hassoc]
      exact ih (h.exact hmem)
    · cases hkind : tree.node path with
      | none => exact absurd h.exists (by rw [DirectoryTree.Exists, hkind]; exact Bool.false_ne_true)
      | some kind =>
        cases kind with
        | file =>
          rw [walk_of_file hkind]
          exact .file rfl h hkind
        | directory =>
          rw [walk_of_notMem hmem hkind]
          -- by how many entries are alike
          cases halike : alike tree toLowerCase path segment with
          | nil => exact .missing rfl h hkind halike
          | cons entry others =>
            cases others with
            | nil =>
              rw [hassoc]
              exact ih (h.folded hmem halike)
            | cons other others =>
              dsimp only
              rw [← halike]
              refine .ambiguous rfl h hmem ?_
              rw [halike, List.length_cons, List.length_cons]
              omega

theorem Answers.walk_eq (h : Answers tree toLowerCase input request outcome) :
    walk tree.lookup toLowerCase input false [] request = outcome := by
  cases h with
  | @found reached hreached =>
    have hwalk : walk tree.lookup toLowerCase input false [] (request ++ []) = .ok reached := hreached.walk_append []
    rwa [List.append_nil] at hwalk
  | @ambiguous segments rest segment reached hsplit hreached hfree hmany =>
    rw [hsplit, hreached.walk_append]
    cases halike : alike tree toLowerCase reached segment with
    | nil =>
      rw [halike] at hmany
      cases hmany
    | cons entry others =>
      have hmem := (mem_alike.mp (halike ▸ List.mem_cons_self)).1
      rw [walk_of_notMem hfree (node_of_mem hmem), halike]
      cases others with
      | nil =>
        rw [halike] at hmany
        exact absurd hmany (Nat.lt_irrefl 1)
      | cons other others => rfl
  | @missing segments rest segment reached hsplit hreached hdirectory hnone =>
    have hfree : segment ∉ tree.entries reached := by
      intro hmem
      have halike : segment ∈ alike tree toLowerCase reached segment := mem_alike.mpr ⟨hmem, rfl⟩
      rw [hnone] at halike
      cases halike
    rw [hsplit, hreached.walk_append, walk_of_notMem hfree hdirectory, hnone]
  | file hsplit hreached hfile => rw [hsplit, hreached.walk_append, walk_of_file hfile]

theorem walk_eq_iff :
    walk tree.lookup toLowerCase input false [] request = outcome ↔ Answers tree toLowerCase input request outcome := by
  constructor
  · intro h
    rw [← h]
    exact answers_walk .root request
  · exact Answers.walk_eq

end Walks

section Requests

theorem exists_of_initial {segments : List String} (hinit : segments <+: request) (h : tree.Exists request) :
    tree.Exists segments := by
  obtain ⟨rest, rfl⟩ := hinit
  induction rest using List.reverseRecOn with
  | nil => rwa [List.append_nil] at h
  | append_singleton rest name ih =>
    rw [← List.append_assoc] at h
    refine ih ?_
    rw [DirectoryTree.Exists, tree.parent _ name h]
    rfl

theorem reached_self (h : tree.Exists request) : Reached tree toLowerCase request request := by
  induction request using List.reverseRecOn with
  | nil => exact .root
  | append_singleton segments segment ih =>
    exact (ih (exists_of_initial (List.prefix_append segments [segment]) h)).exact ((tree.mem_entries segments segment).mpr h)

theorem resolveExistingPath_eq_iff {outcome : Except Failure Path} :
    resolveExistingPath tree.lookup toLowerCase input request = outcome ↔ Answers tree toLowerCase input request outcome := by
  rw [resolveExistingPath, resolveWith, ← walk_eq_iff]
  by_cases hexists : tree.lookup.exists' request = true
  · rw [if_pos hexists, walk_eq_iff.mpr (.found (reached_self hexists))]
  · rw [if_neg hexists]

theorem eq_singleton_of_nodup {names : List String} {name : String} (hnodup : names.Nodup) (hmem : name ∈ names)
    (honly : ∀ other ∈ names, other = name) : names = [name] := by
  cases names with
  | nil => cases hmem
  | cons first others =>
    have hfirst := honly first List.mem_cons_self
    cases others with
    | nil => rw [hfirst]
    | cons second others =>
      have hsecond := honly second (List.mem_cons_of_mem _ List.mem_cons_self)
      rw [hfirst, hsecond] at hnodup
      exact absurd List.mem_cons_self (List.nodup_cons.mp hnodup).1

/-- Where at most one path is alike to each prefix of a request, the request leads to the path alike to it. -/
theorem reached_of_apart (hapart : Apart tree toLowerCase request) (hexists : tree.Exists path)
    (hmatches : Matches toLowerCase request path) : Reached tree toLowerCase request path := by
  induction path using List.reverseRecOn generalizing request with
  | nil =>
    rw [Matches, List.forall₂_nil_right_iff] at hmatches
    rw [hmatches]
    exact .root
  | append_singleton before name ih =>
    have hbefore : Matches toLowerCase (request.take before.length) before := List.forall₂_take_append _ _ _ hmatches
    have hlast := List.forall₂_drop_append _ _ _ hmatches
    rw [List.forall₂_cons_right_iff] at hlast
    obtain ⟨segment, others, hname, hnil, hdrop⟩ := hlast
    rw [List.forall₂_nil_right_iff] at hnil
    subst hnil
    have hsplit : request = request.take before.length ++ [segment] := by rw [← hdrop, List.take_append_drop]
    have hmem : name ∈ tree.entries before := (tree.mem_entries before name).mpr hexists
    have hreached := ih (fun segments hinit => hapart segments (hinit.trans (List.take_prefix _ _)))
      (exists_of_initial (List.prefix_append before [name]) hexists) hbefore
    -- whatever is alike to the segment here is the entry of the path
    have honly (other : String) (hother : other ∈ tree.entries before) (halike : toLowerCase other = toLowerCase segment) :
        other = name := by
      have hsame := hapart request List.prefix_rfl _ _ ((tree.mem_entries before other).mp hother) hexists
        (hsplit ▸ hbefore.concat halike) hmatches
      exact List.cons.inj (List.append_cancel_left hsame) |>.1
    rw [hsplit]
    by_cases hexact : segment ∈ tree.entries before
    · rw [← honly segment hexact rfl]
      exact hreached.exact hexact
    · refine hreached.folded hexact (eq_singleton_of_nodup ((tree.nodup_entries before).filter _) ?_ fun other hother => ?_)
      · exact mem_alike.mpr ⟨hmem, hname⟩
      · exact honly other (mem_alike.mp hother).1 (mem_alike.mp hother).2

/-- A path that is returned exists and is alike to the request, and where one path at most is alike to each prefix, it is
that. -/
theorem resolveExistingPath_answers (tree : DirectoryTree) (toLowerCase : String → String) (input : String) (request : Path) :
    (∀ outcome, resolveExistingPath tree.lookup toLowerCase input request = outcome ↔
        Answers tree toLowerCase input request outcome) ∧
      (tree.Exists request → resolveExistingPath tree.lookup toLowerCase input request = .ok request) ∧
        (∀ path, resolveExistingPath tree.lookup toLowerCase input request = .ok path →
          tree.Exists path ∧ Matches toLowerCase request path) ∧
          (Apart tree toLowerCase request → ∀ path, tree.Exists path ∧ Matches toLowerCase request path ↔
            resolveExistingPath tree.lookup toLowerCase input request = .ok path) := by
  have hreturns (path : Path) (h : resolveExistingPath tree.lookup toLowerCase input request = .ok path) :
      tree.Exists path ∧ Matches toLowerCase request path := by
    cases resolveExistingPath_eq_iff.mp h with
    | found hreached => exact ⟨hreached.exists, hreached.matches⟩
  refine ⟨fun outcome => resolveExistingPath_eq_iff, fun hexists => ?_, hreturns, fun hapart path => ⟨fun h => ?_, hreturns path⟩⟩
  · exact resolveExistingPath_eq_iff.mpr (.found (reached_self hexists))
  · exact resolveExistingPath_eq_iff.mpr (.found (reached_of_apart hapart h.1 h.2))

def sampleLower (text : String) : String := String.ofList (text.toList.map Char.toLower)

def sampleTree : DirectoryTree where
  node path :=
    if path = [] ∨ path = ["Foo"] ∨ path = ["foo"] then some .directory
    else if path = ["foo", "bar"] then some .file
    else none
  entries path := if path = [] then ["Foo", "foo"] else if path = ["foo"] then ["bar"] else []
  root := rfl
  mem_entries path name := by
    cases path with
    | nil => simp
    | cons first others =>
      cases others with
      | nil => by_cases hfirst : first = "foo" <;> simp [hfirst]
      | cons second others => simp
  nodup_entries path := by
    split
    · decide
    · split
      · decide
      · exact List.nodup_nil
  parent path name h := by
    cases path with
    | nil => rfl
    | cons first others =>
      cases others with
      | nil =>
        have hfirst : first = "foo" := by
          by_contra hne
          simp [hne] at h
        simp [hfirst]
      | cons second others => simp at h

theorem sampleTree_paths (h : sampleTree.Exists path) : path = [] ∨ path = ["Foo"] ∨ path = ["foo"] ∨ path = ["foo", "bar"] := by
  by_cases hdirectory : path = [] ∨ path = ["Foo"] ∨ path = ["foo"]
  · rcases hdirectory with hpath | hpath | hpath
    · exact .inl hpath
    · exact .inr (.inl hpath)
    · exact .inr (.inr (.inl hpath))
  · by_cases hfile : path = ["foo", "bar"]
    · exact .inr (.inr (.inr hfile))
    · have hnone : sampleTree.node path = none := (if_neg hdirectory).trans (if_neg hfile)
      rw [DirectoryTree.Exists, hnone] at h
      cases h

theorem sampleTree_matches : Matches sampleLower ["Foo", "BAR"] ["foo", "bar"] := by
  have hfoo : sampleLower "foo" = sampleLower "Foo" := by decide +kernel
  have hbar : sampleLower "bar" = sampleLower "BAR" := by decide +kernel
  exact .cons hfoo (.cons hbar .nil)

/-- The one file alike to the request is not found below the directory of the exact name. -/
theorem sampleTree_hides :
    (∀ path, sampleTree.Exists path ∧ Matches sampleLower ["Foo", "BAR"] path ↔ path = ["foo", "bar"]) ∧
      resolveExistingPath sampleTree.lookup sampleLower "/Foo/BAR" ["Foo", "BAR"] =
        .error (.localPath "/Foo/BAR" .notFound []) := by
  refine ⟨fun path => ⟨fun h => ?_, fun h => ?_⟩, by decide +kernel⟩
  · have hlength := h.2.length_eq
    rcases sampleTree_paths h.1 with rfl | rfl | rfl | hpath
    · exact absurd hlength (by decide)
    · exact absurd hlength (by decide)
    · exact absurd hlength (by decide)
    · exact hpath
  · subst h
    exact ⟨by simp [DirectoryTree.Exists, sampleTree], sampleTree_matches⟩

end Requests

end Rika.PathResolution
