import Rika.Fold
import Rika.Substrings
import Rika.TarEntries

namespace Rika.Tar

open FileTree (Node lexical resolve Returns Plain)

def component (part : Text) : Component Text :=
  if part.isEmpty || part = ['.'] then .here else if part = ['.', '.'] then .up else .name part

def components (text : Text) : List (Component Text) := (split text).map component

structure Member where
  path : Text
  type : EntryType
  linkName : Text
deriving DecidableEq

def member (entry : Pending × Header) : Option Member :=
  let selected := headerValues entry.2 entry.1
  match archiveEntryType entry.2.type, normalizeEntryPath selected.path with
  | some type, some path => if path.isEmpty then none else some ⟨path, type, selected.linkName⟩
  | _, _ => none

def members (archive : List (Pending × Header)) : List Member := archive.filterMap member

def Member.node (member : Member) : Node Text :=
  match member.type with
  | .directory => .directory
  | .file | .hardlink => .file
  | .symlink => .link (components member.linkName)

/-- The tree that entries describe: what each of them is, and a directory
above them where none of them is. -/
def tree (members : List Member) : FileTree.Tree Text := fun path =>
  match members.find? fun member => split member.path = path with
  | some member => some member.node
  | none => if members.any fun member => path.isPrefixOf (split member.path) then some .directory else none

def inspectEntries (archive : List (Pending × Header)) : Except WorkspaceArchiveError Registry := do
  let registry ← archive.foldlM (fun registry entry => register registry entry.1 entry.2) {}
  match validateLinks registry.entries with
  | none => return registry
  | some error => throw error

def Member.entry (member : Member) : Entry where
  path := member.path
  type := member.type
  target := (isLinkEntry member.type).bind (normalizeLinkTarget member.path member.linkName)

structure Registered (member : Member) : Prop where
  nonempty : member.path ≠ []
  allowed : forbiddenPath member.path = false
  target : (isLinkEntry member.type).isSome = true → member.entry.target.isSome = true

theorem join_split (path : Text) : join (split path) = path := List.intercalate_splitOn '/'

variable {parts : List Text} {path target : Text} {registry : Registry} {archive : List (Pending × Header)}

theorem split_join (hslash : ∀ part ∈ parts, '/' ∉ part) (hne : parts ≠ []) :
    split (join parts) = parts := List.splitOn_intercalate '/' hslash hne

theorem applyParts_eq (parts texts : List Text) : applyParts parts texts = lexical parts (texts.map component) := by
  induction texts generalizing parts with
  | nil => rfl
  | cons part rest ih =>
    rw [applyParts, List.map_cons, component]
    by_cases hhere : (part.isEmpty || decide (part = ['.'])) = true
    · rw [if_pos hhere, if_pos hhere, ih]
      rfl
    · rw [if_neg hhere, if_neg hhere]
      by_cases hup : part = ['.', '.']
      · rw [if_pos hup, if_pos hup, ih]
        rfl
      · rw [if_neg hup, if_neg hup, ih]
        rfl

theorem applyParts_noSlash {texts result : List Text} (hparts : ∀ part ∈ parts, '/' ∉ part)
    (htexts : ∀ part ∈ texts, '/' ∉ part) (h : applyParts parts texts = some result) : ∀ part ∈ result, '/' ∉ part := by
  induction texts generalizing parts with
  | nil =>
    cases h
    exact hparts
  | cons text rest ih =>
    rw [List.forall_mem_cons] at htexts
    rw [applyParts] at h
    split at h
    · exact ih hparts htexts.2 h
    · split at h
      · obtain ⟨-, h⟩ := Option.ite_none_left_eq_some.mp h
        exact ih (fun part hpart => hparts part (List.dropLast_subset _ hpart)) htexts.2 h
      · refine ih ?_ htexts.2 h
        intro part hpart
        rcases List.mem_append.mp hpart with hpart | hpart
        · exact hparts part hpart
        · rw [List.mem_singleton] at hpart
          exact hpart ▸ htexts.1

theorem normalizeLinkTarget_eq_some {text : Text} (h : normalizeLinkTarget path text .symlink = some target) :
    lexical (split path).dropLast (components text) = some (split target) ∧ target ≠ [] ∧
      forbiddenPath target = false := by
  unfold normalizeLinkTarget at h
  obtain ⟨-, h⟩ := Option.ite_none_left_eq_some.mp h
  dsimp only at h
  cases hparts : applyParts (split path).dropLast (split text) with
  | none => simp [hparts] at h
  | some parts =>
    simp only [hparts] at h
    obtain ⟨hgood, h⟩ := Option.ite_none_left_eq_some.mp h
    cases h
    simp only [Bool.or_eq_true, not_or, Bool.not_eq_true] at hgood
    have hslash : ∀ part ∈ parts, '/' ∉ part :=
      applyParts_noSlash (fun part hpart => Substrings.notMem_of_mem_splitOn (List.dropLast_subset _ hpart))
        (fun part hpart => Substrings.notMem_of_mem_splitOn hpart) hparts
    have hne : parts ≠ [] := by
      rintro rfl
      simp [join] at hgood
    rw [split_join hslash hne, components, ← applyParts_eq]
    exact ⟨hparts, by simpa using hgood.1, hgood.2⟩

theorem makeEntry_eq_ok {linkName : Text} {type : EntryType} {size : Nat} {entry : Entry}
    (h : makeEntry path type size linkName = .ok entry) :
    entry = (⟨path, type, linkName⟩ : Member).entry ∧ ((isLinkEntry type).isSome = true → entry.target.isSome = true) := by
  unfold makeEntry at h
  split at h
  · next hlink =>
      cases h
      rw [Member.entry, hlink]
      exact ⟨rfl, fun hsome => by cases hsome⟩
  · next link hlink =>
      obtain ⟨-, h⟩ := Fold.ite_error_eq_ok.mp h
      split at h
      · cases h
      · next target htarget =>
          cases h
          rw [Member.entry, hlink, Option.bind_some, htarget]
          exact ⟨rfl, fun _ => rfl⟩

theorem normalizeEntryPath_allowed {input : Text} (h : normalizeEntryPath input = some path) (hne : path ≠ []) :
    forbiddenPath path = false := by
  unfold normalizeEntryPath at h
  dsimp only at h
  obtain ⟨-, h⟩ := Option.ite_none_left_eq_some.mp h
  split at h
  · cases h
    exact absurd rfl hne
  · obtain ⟨-, h⟩ := Option.ite_none_left_eq_some.mp h
    obtain ⟨hallowed, h⟩ := Option.ite_none_left_eq_some.mp h
    cases h
    simpa using hallowed

theorem register_eq_ok {registry' : Registry} {pending : Pending} {parsed : Header}
    (h : register registry pending parsed = .ok registry') :
    (member (pending, parsed) = none ∧ registry'.entries = registry.entries) ∨
      ∃ entry, member (pending, parsed) = some entry ∧ Registered entry ∧ registry.entries.get entry.path = none ∧
        registry'.entries = registry.entries.set entry.path entry.entry := by
  unfold register at h
  split at h
  · cases h
  · next type htype =>
      dsimp only at h
      split at h
      · cases h
      · next path hpath =>
          obtain ⟨contentBytes, -, h⟩ := Fold.bind_eq_ok.mp h
          by_cases hroot : path = []
          · left
            subst hroot
            refine ⟨by simp [member, htype, hpath], ?_⟩
            simp only [List.isEmpty_nil, Bool.true_and, if_true] at h
            obtain ⟨-, h⟩ := Fold.ite_else_error_eq_ok.mp h
            cases h
            rfl
          · right
            have hnonempty : path.isEmpty = false := by simpa using hroot
            rw [hnonempty] at h
            simp only [Bool.false_and, Bool.false_eq_true, if_false] at h
            obtain ⟨hnew, h⟩ := Fold.ite_error_eq_ok.mp h
            obtain ⟨-, h⟩ := Fold.ite_error_eq_ok.mp h
            obtain ⟨entry, hentry, h⟩ := Fold.bind_eq_ok.mp h
            cases h
            obtain ⟨rfl, htarget⟩ := makeEntry_eq_ok hentry
            refine ⟨⟨path, type, (headerValues parsed pending).linkName⟩, ?_,
              ⟨hroot, normalizeEntryPath_allowed hpath hroot, htarget⟩, ?_, rfl⟩
            · simp [member, htype, hpath, hroot]
            · simpa [InsertionMap.has] using hnew

theorem foldlM_register {archive : List (Pending × Header)} {registry registry' : Registry} {before : List Member}
    (hentries : registry.entries.entries = before.map fun entry => (entry.path, entry.entry))
    (hbefore : ∀ entry ∈ before, Registered entry)
    (h : archive.foldlM (fun registry entry => register registry entry.1 entry.2) registry = .ok registry') :
    registry'.entries.entries = (before ++ members archive).map (fun entry => (entry.path, entry.entry)) ∧
      ∀ entry ∈ before ++ members archive, Registered entry := by
  induction archive generalizing registry before with
  | nil =>
    cases h
    rw [members, List.filterMap_nil, List.append_nil]
    exact ⟨hentries, hbefore⟩
  | cons entry archive ih =>
    rw [List.foldlM_cons] at h
    obtain ⟨next, hnext, hrest⟩ := Fold.bind_eq_ok.mp h
    rcases register_eq_ok hnext with ⟨hmember, hsame⟩ | ⟨added, hmember, hregistered, hnew, hset⟩
    · have hmembers : members (entry :: archive) = members archive := List.filterMap_cons_none hmember
      rw [hmembers]
      exact ih (hsame ▸ hentries) hbefore hrest
    · have hmembers : members (entry :: archive) = added :: members archive := List.filterMap_cons_some hmember
      have happend := @ih next (before ++ [added]) (by
        rw [hset, InsertionMap.entries_set_of_get_none hnew, hentries, List.map_append]
        rfl) (by
        intro other hother
        rcases List.mem_append.mp hother with hother | hother
        · exact hbefore other hother
        · exact List.mem_singleton.mp hother ▸ hregistered) hrest
      rw [List.append_assoc, List.singleton_append] at happend
      rw [hmembers]
      exact happend

theorem mem_properPrefixes :
    target ∈ properPrefixes path ↔ split target <+: split path ∧ (split target).length < (split path).length := by
  rw [properPrefixes, List.mem_map]
  constructor
  · rintro ⟨index, hindex, rfl⟩
    rw [List.mem_range] at hindex
    have hslash : ∀ part ∈ (split path).take (index + 1), '/' ∉ part :=
      fun part hpart => Substrings.notMem_of_mem_splitOn (List.mem_of_mem_take hpart)
    have hne : (split path).take (index + 1) ≠ [] := by
      rw [ne_eq, List.take_eq_nil_iff]
      have hsplit : split path ≠ [] := List.splitOn_ne_nil '/' path
      exact fun hnil => hnil.elim (Nat.succ_ne_zero index) hsplit
    rw [split_join hslash hne]
    refine ⟨List.take_prefix _ _, ?_⟩
    rw [List.length_take]
    omega
  · rintro ⟨hpath, hlength⟩
    have hpos : 0 < (split target).length := List.length_pos_iff.mpr (List.splitOn_ne_nil '/' target)
    refine ⟨(split target).length - 1, List.mem_range.mpr (by omega), ?_⟩
    rw [Nat.sub_add_cancel hpos, ← List.prefix_iff_eq_take.mp hpath, join_split]

section

variable {archive : List (Pending × Header)} {registry : Registry}

theorem inspectEntries_eq_ok (h : inspectEntries archive = .ok registry) :
    registry.entries.values = (members archive).map (·.entry) ∧ (∀ entry ∈ members archive, Registered entry) ∧
      ∀ entry ∈ members archive,
        validateEntry registry.entries (knownPaths registry.entries) (symlinkPaths registry.entries) entry.entry =
          none := by
  obtain ⟨registry', hregistered, h⟩ := Fold.bind_eq_ok.mp h
  have hvalid : validateLinks registry'.entries = none ∧ registry' = registry := by
    split at h
    · next hvalid =>
        cases h
        exact ⟨hvalid, rfl⟩
    · cases h
  obtain ⟨hvalid, rfl⟩ := hvalid
  obtain ⟨hentries, hall⟩ := @foldlM_register archive {} registry' [] rfl (by simp) hregistered
  rw [List.nil_append] at hentries hall
  have hvalues : registry'.entries.values = (members archive).map (·.entry) := by
    rw [InsertionMap.values, hentries, List.map_map]
    rfl
  refine ⟨hvalues, hall, fun entry hentry => ?_⟩
  rw [validateLinks, List.findSome?_eq_none_iff, hvalues] at hvalid
  exact hvalid entry.entry (List.mem_map_of_mem hentry)

theorem validateEntry_eq_none {entries : InsertionMap Text Entry} {known symlinks : List Text} {entry : Entry}
    (h : validateEntry entries known symlinks entry = none) :
    (∀ path ∈ properPrefixes entry.path, path ∉ symlinks) ∧ ∀ target, entry.target = some target → target ∈ known := by
  unfold validateEntry at h
  split at h
  · cases h
  · next hpath =>
      refine ⟨fun path hmem hlink => hpath (List.any_eq_true.mpr ⟨path, hmem, by simpa using hlink⟩), ?_⟩
      intro target htarget
      simp only [htarget] at h
      by_contra hunknown
      rw [if_pos (by simpa using hunknown)] at h
      cases h

theorem tree_isSome {target : Text} (hvalues : registry.entries.values = (members archive).map (·.entry))
    (hknown : target ∈ knownPaths registry.entries) (hne : target ≠ []) :
    (tree (members archive) (split target)).isSome = true := by
  rw [knownPaths, List.mem_cons, hvalues, List.mem_flatMap] at hknown
  obtain ⟨entry, hentry, hpath⟩ := hknown.resolve_left hne
  obtain ⟨member, hmember, rfl⟩ := List.mem_map.mp hentry
  have hpath : split target <+: split member.path := by
    rcases List.mem_append.mp hpath with hpath | hpath
    · exact (mem_properPrefixes.mp hpath).1
    · rw [List.mem_singleton] at hpath
      exact hpath ▸ List.prefix_refl _
  rw [tree]
  split
  · rfl
  · rw [if_pos (List.any_eq_true.mpr ⟨member, hmember, List.isPrefixOf_iff_prefix.mpr hpath⟩)]
    rfl

theorem target_of_registered {link : Member} (h : Registered link) (hlink : link.type = .symlink) :
    ∃ target, normalizeLinkTarget link.path link.linkName .symlink = some target ∧ link.entry.target = some target := by
  have hsome := h.target (by rw [hlink]; rfl)
  rw [Member.entry, hlink] at hsome ⊢
  obtain ⟨target, htarget⟩ := Option.isSome_iff_exists.mp hsome
  exact ⟨target, htarget, htarget⟩

end

/-- Links lead where the inspector computed, to no forbidden path, and no
entry is below a link. -/
structure LinksInside (archive : List (Pending × Header)) (links : Nat) : Prop where
  resolved : ∀ link ∈ members archive, link.type = .symlink →
    ∃ target, normalizeLinkTarget link.path link.linkName .symlink = some target ∧
      resolve (tree (members archive)) links (split link.path).dropLast (components link.linkName) =
        some (split target) ∧
      forbiddenPath target = false
  chased : ∀ link ∈ members archive, link.type = .symlink → ∀ reads,
    ∃ path, FileTree.chase (tree (members archive)) links reads (split link.path) = some path ∧
      forbiddenPath (join path) = false
  paths : ∀ link ∈ members archive, link.type = .symlink → ∀ entry ∈ members archive,
    ¬(split link.path <+: split entry.path ∧ (split link.path).length < (split entry.path).length)

/-- Every name of a link's text with more to come is a directory's, or that of
a link that leads back to where the text says. -/
def ReturningLinks (archive : List (Pending × Header)) (links : Nat) : Prop :=
  ∀ link ∈ members archive, link.type = .symlink →
    Returns (tree (members archive)) links (split link.path).dropLast (components link.linkName)

/-- Every name of a link's text with more to come is a directory's. -/
def PlainLinks (archive : List (Pending × Header)) : Prop :=
  ∀ link ∈ members archive, link.type = .symlink →
    Plain (tree (members archive)) (split link.path).dropLast (components link.linkName)

instance (archive : List (Pending × Header)) : Decidable (PlainLinks archive) :=
  inferInstanceAs (Decidable (∀ link ∈ members archive, link.type = .symlink →
    Plain (tree (members archive)) (split link.path).dropLast (components link.linkName)))

theorem returningLinks_of_plain (h : PlainLinks archive) (links : Nat) : ReturningLinks archive links :=
  fun link hlink hsymlink => FileTree.returns_of_plain links (h link hlink hsymlink)

theorem tree_link {all : List Member} {path : List Text} {target : List (Component Text)}
    (h : tree all path = some (.link target)) :
    ∃ link ∈ all, link.type = .symlink ∧ split link.path = path ∧ components link.linkName = target := by
  rw [tree] at h
  split at h
  · next link hfind =>
      have hpath : split link.path = path := by simpa using List.find?_some hfind
      refine ⟨link, List.mem_of_find?_eq_some hfind, ?_⟩
      unfold Member.node at h
      cases htype : link.type <;> simp [htype] at h
      exact ⟨rfl, hpath, h⟩
  · split at h <;> cases h

theorem linksInside_of_resolved (haccepted : inspectEntries archive = .ok registry) {links : Nat}
    (h : ∀ link ∈ members archive, link.type = .symlink →
      ∃ target, normalizeLinkTarget link.path link.linkName .symlink = some target ∧
        resolve (tree (members archive)) links (split link.path).dropLast (components link.linkName) =
          some (split target) ∧
        forbiddenPath target = false) : LinksInside archive links := by
  obtain ⟨hvalues, hregistered, hvalid⟩ := inspectEntries_eq_ok haccepted
  refine ⟨h, ?_, ?_⟩
  · intro link hlink hsymlink reads
    apply FileTree.chase_good
    · intro path text htext
      obtain ⟨next, hnext, hsymlink', rfl, rfl⟩ := tree_link htext
      obtain ⟨target, -, hreached, hallowed⟩ := h next hnext hsymlink'
      exact ⟨split target, hreached, by rwa [join_split]⟩
    · rw [join_split]
      exact (hregistered link hlink).allowed
  · intro link hlink hsymlink entry hentry hpath
    refine (validateEntry_eq_none (hvalid entry hentry)).1 link.path (mem_properPrefixes.mpr hpath) ?_
    rw [symlinkPaths, hvalues, List.mem_map]
    exact ⟨link.entry, List.mem_filter.mpr ⟨List.mem_map_of_mem hlink, decide_eq_true hsymlink⟩, rfl⟩

/-- Every link resolves inside the root, where the inspector has it, exactly when the links it passes lead where texts
say. -/
theorem accepted_links_inside_iff (archive : List (Pending × Header)) (registry : Registry)
    (haccepted : inspectEntries archive = .ok registry) (links : Nat) :
    LinksInside archive links ↔ ReturningLinks archive links := by
  obtain ⟨hvalues, hregistered, hvalid⟩ := inspectEntries_eq_ok haccepted
  have hiff : ∀ link ∈ members archive, link.type = .symlink →
      ∃ target, normalizeLinkTarget link.path link.linkName .symlink = some target ∧ forbiddenPath target = false ∧
        (resolve (tree (members archive)) links (split link.path).dropLast (components link.linkName) =
            some (split target) ↔
          Returns (tree (members archive)) links (split link.path).dropLast (components link.linkName)) := by
    intro link hlink hsymlink
    obtain ⟨target, htarget, hentry⟩ := target_of_registered (hregistered link hlink) hsymlink
    obtain ⟨hlexical, hne, hallowed⟩ := normalizeLinkTarget_eq_some htarget
    have hknown := (validateEntry_eq_none (hvalid link hlink)).2 target hentry
    exact ⟨target, htarget, hallowed, FileTree.resolve_iff hlexical (tree_isSome hvalues hknown hne)⟩
  constructor
  · intro h link hlink hsymlink
    obtain ⟨target, htarget, hreached, -⟩ := h.resolved link hlink hsymlink
    obtain ⟨target', htarget', -, hreturns⟩ := hiff link hlink hsymlink
    obtain rfl := Option.some_inj.mp (htarget.symm.trans htarget')
    exact hreturns.mp hreached
  · intro h
    apply linksInside_of_resolved haccepted
    intro link hlink hsymlink
    obtain ⟨target, htarget, hallowed, hreturns⟩ := hiff link hlink hsymlink
    exact ⟨target, htarget, hreturns.mpr (h link hlink hsymlink), hallowed⟩

def directoryHeader (name : String) : Pending × Header := ({}, ⟨name.toList, [], 0, '5'⟩)

def fileHeader (name : String) : Pending × Header := ({}, ⟨name.toList, [], 0, '0'⟩)

def linkHeader (name target : String) : Pending × Header := ({}, ⟨name.toList, target.toList, 0, '2'⟩)

theorem accepted_links_inside_iff_sample :
    LinksInside [directoryHeader "a", fileHeader "a/foo", linkHeader "b/link" "../a/./foo"] 40 := by
  cases h : inspectEntries [directoryHeader "a", fileHeader "a/foo", linkHeader "b/link" "../a/./foo"] with
  | ok registry =>
    exact (accepted_links_inside_iff _ registry h 40).mpr (returningLinks_of_plain (by decide +kernel) 40)
  | error error =>
    have hok : (inspectEntries [directoryHeader "a", fileHeader "a/foo", linkHeader "b/link" "../a/./foo"]).isOk =
        true := by decide +kernel
    rw [h] at hok
    cases hok

/-- The link `a/b/c/l` passes through the link `a/b/c/x` to `top`, whose
parent is the root. -/
def escapingArchive : List (Pending × Header) :=
  [directoryHeader "top", directoryHeader "a/b/c", fileHeader "a/foo", linkHeader "a/b/c/x" "../../../top",
    linkHeader "a/b/c/l" "x/../../../foo"]

/-- The archive is accepted, and the link leads above the root. -/
theorem accepted_link_escapes : (inspectEntries escapingArchive).isOk = true ∧
      normalizeLinkTarget "a/b/c/l".toList "x/../../../foo".toList .symlink = some "a/foo".toList ∧
      resolve (tree (members escapingArchive)) 40 (split "a/b/c/l".toList).dropLast
        (components "x/../../../foo".toList) = none ∧
      ¬LinksInside escapingArchive 40 := by
  have hescapes : resolve (tree (members escapingArchive)) 40 (split "a/b/c/l".toList).dropLast
      (components "x/../../../foo".toList) = none := by decide +kernel
  refine ⟨by decide +kernel, by decide +kernel, hescapes, fun h => ?_⟩
  obtain ⟨target, -, hresolved, -⟩ :=
    h.resolved ⟨"a/b/c/l".toList, .symlink, "x/../../../foo".toList⟩ (by decide +kernel) rfl
  rw [hescapes] at hresolved
  cases hresolved

end Rika.Tar
