import Mathlib.Data.List.DropRight
import Rika.FileTree
import Rika.InsertionMap

namespace Rika.Tar

abbrev Text := List Char

def utf16Length (value : Text) : Nat := value.foldl (fun length c => if c.toNat < 0x10000 then length + 1 else length + 2) 0

def split (path : Text) : List Text := path.splitOn '/'

def join (parts : List Text) : Text := List.intercalate ['/'] parts

inductive ErrorKind
  | archive
  | size

structure WorkspaceArchiveError where
  kind : ErrorKind
  message : String

def failure {α : Type} (kind : ErrorKind) (message : String) : Except WorkspaceArchiveError α := .error ⟨kind, message⟩

def maximumArchiveEntries : Nat := 10000

def maximumArchiveUncompressedBytes : Nat := 268435456

inductive EntryType
  | directory
  | file
  | hardlink
  | symlink
deriving DecidableEq

structure Entry where
  path : Text
  type : EntryType
  target : Option Text := none

structure PaxValues where
  linkpath : Option Text := none
  path : Option Text := none
  size : Option Nat := none

structure Header where
  name : Text
  linkName : Text
  size : Nat
  type : Char

structure HeaderValues where
  linkName : Text
  path : Text
  size : Nat

structure Pending where
  pax : Option PaxValues := none
  longPath : Option Text := none
  longLink : Option Text := none

def startsWith (value start : Text) : Bool := start.isPrefixOf value

def forbiddenPath (path : Text) : Bool :=
  let parts := split path
  (parts.any fun part => part = ".git".toList || part = ".env".toList || startsWith part ".env.".toList) ||
    ((parts.zip parts.tail).any fun (part, next) =>
      (part = ".agents".toList && next = "state".toList) || (part = ".rika".toList && next = "secrets".toList)) ||
    [".git-credentials".toList, ".netrc".toList, ".npmrc".toList, ".pypirc".toList].contains (parts.getLast?.getD [])

/-- `while (value.startsWith("./")) value = value.slice(2)`. -/
def dropDots : Text → Text
  | '.' :: '/' :: rest => dropDots rest
  | value => value

def refused (input : Text) : Bool :=
  input.isEmpty || startsWith input ['/'] || input.contains (Char.ofNat 0) || utf16Length input > 4096

def normalizeEntryPath (input : Text) : Option Text :=
  if refused input then none
  else
    let value := (dropDots input).rdropWhile (· = '/')
    if value = ['.'] then some []
    else if (split value).any fun part => part.isEmpty || part = ['.'] || part = ['.', '.'] then none
    else if forbiddenPath value then none
    else some value

inductive LinkType
  | hardlink
  | symlink

/-- The loop of `normalizeLinkTarget`. -/
def applyParts : List Text → List Text → Option (List Text)
  | parts, [] => some parts
  | parts, part :: rest =>
    if part.isEmpty || part = ['.'] then applyParts parts rest
    else if part = ['.', '.'] then if parts.isEmpty then none else applyParts parts.dropLast rest
    else applyParts (parts ++ [part]) rest

def normalizeLinkTarget (entryPath target : Text) (type : LinkType) : Option Text :=
  if refused target then none
  else
    let start :=
      match type with
      | .symlink => (split entryPath).dropLast
      | .hardlink => []
    match applyParts start (split target) with
    | none => none
    | some parts =>
      let resolved := join parts
      if resolved.isEmpty || forbiddenPath resolved then none else some resolved

def properPrefixes (path : Text) : List Text :=
  (List.range ((split path).length - 1)).map fun index => join ((split path).take (index + 1))

section

variable (entries : InsertionMap Text Entry)

def validateEntry (knownPaths symlinks : List Text) (entry : Entry) :
    Option WorkspaceArchiveError :=
  if (properPrefixes entry.path).any fun path => symlinks.contains path then
    some ⟨.archive, "Workspace archive contains an unsafe link path"⟩
  else
    match entry.target with
    | none => none
    | some target =>
      if !knownPaths.contains target then some ⟨.archive, "Workspace archive contains an invalid link"⟩
      else if (properPrefixes target).any fun path => symlinks.contains path then
        some ⟨.archive, "Workspace archive contains an unsafe link target"⟩
      else if entry.type = .hardlink && (entries.get target).map (·.type) ≠ some .file then
        some ⟨.archive, "Workspace archive contains an invalid hard link"⟩
      else none

def knownPaths : List Text :=
  [] :: entries.values.flatMap fun entry => properPrefixes entry.path ++ [entry.path]

def symlinkPaths : List Text :=
  (entries.values.filter (·.type = .symlink)).map (·.path)

def validateLinks : Option WorkspaceArchiveError :=
  entries.values.findSome? (validateEntry entries (knownPaths entries) (symlinkPaths entries))

end

def archiveEntryType (type : Char) : Option EntryType :=
  if type = Char.ofNat 0 || type = '0' || type = '7' then some .file
  else if type = '1' then some .hardlink
  else if type = '2' then some .symlink
  else if type = '5' then some .directory
  else none

def headerValues (header : Header) (pending : Pending) : HeaderValues where
  linkName := ((pending.pax.bind (·.linkpath)).or pending.longLink).getD header.linkName
  path := ((pending.pax.bind (·.path)).or pending.longPath).getD header.name
  size := (pending.pax.bind (·.size)).getD header.size

def boundedContentBytes (current declared stored : Nat) : Except WorkspaceArchiveError Nat :=
  let size := max declared stored
  if (size : Int) > maximumArchiveUncompressedBytes - current then
    failure .size "Workspace archive expands beyond the allowed size"
  else .ok (current + size)

def isLinkEntry : EntryType → Option LinkType
  | .hardlink => some .hardlink
  | .symlink => some .symlink
  | .directory | .file => none

def makeEntry (path : Text) (type : EntryType) (size : Nat) (linkName : Text) : Except WorkspaceArchiveError Entry :=
  match isLinkEntry type with
  | none => .ok ⟨path, type, none⟩
  | some link =>
    if size ≠ 0 then failure .archive "Workspace archive link metadata is invalid"
    else
      match normalizeLinkTarget path linkName link with
      | none => failure .archive "Workspace archive contains an escaping link"
      | some target => .ok ⟨path, type, some target⟩

structure Registry where
  entries : InsertionMap Text Entry := .empty
  contentBytes : Nat := 0

def register (registry : Registry) (pending : Pending) (parsed : Header) : Except WorkspaceArchiveError Registry :=
  match archiveEntryType parsed.type with
  | none => failure .archive "Workspace archive contains an unsupported entry"
  | some type =>
    let selected := headerValues parsed pending
    match normalizeEntryPath selected.path with
    | none => failure .archive "Workspace archive contains a forbidden path"
    | some path => do
      let contentBytes ← boundedContentBytes registry.contentBytes selected.size parsed.size
      if path.isEmpty && type = .directory then return { registry with contentBytes }
      if path.isEmpty then failure .archive "Workspace archive contains an invalid path"
      else if registry.entries.has path then failure .archive "Workspace archive contains an invalid path"
      else if registry.entries.size ≥ maximumArchiveEntries then
        failure .size "Workspace archive contains too many entries"
      else
        let entry ← makeEntry path type selected.size selected.linkName
        return { entries := registry.entries.set path entry, contentBytes }

end Rika.Tar
