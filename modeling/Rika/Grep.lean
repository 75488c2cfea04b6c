import Rika.StableSort
import Rika.WideText

namespace Rika.Grep

open WideText

mutual

/-- What is at a path. What is listed may be `gone`, and what is there may be unreadable. -/
inductive Node
  | file (size : Nat) (content : Option Units)
  | directory (readable : Bool) (entries : Entries)
  | link
  | other
  | gone

inductive Entries
  | nil
  | cons (name : String) (node : Node) (rest : Entries)

end

def Entries.toList : Entries → List (String × Node)
  | nil => []
  | cons name node rest => (name, node) :: rest.toList

def Entries.names (entries : Entries) : List String := entries.toList.map Prod.fst

mutual

def Node.distinct : Node → Bool
  | .directory _ entries => entries.distinct
  | .file _ _ | .link | .other | .gone => true

def Entries.distinct : Entries → Bool
  | .nil => true
  | .cons name node rest => !rest.names.contains name && node.distinct && rest.distinct

end

structure FileTree where
  root : Node
  distinct : root.distinct = true

def Node.at (node : Node) : List String → Option Node
  | [] => some node
  | name :: names =>
    match node with
    | .directory _ entries => (entries.toList.lookup name).bind fun child => child.at names
    | .file _ _ | .link | .other | .gone => none

inductive ErrorKind
  | operation
  | notFound
  | path

structure RunnerGrepError where
  kind : ErrorKind
  message : String

def maxFileBytes : Nat := 1048576

def maxOutputBytes : Nat := 16384

def ignoredDirectories : List String := [".git", ".hg", ".svn", "node_modules", ".turbo", "dist", "coverage"]

def ignoredFiles : List String := [".DS_Store"]

structure GrepParameters where
  pattern : Units
  path : Option String
  glob : Option String
  maxResults : Option {count : Nat // 1 ≤ count}

/-- What the platform does: the order of names, regular expressions, where `new RegExp` may throw,
and where the path of a request really leads. -/
structure Platform where
  localeCompare : Collation
  regExp : Units → Option (Units → Bool)
  realPath : Option String → Option (List String)

/-- A line that is found: the names of its file's path, its number and its text. -/
structure Match where
  relative : List String
  number : Nat
  line : Units
deriving DecidableEq

def notFound (candidate : List String) : RunnerGrepError :=
  ⟨.notFound, "Workspace path not found: /" ++ "/".intercalate candidate⟩

def pathText (names : List String) : Units := (units ['/']).intercalate (names.map fun name => units name.toList)

def Match.text (found : Match) : Units :=
  pathText found.relative ++ units ":".toList ++ units (toString found.number).toList ++ units ":".toList ++ found.line

structure Traversal where
  localeCompare : Collation
  matcher : Units → Bool
  glob : Option (Units → Bool)
  maxResults : Nat

def newline : UInt16 := 10

variable (traversal : Traversal)

def appendLines (relative : List String) (lines : List Units) (index : Nat) (found : List Match) : List Match :=
  match lines with
  | [] => found
  | line :: lines =>
    if found.length < traversal.maxResults then
      appendLines relative lines (index + 1)
        (if traversal.matcher line then found ++ [⟨relative, index + 1, line⟩] else found)
    else found

def appendMatches (relative : List String) (content : Units) (found : List Match) : List Match :=
  appendLines traversal relative (content.splitOn newline) 0 found

abbrev Visit := List Match → Except RunnerGrepError (List Match)

def visitEntries : List (String × Visit) → Visit
  | [], found => .ok found
  | (name, visit) :: rest, found =>
    if traversal.maxResults ≤ found.length || ignoredFiles.contains name then .ok found
    else do
      let found ← visit found
      visitEntries rest found

def compareNames {β : Type} (left right : String × β) : Ordering := traversal.localeCompare.compare left.1 right.1

def visitDirectory (readable : Bool) (visits : List (String × Visit)) : Visit := fun found =>
  if traversal.maxResults ≤ found.length then .ok found
  else if !readable then .error ⟨.operation, "Unable to read a workspace directory"⟩
  else visitEntries traversal (StableSort.toSorted (compareNames traversal) visits) found

def looksInto (relative : List String) (size : Nat) : Bool :=
  (traversal.glob.all fun glob => glob (pathText relative)) && size ≤ maxFileBytes

mutual

def visitEntry (candidate relative : List String) (name : String) : Node → Visit
  | .link => .ok
  | .gone => fun _ => .error (notFound candidate)
  | .directory readable entries =>
    if ignoredDirectories.contains name then .ok else visitDirectory traversal readable (visits candidate relative entries)
  | .other => .ok
  | .file size content =>
    if !looksInto traversal relative size then .ok
    else
      match content with
      | none => fun _ => .error ⟨.operation, "Unable to read a workspace file"⟩
      | some content => fun found => .ok (appendMatches traversal relative content found)

def visits (directory relativeDirectory : List String) : Entries → List (String × Visit)
  | .nil => []
  | .cons name node rest =>
    (name, visitEntry (directory ++ [name]) (relativeDirectory ++ [name]) name node) ::
      visits directory relativeDirectory rest

end

structure BoundedText where
  text : Units
  truncated : Bool
deriving DecidableEq

def boundedEnd (text : Units) (limit : Nat) : Nat → Nat
  | 0 => 0
  | last + 1 => if limit < byteLength (text.take (last + 1)) then boundedEnd text limit last else last + 1

def bounded (text : Units) (limit : Nat) : BoundedText :=
  if byteLength text ≤ limit then ⟨text, false⟩ else ⟨text.take (boundedEnd text limit text.length), true⟩

def escapedUnit (unit : UInt16) : Units :=
  if unit ∈ units ".+^$\x7b\x7d()|[]\\".toList then units ['\\'] ++ [unit]
  else if unit ∈ units ['*'] then units ".*".toList
  else if unit ∈ units ['?'] then units ".".toList
  else [unit]

def globPattern (glob : String) : Units :=
  units ['^'] ++ (units glob.toList).flatMap escapedUnit ++ units ['$']

inductive GrepFailure
  | error (error : RunnerGrepError)
  | thrown

def globMatcher (platform : Platform) : Option String → Except GrepFailure (Option (Units → Bool))
  | none => .ok none
  | some glob =>
    match platform.regExp (globPattern glob) with
    | none => .error .thrown
    | some test => .ok (some test)

def patternMatcher (platform : Platform) (pattern : Units) : Except GrepFailure (Units → Bool) :=
  match platform.regExp pattern with
  | none => .error (.error ⟨.operation, "grep pattern is not a valid regular expression"⟩)
  | some matcher => .ok matcher

def makeTraversal (platform : Platform) (parameters : GrepParameters) : Except GrepFailure Traversal := do
  let matcher ← patternMatcher platform parameters.pattern
  let glob ← globMatcher platform parameters.glob
  return ⟨platform.localeCompare, matcher, glob, (parameters.maxResults.map Subtype.val).getD 200⟩

structure Place where
  realRoot : List String
  relative : List String
  node : Node

section

variable (platform : Platform) (tree : FileTree) (rootReal : List String) (parameters : GrepParameters)

def target : Except RunnerGrepError Place :=
  match platform.realPath parameters.path with
  | none => .error ⟨.notFound, "grep path does not exist"⟩
  | some realRoot =>
    if !rootReal.isPrefixOf realRoot then .error ⟨.path, "grep path resolves outside the Runner checkout"⟩
    else
      match tree.root.at realRoot with
      | none | some .gone => .error (notFound realRoot)
      | some node => .ok ⟨realRoot, realRoot.drop rootReal.length, node⟩

def search (place : Place) : Except RunnerGrepError (List Match) :=
  match place.node with
  | .directory readable entries => visitDirectory traversal readable (visits traversal place.realRoot [] entries) []
  | .file _ content =>
    match content with
    | none => .error ⟨.operation, "Unable to read a workspace file"⟩
    | some content => .ok (appendMatches traversal place.relative content [])
  | .link | .other | .gone => .ok []

def rawText (found : List Match) : Units := (units ['\n']).intercalate (found.map Match.text)

def render (maxResults : Nat) (found : List Match) : BoundedText :=
  let bounded := bounded (rawText found) maxOutputBytes
  ⟨bounded.text, bounded.truncated || maxResults ≤ found.length⟩

def grep : Except GrepFailure BoundedText := do
  let traversal ← makeTraversal platform parameters
  let place ← (target platform tree rootReal parameters).mapError .error
  let found ← (search traversal place).mapError .error
  return render traversal.maxResults found

end

end Rika.Grep
