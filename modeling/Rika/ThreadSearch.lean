import Mathlib.Data.List.Infix
import Rika.ComposerModel
import Rika.CursorPages
import Rika.TranscriptUnit

namespace Rika.ThreadSearch

open WideText (Units units)

/-- The case mappings of strings. The locale's leaves line breaks alone, and what stands on one side of a line break
has no effect on the other. -/
structure Casing where
  toLowerCase : Units → Units
  toLocaleLowerCase : Units → Units
  lineBreak : ∀ text other, toLocaleLowerCase (text ++ 10 :: other) = toLocaleLowerCase text ++ 10 :: toLocaleLowerCase other
  noLineBreak : ∀ text, 10 ∉ text → 10 ∉ toLocaleLowerCase text

/-- The order of `localeCompare` on ids, which tells distinct ids apart. -/
structure LocaleOrder where
  compare : Units → Units → Ordering
  trans : Std.TransCmp compare
  strict : ∀ {left right}, compare left right = .eq → left = right

instance (order : LocaleOrder) : Std.TransCmp order.compare := order.trans

def maximumPageSize : Int := 200

def defaultPageSize : Rat := 50

def maximumSnippetLength : Nat := 240

def maximumSnippets : Nat := 8

inductive MatchSource
  | title
  | label
  | humanPrompt
  | agentPrompt
  | rootAssistant
  | childAssistant
  | file
deriving DecidableEq

inductive OmissionReason
  | snippetLimit
  | snippetLength
deriving DecidableEq

structure Snippet where
  source : MatchSource
  text : Units
deriving DecidableEq

structure Thread where
  id : Units
  workspace : Units
  title : Units
  labels : List Units
  archived : Bool
  createdAt : Finite
  updatedAt : Finite

structure Document where
  thread : Thread
  title : Units
  labels : Units
  humanPrompts : Units
  agentPrompts : Units
  rootAssistant : Units
  childAssistant : Units
  files : Units

def Document.field (document : Document) : MatchSource → Units
  | .title => document.title
  | .label => document.labels
  | .humanPrompt => document.humanPrompts
  | .agentPrompt => document.agentPrompts
  | .rootAssistant => document.rootAssistant
  | .childAssistant => document.childAssistant
  | .file => document.files

def sourceOrder : List MatchSource :=
  [.title, .label, .humanPrompt, .agentPrompt, .rootAssistant, .childAssistant, .file]

structure ParsedQuery where
  terms : List Units
  files : List Units
deriving DecidableEq

structure Cursor where
  updatedAt : Finite
  threadId : Units
deriving DecidableEq

structure SearchInput where
  workspace : Units
  includeArchived : Bool
  label : Option Units
  after : Option Finite
  before : Option Finite
  limit : Option Rat

structure Result where
  threadId : Units
  title : Units
  workspace : Units
  createdAt : Finite
  updatedAt : Finite
  archived : Bool
  matchedBy : List MatchSource
  snippets : List Snippet
  omissionReasons : List OmissionReason
deriving DecidableEq

structure SearchPage where
  results : List Result
  nextCursor : Option Cursor
deriving DecidableEq

def boundedLimit (limit : Option Rat) : Nat := (min maximumPageSize (max 1 (limit.getD defaultPageSize).floor)).toNat

variable (casing : Casing) (order : LocaleOrder)

/-- The values of the tokens of a query, `fuel` of them at most: what is in quotes, or else a run without blanks. -/
def tokens : Nat → Units → List Units
  | 0, _ | _ + 1, [] => []
  | fuel + 1, unit :: rest =>
    let quoted := rest.takeWhile (· ≠ 34)
    if unit = 34 ∧ quoted ≠ [] ∧ quoted.length < rest.length then quoted :: tokens fuel (rest.drop (quoted.length + 1))
    else if Composer.isSpace unit = true then tokens fuel rest
    else
      let run := (unit :: rest).takeWhile fun unit => !Composer.isSpace unit
      run :: tokens fuel ((unit :: rest).drop run.length)

def unsupportedField (field : Units) : Units :=
  units "Unsupported search field '".toList ++ field ++ units "'. Supported field: file".toList

def parseToken (parsed : ParsedQuery) (value : Units) : Except Units ParsedQuery :=
  if 58 ∈ value then
    let field := casing.toLowerCase (value.takeWhile (· ≠ 58))
    let content := value.drop ((value.takeWhile (· ≠ 58)).length + 1)
    if field ≠ units "file".toList then .error (unsupportedField field)
    else .ok (if content ≠ [] then { parsed with files := parsed.files ++ [content] } else parsed)
  else .ok (if value ≠ [] then { parsed with terms := parsed.terms ++ [value] } else parsed)

def parseQuery (query : Units) : Except Units ParsedQuery :=
  (tokens query.length query).foldlM (parseToken casing) ⟨[], []⟩

def includesAll (text : Units) (values : List Units) : Bool :=
  values.all fun value => decide (casing.toLocaleLowerCase value <:+: casing.toLocaleLowerCase text)

def searchable (document : Document) : Units := [10].intercalate (sourceOrder.map document.field)

def relevant (document : Document) (parsed : ParsedQuery) (source : MatchSource) : Bool :=
  parsed.terms.any (fun term => includesAll casing (document.field source) [term]) ||
    source = .file && parsed.files.any fun path => includesAll casing (document.field source) [path]

/-- What the loop of `resultFor` over the sources has gathered. -/
structure Gathered where
  matchedBy : List MatchSource := []
  snippets : List Snippet := []
  shortened : Bool := false

def gather (document : Document) (parsed : ParsedQuery) (gathered : Gathered) (source : MatchSource) : Gathered :=
  if relevant casing document parsed source = false then gathered
  else
    let matchedBy := gathered.matchedBy ++ [source]
    if maximumSnippets ≤ gathered.snippets.length then { gathered with matchedBy }
    else
      let trimmed := Composer.trim (document.field source)
      { matchedBy
        snippets := gathered.snippets ++ [⟨source, trimmed.take maximumSnippetLength⟩]
        shortened := gathered.shortened || maximumSnippetLength < trimmed.length }

def resultFor (document : Document) (parsed : ParsedQuery) : Option Result :=
  if includesAll casing (searchable document) parsed.terms = false ∨ includesAll casing document.files parsed.files = false then none
  else
    let gathered := sourceOrder.foldl (gather casing document parsed) {}
    let omitted := gathered.snippets.length < gathered.matchedBy.length
    some
      { threadId := document.thread.id
        title := document.thread.title
        workspace := document.thread.workspace
        createdAt := document.thread.createdAt
        updatedAt := document.thread.updatedAt
        archived := document.thread.archived
        matchedBy := gathered.matchedBy
        snippets := gathered.snippets
        omissionReasons :=
          (if omitted then [.snippetLimit] else []) ++ if gathered.shortened = true then [.snippetLength] else [] }

/-- The filters of `selected` but for that of the cursor. -/
def admits (input : SearchInput) (document : Document) : Bool :=
  document.thread.workspace = input.workspace && (input.includeArchived || !document.thread.archived) &&
    input.label.all (fun label => document.thread.labels.contains label) &&
      input.after.all (fun after => after ≤ document.thread.updatedAt) &&
        input.before.all fun before => document.thread.updatedAt ≤ before

def passed (cursor : Cursor) (updatedAt : Finite) (threadId : Units) : Bool :=
  updatedAt < cursor.updatedAt || updatedAt = cursor.updatedAt && compare cursor.threadId threadId = .lt

def compareResults (left right : Result) : Ordering :=
  (compare right.updatedAt left.updatedAt).then (order.compare left.threadId right.threadId)

def selected (documents : List Document) (input : SearchInput) (cursor : Option Cursor) (parsed : ParsedQuery) : SearchPage :=
  let limit := boundedLimit input.limit
  let results := StableSort.toSorted (compareResults order) <|
    ((documents.filter (admits input)).filter fun document =>
      cursor.all fun cursor => passed cursor document.thread.updatedAt document.thread.id).filterMap
        fun document => resultFor casing document parsed
  let page := results.take limit
  { results := page
    nextCursor := if limit < results.length then page.getLast?.map fun last => ⟨last.updatedAt, last.threadId⟩ else none }

def search (documents : List Document) (input : SearchInput) (query : Units) (cursor : Option Cursor) : Except Units SearchPage :=
  (parseQuery casing query).map (selected casing order documents input cursor)

end Rika.ThreadSearch
