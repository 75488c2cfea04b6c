import Mathlib.Data.List.Infix
import Rika.SessionContext

namespace Rika.ThreadRead

open SessionContext (stringifyText stringifyBool isHigh isLow)

abbrev Text := Utf16

def transcriptBudget : Nat := 36000

inductive Role
  | user
  | assistant
  | notice
  | child
deriving DecidableEq

def Role.text : Role → Text
  | user => utf16 "user"
  | assistant => utf16 "assistant"
  | notice => utf16 "notice"
  | child => utf16 "child"

inductive Content
  | entry (role : Role) (text : Text)
  | subagentCard (id summary prompt : Text)
  | other

structure TranscriptUnit where
  parentId : Option Text
  content : Content

structure Turn where
  id : Text
  human : Bool
  createdAt : Finite
  status : Text

structure TurnCursor where
  createdAt : Finite
  id : Text

structure TranscriptCursor where
  createdAt : Finite
  turnId : Text
  orderKey : Text

inductive Selector
  | overview
  | recent (limit : Option Finite) (before : Option TurnCursor)
  | relevant (query : Text) (limit : Option Finite) (before : Option TranscriptCursor)
  | subtree (subagentId : Text) (before : Option TranscriptCursor) (offset : Option Nat)

inductive OmissionReason
  | olderTurns
  | responseBudget
  | unavailableSubagent

structure Omission where
  reason : OmissionReason
  continuation : Selector

inductive Message
  | mk (role : Role) (text : Text) (subagentId : Option Text) (children : List Message)

structure ReadItem where
  turnId : Text
  author : Text
  createdAt : Text
  status : Text
  messages : List Message

inductive Cursor
  | turn (cursor : TurnCursor)
  | transcript (cursor : TranscriptCursor)

structure ReadBase where
  threadId : Text
  title : Text
  selector : Selector
  nextCursor : Option Cursor

structure ReadSuccess extends ReadBase where
  items : List ReadItem
  omissions : List Omission
  truncated : Bool

structure Page (Item Position : Type) where
  items : List Item
  hasOlder : Bool
  oldestCursor : Option Position

structure Thread where
  workspace : Text
  title : Text
  archived : Bool

inductive ReadError
  | query (message : Text)
  | threadNotFound (threadId : Text)
  | archivedThread (threadId : Text)
  /-- A transcript whose subagents hold each other is read without an end. -/
  | endless

/-- The repositories, and what the language makes of a number, a time and a text. -/
structure Services where
  workspace : Text
  thread : Text → Except ReadError (Option Thread)
  turns : Text → Option TurnCursor → Nat → Except ReadError (Page Turn TurnCursor)
  entries : Text → Option TranscriptCursor → Nat → Except ReadError (Page (Turn × TranscriptUnit) TranscriptCursor)
  units : Text → Except ReadError (Option (List TranscriptUnit))
  numberText : Finite → Text
  iso : Finite → Text
  trim : Text → Text
  toLocaleLowerCase : Text → Text

section Encoding

variable (services : Services)

def object (fields : List (Option (String × Text))) : Text :=
  utf16 "\x7b" ++ (utf16 ",").intercalate ((fields.filterMap id).map fun field =>
    stringifyText (utf16 field.1) ++ utf16 ":" ++ field.2) ++ utf16 "\x7d"

def array (values : List Text) : Text := utf16 "[" ++ (utf16 ",").intercalate values ++ utf16 "]"

def tag (value : String) : Option (String × Text) := some ("_tag", stringifyText (utf16 value))

def encodeTurnCursor (cursor : TurnCursor) : Text :=
  object [some ("createdAt", services.numberText cursor.createdAt), some ("id", stringifyText cursor.id)]

def encodeTranscriptCursor (cursor : TranscriptCursor) : Text :=
  object [some ("createdAt", services.numberText cursor.createdAt), some ("turnId", stringifyText cursor.turnId),
    some ("orderKey", stringifyText cursor.orderKey)]

def encodeSelector : Selector → Text
  | .overview => object [tag "overview"]
  | .recent limit before =>
    object [tag "recent", limit.map fun limit => ("limit", services.numberText limit),
      before.map fun before => ("before", encodeTurnCursor services before)]
  | .relevant query limit before =>
    object [tag "relevant", some ("query", stringifyText query), limit.map fun limit => ("limit", services.numberText limit),
      before.map fun before => ("before", encodeTranscriptCursor services before)]
  | .subtree subagentId before offset =>
    object [tag "subtree", some ("subagentId", stringifyText subagentId),
      before.map fun before => ("before", encodeTranscriptCursor services before),
      offset.map fun offset => ("offset", services.numberText offset)]

def OmissionReason.text : OmissionReason → Text
  | olderTurns => utf16 "olderTurns"
  | responseBudget => utf16 "responseBudget"
  | unavailableSubagent => utf16 "unavailableSubagent"

def encodeOmission (omission : Omission) : Text :=
  object [some ("reason", stringifyText omission.reason.text), some ("continuation", encodeSelector services omission.continuation)]

mutual

def encodeMessage : Message → Text
  | .mk role text subagentId children =>
    object [some ("role", stringifyText role.text), some ("text", stringifyText text),
      subagentId.map fun id => ("subagentId", stringifyText id),
      if children.isEmpty then none else some ("children", array (encodeMessages children))]

def encodeMessages : List Message → List Text
  | [] => []
  | message :: messages => encodeMessage message :: encodeMessages messages

end

def encodeItem (item : ReadItem) : Text :=
  object [some ("turnId", stringifyText item.turnId), some ("author", stringifyText item.author),
    some ("createdAt", stringifyText item.createdAt), some ("status", stringifyText item.status),
    some ("messages", array (encodeMessages item.messages))]

def encodeCursor : Cursor → Text
  | .turn cursor => encodeTurnCursor services cursor
  | .transcript cursor => encodeTranscriptCursor services cursor

/-- `encodeJson` of a response. -/
def encodeJson (response : ReadSuccess) : Text :=
  object [some ("schemaVersion", utf16 "1"), some ("threadId", stringifyText response.threadId),
    some ("title", stringifyText response.title), some ("selector", encodeSelector services response.selector),
    response.nextCursor.map fun cursor => ("nextCursor", encodeCursor services cursor),
    some ("items", array (response.items.map encodeItem)), some ("omissions", array (response.omissions.map (encodeOmission services))),
    some ("truncated", stringifyBool response.truncated)]

end Encoding

section Rendering

def codePoints : Text → List Text
  | [] => []
  | [unit] => [[unit]]
  | unit :: next :: rest =>
    if isHigh unit && isLow next then [unit, next] :: codePoints rest else [unit] :: codePoints (next :: rest)

def safeText (text : Text) (limit : Nat) : Text := ((codePoints text).take limit).flatten

structure ChildLink where
  subagentId : Text
  parentId : Text
  text : Text

def childLink (unit : TranscriptUnit) : Option ChildLink :=
  match unit.content with
  | .subagentCard id summary prompt => some ⟨id, id, if summary = [] then prompt else summary⟩
  | .entry _ _ | .other => none

/-- `message`, so deep at most. -/
def messageWithin (all : List TranscriptUnit) (textLimit : Nat) : Nat → TranscriptUnit → Except ReadError (Option Message)
  | 0, _ => .error .endless
  | depth + 1, unit =>
    match unit.content with
    | .entry role text => .ok (some (.mk role (safeText text textLimit) none []))
    | .subagentCard _ _ _ | .other =>
      match childLink unit with
      | none => .ok none
      | some link => do
        let children ← (all.filter fun candidate => candidate.parentId = some link.parentId).mapM
          (messageWithin all textLimit depth)
        return some (.mk .child (safeText link.text textLimit) (some link.subagentId) (children.filterMap id))

/-- No unit stands twice on a way down, or there is no end to it. -/
def message (unit : TranscriptUnit) (all : List TranscriptUnit) (textLimit : Nat) : Except ReadError (Option Message) :=
  messageWithin all textLimit (all.length + 2) unit

variable (services : Services)

def itemOf (turn : Turn) (messages : List Message) : ReadItem where
  turnId := turn.id
  author := if turn.human then utf16 "human" else utf16 "agent"
  createdAt := services.iso turn.createdAt
  status := turn.status
  messages := messages

def item (turn : Turn) (units : List TranscriptUnit) : Except ReadError ReadItem := do
  let messages ← (units.filter fun unit => unit.parentId = none).mapM fun unit => message unit units 12000
  return itemOf services turn (messages.filterMap id)

def subtreeItem (turn : Turn) (root : TranscriptUnit) (descendants : List TranscriptUnit) : Except ReadError ReadItem := do
  let rendered ← message root (root :: descendants) 8000
  return itemOf services turn rendered.toList

def withChildren (children : List Message) : Message → Message
  | .mk role text subagentId _ => .mk role text subagentId children

def Message.isChild : Message → Bool
  | .mk role _ _ _ => role = .child

def boundedSubtreeItem (turn : Turn) (root candidate : TranscriptUnit) : Except ReadError ReadItem := do
  let renderedRoot ← message root [root] 4000
  let renderedCandidate ← message candidate [candidate] 4000
  return itemOf services turn
    (match renderedRoot with
    | none => []
    | some renderedRoot =>
      match renderedCandidate with
      | none => [renderedRoot]
      | some renderedCandidate =>
        [if renderedRoot.isChild then withChildren [renderedCandidate] renderedRoot else renderedRoot])

end Rendering

section Budget

variable (services : Services)

def fits (maximum : Nat) (response : ReadSuccess) : Bool := (encodeJson services response).length ≤ maximum

def respond (base : ReadBase) (items : List ReadItem) (omissions : List Omission) : ReadSuccess :=
  { base with items := items, omissions := omissions, truncated := 0 < omissions.length }

/-- The loop of `encodeBounded`: what it selects, and whether it left anything out. -/
def selectBounded (maximum : Nat) (base : ReadBase) (omissions : List Omission) : List ReadItem → List ReadItem → List ReadItem × Bool
  | selected, [] => (selected, false)
  | selected, candidate :: candidates =>
    if fits services maximum (respond base (selected ++ [candidate]) omissions) then
      selectBounded maximum base omissions (selected ++ [candidate]) candidates
    else (selected, true)

def budgetOmission (base : ReadBase) : Omission := ⟨.responseBudget, base.selector⟩

def encodeBounded (base : ReadBase) (candidates : List ReadItem) (omissions : List Omission) : ReadSuccess :=
  let (selected, budgetOmitted) := selectBounded services transcriptBudget base omissions [] candidates
  respond base selected (if budgetOmitted then omissions ++ [budgetOmission base] else omissions)

end Budget

section Subtrees

variable (services : Services)

/-- The loop of `descendantsOf`. -/
def descendantsFrom : List Text → List TranscriptUnit → List TranscriptUnit
  | _, [] => []
  | parentIds, unit :: units =>
    match unit.parentId with
    | none => descendantsFrom parentIds units
    | some parentId =>
      if parentId ∈ parentIds then
        unit :: descendantsFrom (((childLink unit).map (·.parentId)).toList ++ parentIds) units
      else descendantsFrom parentIds units

def descendantsOf (rootParentId : Text) (units : List TranscriptUnit) : List TranscriptUnit := descendantsFrom [rootParentId] units

abbrev Selection := List Nat

/-- `ancestorsByParent`: the last card of an id. -/
def ancestorByParent (descendants : List TranscriptUnit) (parentId : Text) : Option (Nat × TranscriptUnit) :=
  descendants.zipIdx.reverse.findSome? fun (unit, position) =>
    (childLink unit).bind fun link => if link.parentId = parentId then some (position, unit) else none

/-- The loop of `selectionWithAncestors`, for so many ancestors at most. -/
def ancestorsWithin (descendants : List TranscriptUnit) (rootParentId : Text) : Nat → Option Text → Except ReadError Selection
  | 0, _ => .error .endless
  | _ + 1, none => .ok []
  | depth + 1, some parentId =>
    if parentId = rootParentId then .ok []
    else
      match ancestorByParent descendants parentId with
      | none => .ok []
      | some (position, parent) => do
        let rest ← ancestorsWithin descendants rootParentId depth parent.parentId
        return position :: rest

def selectionWithAncestors (candidate : TranscriptUnit) (position : Nat) (selected : Selection) (rootParentId : Text)
    (descendants : List TranscriptUnit) : Except ReadError Selection := do
  let ancestors ← ancestorsWithin descendants rootParentId (descendants.length + 2) candidate.parentId
  return selected ++ position :: ancestors

def chosen (descendants : List TranscriptUnit) (selected : Selection) : List TranscriptUnit :=
  (descendants.zipIdx.filter fun (_, position) => position ∈ selected).map Prod.fst

/-- What the loop of `selectSubtree` comes to. -/
structure Selected where
  selected : Selection
  nextOffset : Nat
  forcedItem : Option ReadItem

/-- The loop of `selectSubtree` from a position on. -/
def selectFrom (base : ReadBase) (turn : Turn) (root : TranscriptUnit) (rootParentId : Text) (descendants : List TranscriptUnit) :
    List (TranscriptUnit × Nat) → Selection → Nat → Except ReadError Selected
  | [], selected, nextOffset => .ok ⟨selected, nextOffset, none⟩
  | (candidate, position) :: candidates, selected, nextOffset => do
    let trial ← selectionWithAncestors candidate position selected rootParentId descendants
    let rendered ← subtreeItem services turn root (chosen descendants trial)
    if fits services transcriptBudget (respond base [rendered] []) then
      selectFrom base turn root rootParentId descendants candidates trial (position + 1)
    else if selected = [] then do
      let forced ← boundedSubtreeItem services turn root candidate
      return ⟨[position], position + 1, some forced⟩
    else return ⟨selected, nextOffset, none⟩

def Selected.render (turn : Turn) (root : TranscriptUnit) (descendants : List TranscriptUnit) (selection : Selected) :
    Except ReadError ReadItem :=
  match selection.forcedItem with
  | some forced => .ok forced
  | none => subtreeItem services turn root (chosen descendants selection.selected)

def offsetOmissions (subagentId : Text) (before : Option TranscriptCursor) (nextOffset length : Nat) : List Omission :=
  if nextOffset < length then [⟨.responseBudget, .subtree subagentId before (some nextOffset)⟩] else []

def selectSubtree (base : ReadBase) (subagentId : Text) (before : Option TranscriptCursor) (turn : Turn) (root : TranscriptUnit)
    (rootParentId : Text) (descendants : List TranscriptUnit) (offset : Nat) : Except ReadError ReadSuccess := do
  let selection ← selectFrom services base turn root rootParentId descendants (descendants.zipIdx.drop offset) [] offset
  let item ← selection.render services turn root descendants
  return respond base [item] (offsetOmissions subagentId before selection.nextOffset descendants.length)

end Subtrees

section Reads

variable (services : Services)

def bounded (name : String) (value : Option Finite) (fallback maximum : Nat) : Except ReadError Nat :=
  let result := value.getD fallback
  if result.den = 1 ∧ 1 ≤ result ∧ result ≤ maximum then .ok result.num.toNat
  else .error (.query (utf16 s!"{name} must be an integer from 1 to {maximum}"))

structure Draft where
  base : ReadBase
  candidates : List ReadItem
  omissions : List Omission

def olderOmissions (hasOlder : Bool) (continuation : Option Selector) : List Omission :=
  match continuation with
  | some continuation => if hasOlder then [⟨.olderTurns, continuation⟩] else []
  | none => []

def withCursor (base : ReadBase) : Option Cursor → ReadBase
  | none => base
  | some cursor => { base with nextCursor := some cursor }

section

variable (threadId : Text) (base : ReadBase)

/-- `readRecent` up to the budget. -/
def draftRecent (limit : Option Finite) (before : Option TurnCursor) : Except ReadError Draft := do
  let size ← bounded "limit" limit 10 20
  let page ← services.turns threadId before size
  let candidates ← page.items.mapM fun turn => do
    let units ← services.units turn.id
    item services turn (units.getD [])
  return {
    base := withCursor base (page.oldestCursor.map .turn)
    candidates := candidates
    omissions := olderOmissions page.hasOlder (page.oldestCursor.map fun oldest => .recent limit (some oldest)) }

def matchesNeedle (needle : Text) (unit : TranscriptUnit) : Bool :=
  match unit.content with
  | .entry _ text => needle <:+: services.toLocaleLowerCase text
  | .subagentCard _ _ _ | .other => false

def grouped (entries : List (Turn × TranscriptUnit)) : List (Turn × List TranscriptUnit) :=
  InsertionMap.values (entries.foldl (fun groups entry =>
    groups.set entry.1.id ((groups.get entry.1.id).elim (entry.1, [entry.2]) fun group => (group.1, group.2 ++ [entry.2])))
    (InsertionMap.empty : InsertionMap Text (Turn × List TranscriptUnit)))

/-- `readRelevant` up to the budget. -/
def draftRelevant (query : Text) (limit : Option Finite) (before : Option TranscriptCursor) :
    Except ReadError Draft := do
  let size ← bounded "limit" limit 10 20
  let page ← services.entries threadId before 200
  let found := page.items.filter fun entry => matchesNeedle services (services.toLocaleLowerCase query) entry.2
  let candidates ← (grouped (found.drop (found.length - size))).mapM fun group => item services group.1 group.2
  return {
    base := withCursor base (page.oldestCursor.map .transcript)
    candidates := candidates
    omissions := olderOmissions page.hasOlder (page.oldestCursor.map fun oldest => .relevant query limit (some oldest)) }

def rootOf (entries : List (Turn × TranscriptUnit)) (subagentId : Text) : Option (Turn × TranscriptUnit) :=
  entries.find? fun entry => (childLink entry.2).any fun link => link.subagentId = subagentId

def readSubtree (subagentId : Text) (before : Option TranscriptCursor) (offset : Option Nat) :
    Except ReadError ReadSuccess := do
  let page ← services.entries threadId before 200
  match rootOf page.items subagentId with
  | none =>
    let continuation : Selector :=
      match page.hasOlder, page.oldestCursor with
      | true, some oldest => .subtree subagentId (some oldest) offset
      | _, _ => .subtree subagentId before offset
    return encodeBounded services base [] [⟨if page.hasOlder then .olderTurns else .unavailableSubagent, continuation⟩]
  | some (turn, root) => do
    let units ← services.units turn.id
    let descendants := descendantsOf subagentId (units.getD [root])
    selectSubtree services base subagentId before turn root subagentId descendants (min (offset.getD 0) descendants.length)

end

structure ReadInput where
  threadId : Text
  includeArchived : Bool
  selector : Selector

def Draft.response (draft : Draft) : ReadSuccess := encodeBounded services draft.base draft.candidates draft.omissions

def respondTo (threadId : Text) (base : ReadBase) : Except ReadError ReadSuccess :=
  match base.selector with
  | .overview => .ok (encodeBounded services base [] [])
  | .subtree subagentId before offset => readSubtree services threadId base subagentId before offset
  | .relevant query limit before => (draftRelevant services threadId base query limit before).map (·.response services)
  | .recent limit before => (draftRecent services threadId base limit before).map (·.response services)

def read (input : ReadInput) : Except ReadError ReadSuccess := do
  if services.trim input.threadId = [] ∨ services.trim input.threadId ≠ input.threadId then
    .error (.query (utf16 "threadId must be a non-empty identifier"))
  else
    match ← services.thread input.threadId with
    | none => .error (.threadNotFound input.threadId)
    | some thread =>
      if thread.workspace ≠ services.workspace then .error (.threadNotFound input.threadId)
      else if thread.archived && !input.includeArchived then .error (.archivedThread input.threadId)
      else respondTo services input.threadId ⟨input.threadId, thread.title, input.selector, none⟩

end Reads

end Rika.ThreadRead
