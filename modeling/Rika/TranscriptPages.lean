import Rika.ThreadUsage
import Rika.TranscriptStore
import Rika.UnitOrderText
import Rika.WindowPages

namespace Rika.TranscriptPages

open Selection (ProjectionState UsageSummary)
open StableSort (toSorted)
open ThreadView (PageCursor)
open TranscriptUnit (encodeUnitOrder codeUnits)

def maximumTranscriptUnits : Nat := 20000

def compareText (left right : String) : Ordering := UnitOrdering.compareStrings (codeUnits left) (codeUnits right)

def blockTag (unit : TranscriptUnit.Unit) : Option String :=
  match unit.content with
  | .entry _ _ => none
  | .block (.authorizationCard _ _ _ _ _ _) => some "AuthorizationCard"
  | .block (.toolCall _) => some "ToolCall"
  | .block (.other tag _) => some tag

/-- The ids of turns, `/^[\x21-\x7e]+$/`. -/
def ValidTurnId (id : String) : Prop := id.toList ≠ [] ∧ ∀ c ∈ id.toList, '!' ≤ c ∧ c ≤ '~'

abbrev TurnId := { id : String // ValidTurnId id }

theorem nul_notMem {id : String} (h : ValidTurnId id) : '\x00' ∉ id.toList := by
  intro hmem
  exact absurd (h.2 _ hmem).1 (by decide)

/-- What is stored of a turn, its units as `validateUnits` admits them. -/
structure StoredTurn where
  turn : Turn
  projection : TranscriptStore.Memory.Projection
  valid : ValidTurnId turn.id
  owned : ∀ unit ∈ projection.units, unit.turnId = turn.id
  orders : (projection.units.map fun unit => encodeUnitOrder unit.order).Nodup

structure Stored where
  turns : Table fun stored : StoredTurn => stored.turn.id
  usage : String → UsageSummary

structure PageOptions where
  before : Option PageCursor := none
  after : Option PageCursor := none
  limit : Option Finite := none
  projectionVersion : Option Nat := none
  structuralTurnId : Option String := none

/-- The ids in a request, which its type takes from turns. -/
structure PageOptions.Valid (options : PageOptions) : Prop where
  cursors : ∀ cursor, options.before = some cursor ∨ options.after = some cursor → ValidTurnId cursor.turnId
  structural : ∀ turnId, options.structuralTurnId = some turnId → ValidTurnId turnId

structure Entry where
  turn : Turn
  unit : TranscriptUnit.Unit
  projectionRevision : Finite
  projectionGeneration : Nat
  projectionModelPhase : Int
  projectionState : ProjectionState
deriving DecidableEq

structure Page where
  entries : List Entry
  hasOlder : Bool
  hasNewer : Bool
  oldestCursor : Option PageCursor
  newestCursor : Option PageCursor
  usage : UsageSummary

/-- A page but for its usage, which the stores keep each in its own way. -/
def Page.listed (page : Page) : List Entry × Bool × Bool × Option PageCursor × Option PageCursor :=
  (page.entries, page.hasOlder, page.hasNewer, page.oldestCursor, page.newestCursor)

def validatePageOptions (options : PageOptions) : Except String Nat :=
  if options.before.isSome ∧ options.after.isSome then .error "Transcript page cannot use before and after together"
  else
    let limit := options.limit.getD 200
    if limit.den = 1 ∧ 1 ≤ limit ∧ limit ≤ maximumTranscriptUnits then .ok limit.num.toNat
    else .error s!"Transcript page limit must be from 1 to {maximumTranscriptUnits}"

def compareCursors (compareId compareKey : String → String → Ordering) : PageCursor → PageCursor → Ordering :=
  compareLex (fun left right => compare left.createdAt right.createdAt)
    (compareLex (fun left right => compareId left.turnId right.turnId) fun left right => compareKey left.orderKey right.orderKey)

namespace Memory

structure Located where
  stored : StoredTurn
  unit : TranscriptUnit.Unit

def cursorFor (located : Located) : PageCursor :=
  ⟨located.stored.turn.createdAt, located.stored.turn.id, encodeUnitOrder located.unit.order⟩

def compareCursor : PageCursor → PageCursor → Ordering := compareCursors compareText compareText

def entry (located : Located) : Entry where
  turn := located.stored.turn
  unit := located.unit
  projectionRevision := located.stored.projection.revision
  projectionGeneration := located.stored.projection.checkpointGeneration
  projectionModelPhase := -1
  projectionState := located.stored.projection.state

def isStructural (structuralTurnId : Option String) (stored : StoredTurn) (unit : TranscriptUnit.Unit) : Bool :=
  structuralTurnId.all fun turnId => stored.turn.id = turnId && (unit.parentId = none || blockTag unit = some "SubagentCard")

section

variable (stored : Stored) (threadId : String) (options : PageOptions)

def located : List Located :=
  stored.turns.rows.flatMap fun turn =>
    if turn.turn.threadId ≠ threadId ∨ turn.turn.status = .queued ∨
        (options.projectionVersion.any fun version => turn.projection.projectionVersion ≠ version) then []
    else (turn.projection.units.filter (isStructural options.structuralTurnId turn)).map (⟨turn, ·⟩)

def page : Except String Page := do
  let limit ← validatePageOptions options
  let ordered := toSorted (fun left right => compareCursor (cursorFor left) (cursorFor right)) (located stored threadId options)
  let afterStart := options.after.map fun after => ordered.findIdx fun located => compareCursor (cursorFor located) after = .gt
  let afterStart := if options.structuralTurnId.isSome then some 0 else afterStart
  let end' :=
    match afterStart, options.before with
    | some afterStart, _ => min ordered.length (afterStart + limit)
    | none, none => ordered.length
    | none, some before => ordered.findIdx fun located => (compareCursor (cursorFor located) before).isGE
  let start := afterStart.getD (end' - limit)
  let selected := (ordered.take end').drop start
  return { entries := selected.map entry
           hasOlder := 0 < start
           hasNewer := end' < ordered.length
           oldestCursor := selected.head?.map cursorFor
           newestCursor := selected.getLast?.map cursorFor
           usage := stored.usage threadId }

end

end Memory

/-- The texts of a unit beside its content. -/
def texts (unit : TranscriptUnit.Unit) : List String :=
  unit.key :: unit.turnId :: (unit.parentId.toList ++ unit.modelResponseId.toList ++ unit.order.segments.map (·.key) ++
    (unit.executionOutcome.bind (·.reason)).toList)

/-- The JSON of units, and the text the database finds in it at `content`, `block` and `_tag` where the cast to `jsonb`
takes it, which refuses `\u0000`. -/
structure UnitCodec (Json : Type) where
  encode : TranscriptUnit.Unit → Json
  decode : Json → Option TranscriptUnit.Unit
  tag : Json → Option String
  Castable : TranscriptUnit.Unit → Prop
  decode_encode : ∀ unit, decode (encode unit) = some unit
  tag_encode : ∀ unit, Castable unit → tag (encode unit) = blockTag unit
  castable_entry : ∀ unit role text, unit.content = .entry role text → (∀ t ∈ text :: texts unit, '\x00' ∉ t.toList) → Castable unit

namespace Sql

variable {Json : Type}

structure UnitRow (Json : Type) where
  turnId : String
  threadId : String
  unitOrderKey : String
  parentId : Option String
  unitJson : Json
  createdAt : Finite

structure CheckpointRow where
  turnId : String
  checkpointGeneration : Nat
  revision : Finite
  projectionVersion : Nat
  state : ProjectionState

structure Tables (Json : Type) where
  units : List (UnitRow Json)
  checkpoints : Table CheckpointRow.turnId
  turns : Table Turn.id
  usage : String → UsageSummary

structure JoinedRow (Json : Type) where
  unit : UnitRow Json
  checkpoint : CheckpointRow
  turn : Turn

def joined (tables : Tables Json) : List (JoinedRow Json) :=
  tables.units.filterMap fun unit => do
    let checkpoint ← tables.checkpoints.find unit.turnId
    let turn ← tables.turns.find unit.turnId
    return ⟨unit, checkpoint, turn⟩

def cursorOf (row : JoinedRow Json) : PageCursor := ⟨row.unit.createdAt, row.unit.turnId, row.unit.unitOrderKey⟩

variable (order : TextOrder)

/-- The order of text under `COLLATE "C"`, by code points. -/
def compareC (left right : String) : Ordering := left.toList.compareLex compare right.toList

def gt (left right : String) : Bool := compareC left right = .gt

def lt (left right : String) : Bool := compareC left right = .lt

section

variable (cursor : PageCursor) (row : JoinedRow Json)

def after : Bool :=
  row.unit.createdAt > cursor.createdAt ||
    (row.unit.createdAt = cursor.createdAt &&
      (order.compare row.unit.turnId cursor.turnId = .gt ||
        (row.unit.turnId = cursor.turnId && gt row.unit.unitOrderKey cursor.orderKey)))

def before : Bool :=
  row.unit.createdAt < cursor.createdAt ||
    (row.unit.createdAt = cursor.createdAt &&
      (order.compare row.unit.turnId cursor.turnId = .lt ||
        (row.unit.turnId = cursor.turnId && lt row.unit.unitOrderKey cursor.orderKey)))

def atOrBefore : Bool :=
  row.unit.createdAt < cursor.createdAt ||
    (row.unit.createdAt = cursor.createdAt &&
      (order.compare row.unit.turnId cursor.turnId = .lt ||
        (row.unit.turnId = cursor.turnId && !gt row.unit.unitOrderKey cursor.orderKey)))

def atOrAfter : Bool :=
  row.unit.createdAt > cursor.createdAt ||
    (row.unit.createdAt = cursor.createdAt &&
      (order.compare row.unit.turnId cursor.turnId = .gt ||
        (row.unit.turnId = cursor.turnId && !lt row.unit.unitOrderKey cursor.orderKey)))

end

def visible (threadId : String) (projectionVersion : Option Nat) (row : JoinedRow Json) : Bool :=
  row.unit.threadId = threadId && row.turn.status ≠ .queued &&
    projectionVersion.all fun version => row.checkpoint.projectionVersion = version

variable (codec : UnitCodec Json)

def isStructural (structuralTurnId : Option String) (row : JoinedRow Json) : Bool :=
  structuralTurnId.all fun turnId =>
    row.unit.turnId = turnId && (row.unit.parentId = none || codec.tag row.unit.unitJson = some "SubagentCard")

def pageConditions (threadId : String) (options : PageOptions) (row : JoinedRow Json) : Bool :=
  visible threadId options.projectionVersion row && isStructural codec options.structuralTurnId row &&
    (options.after.all fun cursor => after order cursor row) && options.before.all fun cursor => before order cursor row

def compareRows (left right : JoinedRow Json) : Ordering :=
  compareCursors order.compare compareC (cursorOf left) (cursorOf right)

structure Decoded where
  turn : Turn
  unit : TranscriptUnit.Unit
  cursor : PageCursor
  revision : Finite
  generation : Nat
  projectionState : ProjectionState

def decodeEntry (row : JoinedRow Json) : Except String (Option Decoded) :=
  match codec.decode row.unit.unitJson with
  | none => .ok none
  | some unit =>
    let cursor : PageCursor := ⟨row.turn.createdAt, row.turn.id, row.unit.unitOrderKey⟩
    if unit.turnId ≠ row.turn.id ∨ encodeUnitOrder unit.order ≠ cursor.orderKey then
      .error s!"Transcript unit {unit.key} does not match its durable identity"
    else
      .ok (some ⟨row.turn, unit, cursor, row.checkpoint.revision, row.checkpoint.checkpointGeneration, row.checkpoint.state⟩)

def entry (decoded : Decoded) : Entry :=
  ⟨decoded.turn, decoded.unit, decoded.revision, decoded.generation, -1, decoded.projectionState⟩

def page (tables : Tables Json) (threadId : String) (options : PageOptions) : Except String Page := do
  let limit ← validatePageOptions options
  let newestFirst := options.structuralTurnId = none ∧ options.after = none
  let matching := (joined tables).filter (pageConditions order codec threadId options)
  let loaded :=
    (if newestFirst then toSorted (fun left right => compareRows order right left) matching
      else toSorted (compareRows order) matching).take (limit + 1)
  let hasExtra : Bool := limit < loaded.length
  let decoded := (← (loaded.take limit).mapM (decodeEntry codec)).filterMap id
  let selected := if newestFirst then decoded.reverse else decoded
  let boundaryExists (condition : JoinedRow Json → Bool) : Bool :=
    (joined tables).any fun row => visible threadId options.projectionVersion row && condition row
  let hasOlder :=
    if options.structuralTurnId.isSome then false
    else
      match options.after with
      | none => hasExtra
      | some cursor => boundaryExists (atOrBefore order cursor)
  let hasNewer :=
    match options.after, options.before with
    | some _, _ => hasExtra
    | none, some cursor => boundaryExists (atOrAfter order cursor)
    | none, none => options.structuralTurnId.isSome && hasExtra
  return { entries := selected.map entry
           hasOlder := hasOlder
           hasNewer := hasNewer
           oldestCursor := selected.head?.map (·.cursor)
           newestCursor := selected.getLast?.map (·.cursor)
           usage := tables.usage threadId }

def unitRow (stored : StoredTurn) (unit : TranscriptUnit.Unit) : UnitRow Json where
  turnId := stored.turn.id
  threadId := stored.turn.threadId
  unitOrderKey := encodeUnitOrder unit.order
  parentId := unit.parentId
  unitJson := codec.encode unit
  createdAt := stored.turn.createdAt

def checkpointRow (stored : StoredTurn) : CheckpointRow where
  turnId := stored.turn.id
  checkpointGeneration := stored.projection.checkpointGeneration
  revision := stored.projection.revision
  projectionVersion := stored.projection.projectionVersion
  state := stored.projection.state

end Sql

structure Stores {Json : Type} (codec : UnitCodec Json) where
  memory : Stored
  tables : Sql.Tables Json
  units : tables.units.Perm (memory.turns.rows.flatMap fun stored => stored.projection.units.map (Sql.unitRow codec stored))
  checkpoints : ∀ stored ∈ memory.turns.rows, Sql.checkpointRow stored ∈ tables.checkpoints.rows
  turns : ∀ stored ∈ memory.turns.rows, stored.turn ∈ tables.turns.rows

def Stores.Castable {Json : Type} {codec : UnitCodec Json} (stores : Stores codec) : Prop :=
  ∀ stored ∈ stores.memory.turns.rows, ∀ unit ∈ stored.projection.units, codec.Castable unit

end Rika.TranscriptPages
