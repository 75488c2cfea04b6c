import Rika.StableSort

namespace Rika

/-- `Schema.Finite` numbers: timestamps and unit revisions. -/
abbrev Finite := ℚ

namespace TranscriptUnit

def maxSafeInteger : Nat := 9007199254740991

structure UnitOrderSegment where
  sequence : Int
  part : Nat
  key : String
  sequence_ge : -1 ≤ sequence
  sequence_le : sequence ≤ maxSafeInteger
  part_le : part ≤ maxSafeInteger
  key_ne : key ≠ ""
deriving DecidableEq

structure UnitOrder where
  segments : List UnitOrderSegment
  nonempty : segments ≠ []
deriving DecidableEq

inductive EntryRole
  | user
  | assistant
  | notice
deriving DecidableEq

inductive AuthorizationStatus
  | pending
  | approved
  | denied
  | cancelled
  | expired
deriving DecidableEq

inductive ToolStatus
  | running
  | complete
  | failed
  | cancelled
  | rejected
  | unknown
deriving DecidableEq

/-- A process of a tool; `payload` is what is carried of it beside these. -/
structure ToolProcess where
  running : Option Bool
  processId : Option String
  exitCode : Option Finite
  elapsedMillis : Option Finite
  truncated : Option Bool
  payload : String
deriving DecidableEq

structure ToolCall where
  id : String
  status : ToolStatus
  operationId : Option String
  toolCallId : Option String
  process : Option ToolProcess
  payload : String
deriving DecidableEq

/-- Presentation blocks; only authorization cards and tool calls are looked
into, the others are carried as their encoded payload. -/
inductive Block
  | authorizationCard (id operation capability input : String) (inputTruncated : Bool)
      (status : AuthorizationStatus)
  | toolCall (call : ToolCall)
  | other (tag payload : String)
deriving DecidableEq

inductive Content
  | entry (role : EntryRole) (text : String)
  | block (block : Block)
deriving DecidableEq

inductive OutcomeStatus
  | complete
  | failed
  | cancelled
deriving DecidableEq

structure ExecutionOutcome where
  status : OutcomeStatus
  reason : Option String
deriving DecidableEq

structure Unit where
  key : String
  turnId : String
  parentId : Option String
  modelResponseId : Option String
  order : UnitOrder
  revision : Finite
  executionOutcome : Option ExecutionOutcome
  content : Content
deriving DecidableEq

def encodeString (value : String) : String :=
  String.ofList (value.toList.flatMap fun c =>
    if c = '%' then "%25".toList else if c = ':' then "%3A".toList else [c])

/-- Identity keys over text components, the only ones the thread view makes. -/
def identityKey (family : String) (components : List String) : String :=
  components.foldl (fun key component => key ++ ":" ++ encodeString component) (encodeString family)

def padStart (width : Nat) (digits : List Char) : List Char := List.leftpad width '0' digits

def encodeNumber (value : Int) (offset : Nat) : List Char :=
  padStart 16 (Nat.toDigits 10 (value + offset).toNat)

def charCodes (c : Char) : List Nat :=
  if c.toNat < 0x10000 then [c.toNat]
  else [0xD800 + (c.toNat - 0x10000) / 0x400, 0xDC00 + (c.toNat - 0x10000) % 0x400]

def encodeKey (value : String) : List Char :=
  (value.toList.flatMap charCodes).flatMap (fun code => padStart 4 (Nat.toDigits 16 code)) ++ ['/']

def encodeSegment (segment : UnitOrderSegment) : List Char :=
  encodeNumber segment.sequence 1 ++ encodeNumber segment.part 0 ++ encodeKey segment.key

/-- `encodeUnitOrder`; the assertions it opens with are the fields of
`UnitOrderSegment` and `UnitOrder`. -/
def encodeUnitOrder (order : UnitOrder) : String :=
  String.ofList (order.segments.flatMap encodeSegment)

def compareUnitOrder (left right : UnitOrder) : Ordering :=
  compare (encodeUnitOrder left) (encodeUnitOrder right)

instance : Std.TransCmp compareUnitOrder :=
  inferInstanceAs (Std.TransCmp fun left right => compare (encodeUnitOrder left) (encodeUnitOrder right))

def compareUnits (collation : Collation) : Unit → Unit → Ordering :=
  compareLex (fun left right => compareUnitOrder left.order right.order)
    (fun left right => collation.compare left.key right.key)

instance (collation : Collation) : Std.TransCmp (compareUnits collation) :=
  inferInstanceAs (Std.TransCmp (compareLex _ _))

end TranscriptUnit

end Rika
