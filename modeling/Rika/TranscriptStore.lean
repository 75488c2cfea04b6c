import Rika.Table
import Rika.ThreadViewFeed

namespace Rika.TranscriptStore

open Selection (Checkpoint ProjectionState projectionVersion)
open StableSort (toSorted)
open ThreadViewFeed (ProjectionChange)
open TranscriptUnit (encodeUnitOrder compareUnitOrder)

inductive CommitResult
  | committed
  | stale
deriving DecidableEq

abbrev WithinTransaction := Except String PUnit

def hasIntrinsicOrder (unit : TranscriptUnit.Unit) : Bool :=
  (unit.order.segments.getLast?.map (·.key)) = some unit.key

structure Seen where
  keys : List String := []
  orders : List String := []

def Seen.has (seen : Seen) (unit : TranscriptUnit.Unit) : Bool :=
  unit.key ∈ seen.keys || encodeUnitOrder unit.order ∈ seen.orders

def Seen.add (seen : Seen) (unit : TranscriptUnit.Unit) : Seen :=
  ⟨unit.key :: seen.keys, encodeUnitOrder unit.order :: seen.orders⟩

namespace Memory

structure Projection where
  units : List TranscriptUnit.Unit
  checkpointGeneration : Nat
  revision : Finite
  state : ProjectionState
  projectionVersion : Nat
  projectorCheckpoint : Option Checkpoint

/-- One turn of the loop of `validateUnits`. -/
def validateUnit (turnId : String) (seen : Seen) (unit : TranscriptUnit.Unit) : Except String Seen :=
  if unit.turnId ≠ turnId ∨ hasIntrinsicOrder unit = false then .error s!"Transcript unit {unit.key} is invalid"
  else if seen.has unit then .error s!"Transcript unit {unit.key} duplicates a durable identity"
  else .ok (seen.add unit)

def validateUnits (turnId : String) (units : List TranscriptUnit.Unit) : Except String Seen :=
  units.foldlM (validateUnit turnId) {}

def materialize (projection : Projection) : Projection :=
  { projection with units := toSorted (fun left right => compareUnitOrder left.order right.order) projection.units }

def staleChange (current : Option Projection) : ProjectionChange → Bool
  | .projectionPatch baseRevision _ _ _ _ _ =>
    current.map (·.projectionVersion) ≠ some projectionVersion || current.map (·.revision) ≠ some baseRevision
  | .projectionSnapshot baseRevision revision _ _ _ _ =>
    match current with
    | none => false
    | some current =>
      current.projectionVersion > projectionVersion ||
        (current.projectionVersion = projectionVersion &&
          match baseRevision with
          | none => current.revision > revision
          | some baseRevision => current.revision ≠ baseRevision)

def replacing (current : Option Projection) : Bool :=
  match current with
  | none => false
  | some current => current.projectionVersion < projectionVersion

end Memory

def removedUnitKeys : ProjectionChange → List String
  | .projectionSnapshot _ _ _ _ _ _ => []
  | .projectionPatch _ _ _ _ remove _ => remove

def shouldDeleteStoredUnits (replacingOlderProjection : Bool) : ProjectionChange → Bool
  | .projectionSnapshot _ _ _ _ hasOlder _ => !hasOlder || replacingOlderProjection
  | .projectionPatch _ _ _ _ _ _ => false

namespace Memory

section

variable (current : Option Projection) (change : ProjectionChange)

def projectionUnits (upsert : List TranscriptUnit.Unit) : List TranscriptUnit.Unit :=
  let before := if replacing current then [] else (current.map (·.units)).getD []
  let units := InsertionMap.ofList (before.map fun unit => (unit.key, unit))
  let units := if shouldDeleteStoredUnits (replacing current) change then .empty else units
  let units := (removedUnitKeys change).foldl (fun units key => units.delete key) units
  let units := upsert.foldl (fun units unit => units.set unit.key unit) units
  units.values

def candidate : Projection where
  units := projectionUnits current change change.changedUnits
  checkpointGeneration := (current.map fun current => current.checkpointGeneration + 1).getD 0
  revision := change.revision
  state := change.state
  projectionVersion := projectionVersion
  projectorCheckpoint := change.checkpoint

end

/-- `commitProjection` for one turn, with what is stored for it afterwards. -/
def commitProjection (turnId : String) (current : Option Projection) (change : ProjectionChange)
    (withinTransaction : WithinTransaction) : Except String CommitResult × Option Projection :=
  match validateUnits turnId change.changedUnits with
  | .error message => (.error message, current)
  | .ok _ =>
    if staleChange current change then (.ok .stale, current)
    else
      match withinTransaction with
      | .error message => (.error message, current)
      | .ok _ => (.ok .committed, some (materialize (candidate current change)))

end Memory

namespace Sql

/-- A value that a column of type `integer` takes. -/
def isInteger (value : Finite) : Bool := value.den = 1 && -2147483648 ≤ value.num && value.num ≤ 2147483647

/-- A value that a column of type `text` takes. -/
def isText (value : String) : Bool := Char.ofNat 0 ∉ value.toList

structure CheckpointRow where
  checkpointGeneration : Nat
  revision : Finite
  projectionVersion : Nat
  state : ProjectionState
  projector : Option Checkpoint

structure UnitRow where
  unitKey : String
  unitOrderKey : String
  parentId : Option String
  revision : Finite
  unit : TranscriptUnit.Unit

structure TurnRows where
  checkpoint : Option CheckpointRow
  units : Table UnitRow.unitKey

def unitIsInvalid (turnId : String) (seen : Seen) (unit : TranscriptUnit.Unit) : Prop :=
  unit.turnId ≠ turnId ∨ hasIntrinsicOrder unit = false ∨ seen.has unit = true

instance (turnId : String) (seen : Seen) (unit : TranscriptUnit.Unit) : Decidable (unitIsInvalid turnId seen unit) :=
  inferInstanceAs (Decidable (_ ∨ _))

def validateUnit (turnId : String) (seen : Seen) (unit : TranscriptUnit.Unit) : Except String Seen :=
  if unitIsInvalid turnId seen unit then .error s!"Transcript unit {unit.key} is invalid or duplicated"
  else .ok (seen.add unit)

def validateUnits (turnId : String) (units : List TranscriptUnit.Unit) : Except String Seen :=
  units.foldlM (validateUnit turnId) {}

def bindsCheckpoint (change : ProjectionChange) : Bool :=
  let baseRevision :=
    match change with
    | .projectionSnapshot baseRevision _ _ _ _ _ => baseRevision
    | .projectionPatch baseRevision _ _ _ _ _ => some baseRevision
  isInteger change.revision && baseRevision.all isInteger &&
    change.checkpoint.all fun checkpoint => isText checkpoint.cursor && isText checkpoint.state

/-- The `WHERE` of the checkpoint statement. -/
def accepts (row : CheckpointRow) : ProjectionChange → Bool
  | .projectionSnapshot baseRevision revision _ _ _ _ =>
    row.projectionVersion < projectionVersion ||
      (row.projectionVersion = projectionVersion &&
        match baseRevision with
        | none => row.revision ≤ revision
        | some baseRevision => row.revision = baseRevision)
  | .projectionPatch baseRevision _ _ _ _ _ => row.revision = baseRevision && row.projectionVersion = projectionVersion

def writeCheckpoint (row : Option CheckpointRow) (change : ProjectionChange) : Except String (Option CheckpointRow) :=
  let written (checkpointGeneration : Nat) : CheckpointRow :=
    ⟨checkpointGeneration, change.revision, projectionVersion, change.state, change.checkpoint⟩
  if !bindsCheckpoint change then .error "value out of range"
  else
    match row, change with
    | none, .projectionSnapshot _ _ _ _ _ _ => .ok (some (written 0))
    | none, .projectionPatch _ _ _ _ _ _ => .ok none
    | some row, change =>
      if !accepts row change then .ok none
      else if isInteger (row.checkpointGeneration + 1) then .ok (some (written (row.checkpointGeneration + 1)))
      else .error "integer out of range"

def unitRow (unit : TranscriptUnit.Unit) : UnitRow where
  unitKey := unit.key
  unitOrderKey := encodeUnitOrder unit.order
  parentId := unit.parentId
  revision := unit.revision
  unit := unit

def bindsUnit (unit : TranscriptUnit.Unit) : Bool :=
  isText unit.key && unit.parentId.all isText && isInteger unit.revision

/-- One row of the insert: a row of its key is updated only where it has the
same order key, and no two rows have one order key. -/
def upsertUnit (units : Table UnitRow.unitKey) (unit : TranscriptUnit.Unit) : Except String (Table UnitRow.unitKey) :=
  let excluded := unitRow unit
  match units.find unit.key with
  | some _ =>
    .ok <| units.update (fun row => row.unitKey = unit.key && row.unitOrderKey = excluded.unitOrderKey)
      fun row =>
        { row with
          revision := excluded.revision
          unit := excluded.unit
          parentId := excluded.parentId }
  | none =>
    if units.rows.any fun row => row.unitOrderKey = excluded.unitOrderKey then .error "duplicate order key"
    else .ok ((units.insert excluded).getD units)

def writeUnits (units : Table UnitRow.unitKey) (replacing : Bool) (change : ProjectionChange) :
    Except String (Table UnitRow.unitKey) := do
  let units := if shouldDeleteStoredUnits replacing change then .empty else units
  let removed := removedUnitKeys change
  if !removed.all isText then throw "invalid text"
  let units := units.delete fun row => row.unitKey ∈ removed
  if !change.changedUnits.all bindsUnit then throw "value out of range"
  change.changedUnits.foldlM upsertUnit units

def replacingOlderProjection (row : Option CheckpointRow) : Bool :=
  match row with
  | none => false
  | some row => row.projectionVersion < projectionVersion

def transaction (rows : TurnRows) (change : ProjectionChange) (withinTransaction : WithinTransaction) :
    Except String (CommitResult × TurnRows) := do
  match ← writeCheckpoint rows.checkpoint change with
  | none => return (.stale, rows)
  | some checkpoint =>
    let units ← writeUnits rows.units (replacingOlderProjection rows.checkpoint) change
    withinTransaction
    return (.committed, ⟨some checkpoint, units⟩)

/-- `commitProjection` for one turn, with the rows of the turn afterwards. -/
def commitProjection (turnId : String) (rows : TurnRows) (change : ProjectionChange)
    (withinTransaction : WithinTransaction) : Except String CommitResult × TurnRows :=
  match validateUnits turnId change.changedUnits >>= fun _ => transaction rows change withinTransaction with
  | .error message => (.error message, rows)
  | .ok (result, rows') => (.ok result, rows')

end Sql

end Rika.TranscriptStore
