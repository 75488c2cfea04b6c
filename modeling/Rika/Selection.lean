import Rika.ThreadView

namespace Rika.Selection

open ThreadView
open StableSort (toSorted)
open Usage (UsageState ContextCapacity emptyUsageState)

def projectionVersion : Nat := 7

structure Checkpoint where
  cursor : String
  state : String

structure SteeringSummary where
  pending : Option (List PendingSteering)
  settled : Option (List SteeringDisposition)
deriving DecidableEq

structure ProjectionState where
  status : Status
  needsResolution : Option Bool
  usage : UsageState
  steering : SteeringSummary
deriving DecidableEq

structure Entry where
  turn : Turn
  unit : TranscriptUnit.Unit
  projectionRevision : Finite
  projectionState : ProjectionState

structure QueueItem where
  id : String
  prompt : String
  createdAt : Finite
  attachments : Option (List String)

structure UsageSummary where
  usage : UsageState
  contextCapacity : Option ContextCapacity

structure SelectionLoaded where
  thread : Thread
  entries : List Entry
  hasOlder : Bool
  hasNewer : Option Bool
  usage : UsageSummary
  oldestCursor : Option PageCursor
  newestCursor : Option PageCursor
  queue : List QueueItem
  activeTurn : Option Turn
  projectionCheckpoints : List (String × Checkpoint)

def QueueItem.pendingTurn (item : QueueItem) : ThreadViewPendingTurn := ⟨item.id, item.prompt, item.createdAt⟩

def pending (items : List ThreadViewPendingTurn) : List ThreadViewPendingTurn := items.take limits.pending

def groupEntry (grouped : InsertionMap String ThreadViewTurn) (entry : Entry) :
    InsertionMap String ThreadViewTurn :=
  let id := entry.turn.id
  let state := entry.projectionState
  match grouped.get id with
  | none =>
    grouped.set id
      { turn := { turnRecord entry.turn with status := state.status }
        units := [entry.unit]
        projectionRevision := entry.projectionRevision
        usage := state.usage
        needsResolution := some (state.needsResolution = some true)
        pendingSteering := some (state.steering.pending.getD [])
        settledSteering := some (state.steering.settled.getD []) }
  | some current =>
    let current := { current with units := current.units ++ [entry.unit] }
    let current :=
      if current.projectionRevision ≤ entry.projectionRevision then
        { current with
          usage := state.usage
          needsResolution := some (state.needsResolution = some true)
          pendingSteering := some (state.steering.pending.getD [])
          settledSteering := some (state.steering.settled.getD []) }
      else current
    grouped.set id
      { current with projectionRevision := max current.projectionRevision entry.projectionRevision }

def activeTurnEntry (turn : Turn) : ThreadViewTurn where
  turn := turnRecord turn
  units := [promptUnit turn.id turn.prompt]
  projectionRevision := 0
  usage := emptyUsageState
  needsResolution := some false
  pendingSteering := some []
  settledSteering := some []

def groupedTurns (event : SelectionLoaded) : InsertionMap String ThreadViewTurn :=
  let grouped := event.entries.foldl groupEntry .empty
  match event.activeTurn with
  | none => grouped
  | some turn => if grouped.has turn.id then grouped else grouped.set turn.id (activeTurnEntry turn)

def orderedUnits (collation : Collation) (entry : ThreadViewTurn) : ThreadViewTurn :=
  { entry with units := toSorted (TranscriptUnit.compareUnits collation) entry.units }

def orderedTurns (collation : Collation) (turns : List ThreadViewTurn) : List ThreadViewTurn :=
  toSorted (fun left right => compareTurns collation left.toThreadViewTurnState right.toThreadViewTurnState)
    (turns.map (orderedUnits collation))

def unitCursor (turn : ThreadViewTurnRecord) (unit : TranscriptUnit.Unit) : PageCursor :=
  ⟨turn.createdAt, turn.id, TranscriptUnit.encodeUnitOrder unit.order⟩

def sourceFor (turns : List ThreadViewTurn) (projectionVersion : Nat) (oldestCursor newestCursor : Option PageCursor) :
    ThreadViewSource where
  projectionVersion := projectionVersion
  oldestCursor := oldestCursor.or <|
    (turns.find? (·.units ≠ [])).bind fun entry => entry.units.head?.map (unitCursor entry.turn)
  newestCursor := newestCursor.or <|
    (turns.reverse.find? (·.units ≠ [])).bind fun entry => entry.units.getLast?.map (unitCursor entry.turn)

/-- `threadSnapshot.fromSelection`. -/
def fromSelection (collation : Collation) (event : SelectionLoaded) (revision : Nat) : ThreadViewSnapshot :=
  let turns := orderedTurns collation (groupedTurns event).values
  { thread := event.thread
    revision
    source := sourceFor turns projectionVersion event.oldestCursor event.newestCursor
    turns
    pending := pending (event.queue.map (·.pendingTurn))
    hasOlder := event.hasOlder
    hasNewer := event.hasNewer.getD false
    usage := ⟨event.usage.usage, event.usage.contextCapacity⟩ }

end Rika.Selection
