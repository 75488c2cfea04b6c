import Rika.AccumulatorRuns
import Rika.Selection

namespace Rika.ThreadViewFeed

open ThreadView Selection Accumulator
open Usage (UsageState emptyUsageState threadUsageNext)

inductive ProjectionChange
  | projectionSnapshot (baseRevision : Option Finite) (revision : Finite) (checkpoint : Option Checkpoint)
      (units : List TranscriptUnit.Unit) (hasOlder : Bool) (state : ProjectionState)
  | projectionPatch (baseRevision revision : Finite) (checkpoint : Checkpoint)
      (upsert : List TranscriptUnit.Unit) (remove : List String) (state : ProjectionState)

namespace ProjectionChange

def changedUnits : ProjectionChange → List TranscriptUnit.Unit
  | projectionSnapshot _ _ _ units _ _ => units
  | projectionPatch _ _ _ upsert _ _ => upsert

def checkpoint : ProjectionChange → Option Checkpoint
  | projectionSnapshot _ _ checkpoint _ _ _ => checkpoint
  | projectionPatch _ _ checkpoint _ _ _ => some checkpoint

def revision : ProjectionChange → Finite
  | projectionSnapshot _ revision _ _ _ _ => revision
  | projectionPatch _ revision _ _ _ _ => revision

def state : ProjectionChange → ProjectionState
  | projectionSnapshot _ _ _ _ _ state => state
  | projectionPatch _ _ _ _ _ state => state

end ProjectionChange

inductive QueueChange
  | reset (items : List QueueItem)
  | added (item : QueueItem) (position : Option Nat)
  | updated (item : QueueItem)
  | removed (turnId : String)
  | promoted (turn : Turn)

/-- Events the feed forwards without looking into them. -/
inductive NoticeTag
  | contextDiagnostics
  | turnRetryScheduled
  | executionFailed
  | submissionRejected
  | executionControlFailed
  | queueFull
  | submissionAdmitted
  | executionControlled
  | threadRefolding
  | threadsListed
  | assistantCompleted
  | shellCompleted
  | threadActivated
  | threadPreviewLoaded
  | threadPreviewFailed

structure Notice where
  tag : NoticeTag
  selectionEpoch : Option Int
  payload : String

inductive RuntimeEvent
  | selectionLoaded (event : SelectionLoaded)
  | threadTitled (threadId title : String)
  | executionProjectionChanged (threadId : String) (turn : Option Turn) (change : ProjectionChange)
  | turnStarted (threadId : String) (turn : Turn)
  | turnSettled (threadId turnId : String) (status : TerminalStatus)
  | queueUpdated (threadId : String) (change : QueueChange)
  | executionProjectionResyncRequired (threadId : String)
  | threadViewResyncRequired (threadId reason : String)
  | executionModelPreviewChanged (threadId turnId preview : String)
  | notice (notice : Notice)

inductive ClientEvent
  | threadViewSnapshot (snapshot : ThreadViewSnapshot)
  | threadViewPatch (patch : ThreadViewPatch)
  | resyncRequired (error : ResyncRequired)
  | threadTitled (threadId title : String)
  | executionModelPreviewChanged (threadId turnId preview : String)
  | notice (notice : Notice)

structure View (collation : Collation) where
  acc : ThreadViewAccumulator
  consistent : acc.Consistent collation

variable {collation : Collation}

namespace View

def apply (view : View collation) (patch : ThreadViewPatch) :
    Except ThreadViewApplyError ThreadViewDelta × View collation :=
  match h : Accumulator.apply view.acc patch with
  | some (result, acc) => (result, ⟨acc, apply_consistent view.consistent h⟩)
  | none => absurd h (apply_ne_none view.consistent patch)

def hydrate (collation : Collation) (snapshot : ThreadViewSnapshot) :
    Except ThreadViewApplyError (View collation) :=
  match h : fromSnapshot snapshot with
  | .ok acc => .ok ⟨acc, fromSnapshot_consistent h collation⟩
  | .error error => .error error

section

variable (view : View collation)

def snapshot : ThreadViewSnapshot × View collation :=
  ((view.acc.snapshot collation).1, ⟨(view.acc.snapshot collation).2, snapshot_consistent view.consistent⟩)

def header : ThreadViewHeader := view.acc.currentHeader

def revision : Nat := view.acc.currentRevision

def turn (turnId : String) : Option ThreadViewTurnState := view.acc.turn turnId

def units (turnId : String) : List TranscriptUnit.Unit := view.acc.units collation turnId

end

end View

def trackedProjectionLimit : Nat := 64

structure Feed (collation : Collation) where
  current : Option (View collation) := none
  snapshotRequired : Bool := false
  knownThreadId : Option String := none
  knownProjectionRevisions : InsertionMap String Finite := .empty
  knownUsage : InsertionMap String UsageState := .empty
  knownCheckpoints : InsertionMap String Checkpoint := .empty
  knownTerminalStatuses : InsertionMap String TerminalStatus := .empty

def requiresProjectionCheckpoint (change : ProjectionChange) (units : List TranscriptUnit.Unit) : Bool :=
  change.checkpoint.isNone && units.any fun unit =>
    match unit.content with
    | .block (.authorizationCard _ _ _ _ _ status) => status = .pending
    | _ => false

def resync (threadId : String) (revision receivedBaseRevision : Nat) : ClientEvent :=
  .resyncRequired ⟨threadId, revision + 1, receivedBaseRevision, revision⟩

def View.resync (view : View collation) : ClientEvent :=
  ThreadViewFeed.resync view.header.thread.id view.revision view.revision

abbrev Answer (collation : Collation) : Type := List ClientEvent × Feed collation

def terminalStatus : Status → Option TerminalStatus
  | .completed => some .completed
  | .failed => some .failed
  | .cancelled => some .cancelled
  | .accepted | .queued | .running | .waiting | .cancelling => none

namespace Feed

variable (feed : Feed collation)

def rememberTerminal (turnId : String) (status : TerminalStatus) : Feed collation :=
  { feed with
    knownTerminalStatuses :=
      ((feed.knownTerminalStatuses.delete turnId).set turnId status).evict trackedProjectionLimit }

def rememberProjection (turnId : String) (revision : Finite) (usage : UsageState) : Feed collation :=
  let revisions := (feed.knownProjectionRevisions.delete turnId).set turnId revision
  let oldest := revisions.keys.take (revisions.size - trackedProjectionLimit)
  { feed with
    knownProjectionRevisions := revisions.evict trackedProjectionLimit
    knownUsage := oldest.foldl (·.delete ·) ((feed.knownUsage.delete turnId).set turnId usage) }

def rememberTurn (entry : ThreadViewTurn) : Feed collation :=
  let turnId := entry.turn.id
  let terminal := terminalStatus entry.turn.status
  let feed :=
    match terminal with
    | some status => feed.rememberTerminal turnId status
    | none => feed
  match feed.knownProjectionRevisions.get turnId with
  | none =>
    if terminal.isNone then feed.rememberProjection turnId entry.projectionRevision entry.usage else feed
  | some revision =>
    if revision ≤ entry.projectionRevision then
      feed.rememberProjection turnId entry.projectionRevision entry.usage
    else feed

def remember (snapshot : ThreadViewSnapshot) : Feed collation :=
  let threadId := snapshot.thread.id
  let feed :=
    if feed.knownThreadId = some threadId then feed
    else
      { feed with
        knownThreadId := some threadId
        knownProjectionRevisions := .empty
        knownUsage := .empty
        knownCheckpoints := .empty
        knownTerminalStatuses := .empty }
  snapshot.turns.foldl rememberTurn feed

/-- Turns known to have settled keep their terminal status, whatever the
repository read says. -/
def settled (incoming : ThreadViewSnapshot) : ThreadViewSnapshot :=
  { incoming with
    turns := incoming.turns.map fun entry =>
      match feed.knownTerminalStatuses.get entry.turn.id with
      | none => entry
      | some terminal => { entry with turn := { entry.turn with status := terminal.status } } }

def replace (incoming : ThreadViewSnapshot) : Answer collation :=
  let snapshot := feed.settled incoming
  match View.hydrate collation snapshot with
  | .error _ =>
    ([resync snapshot.thread.id snapshot.revision snapshot.revision],
      { feed with current := none, snapshotRequired := true })
  | .ok view =>
    ([.threadViewSnapshot snapshot],
      { ({ feed with current := some view } : Feed collation).remember snapshot with snapshotRequired := false })

def patch (value : ThreadViewPatch) : Answer collation :=
  match feed.current with
  | none => ([], feed)
  | some view =>
    if feed.snapshotRequired then ([], feed)
    else
      match view.apply value with
      | (.error _, view) =>
        ([resync view.header.thread.id view.revision value.baseRevision],
          { feed with current := some view, snapshotRequired := true })
      | (.ok _, view) => ([.threadViewPatch value], { feed with current := some view })

structure Change where
  upsert : List TranscriptUnit.Unit := []
  remove : List String := []
  turnChanges : List ThreadViewTurnChange := []
  header : Option ThreadViewHeader := none

def nextPatch (change : Change) : Answer collation :=
  match feed.current with
  | none => ([], feed)
  | some view =>
    if feed.snapshotRequired then ([], feed)
    else
      feed.patch
        { threadId := view.header.thread.id
          baseRevision := view.revision
          revision := view.revision + 1
          upsert := change.upsert
          remove := change.remove
          turnChanges := change.turnChanges
          header := change.header }

def requireSnapshot (view : View collation) : Answer collation :=
  ([view.resync], { feed with snapshotRequired := true })

/-- Where the turn of a projection is: in the window, tracked past its newer
end, or new at its end. -/
inductive ProjectionPosition
  | inWindow (existing : ThreadViewTurnState)
  | trackedOffWindow
  | insertable (turn : Turn)

def projectionPosition (view : View collation) (existing : Option ThreadViewTurnState)
    (knownRevision : Option Finite) (turn : Option Turn) (change : ProjectionChange) : Option ProjectionPosition :=
  match existing with
  | some existing => some (.inWindow existing)
  | none =>
    if view.header.hasNewer then
      if knownRevision.isSome then some .trackedOffWindow else none
    else
      match turn, change with
      | some turn, .projectionSnapshot _ _ _ _ _ _ => some (.insertable turn)
      | _, _ => none

def revisionAccepted (knownRevision : Option Finite) : ProjectionChange → Bool
  | .projectionSnapshot _ _ _ _ _ _ => true
  | .projectionPatch baseRevision _ _ _ _ _ => knownRevision = some baseRevision

def removedKeys (view : View collation) (turnId : String) : ProjectionChange → List String
  | .projectionSnapshot _ _ _ units hasOlder _ =>
    if hasOlder then []
    else ((view.units turnId).map (·.key)).filter fun key => key ∉ units.map (·.key)
  | .projectionPatch _ _ _ _ remove _ => remove

def projectedTurn (record : ThreadViewTurnRecord) (change : ProjectionChange) : ThreadViewTurnChange :=
  .upsertTurn
    { turn := record
      projectionRevision := change.revision
      usage := change.state.usage
      needsResolution := some (change.state.needsResolution.getD false)
      pendingSteering := some (change.state.steering.pending.getD [])
      settledSteering := some (change.state.steering.settled.getD []) }

section

variable (now : Finite)

def projectionPatch (view : View collation) (turnId : String) (turn : Option Turn)
    (status : Status) (header : ThreadViewHeader) (change : ProjectionChange) : ProjectionPosition → Change
  | .trackedOffWindow => { header := some header }
  | .insertable turn =>
    { upsert := change.changedUnits
      turnChanges := [projectedTurn { turnRecord turn with status := status } change]
      header := some header }
  | .inWindow existing =>
    let record :=
      match turn with
      | none => { existing.turn with status := status, updatedAt := now }
      | some turn => { turnRecord turn with status := status, updatedAt := turn.updatedAt }
    { upsert := change.changedUnits
      remove := removedKeys view turnId change
      turnChanges := [projectedTurn record change]
      header := some header }

def isResyncRequired : ClientEvent → Bool
  | .resyncRequired _ => true
  | _ => false

def accepted (turnId : String) (change : ProjectionChange) (answer : Answer collation) : Answer collation :=
  if answer.1.any isResyncRequired then answer
  else
    let feed := answer.2.rememberProjection turnId change.revision change.state.usage
    (answer.1,
      { feed with
        knownCheckpoints :=
          match change.checkpoint with
          | none => feed.knownCheckpoints
          | some checkpoint => feed.knownCheckpoints.set turnId checkpoint })

def projectionTurnId (turn : Option Turn) (change : ProjectionChange) : Option String :=
  (turn.map (·.id)).or (change.changedUnits.head?.map (·.turnId))

/-- The last known projection revision of a turn, in preference to the one
the view shows. -/
def knownRevision (turnId : String) (existing : Option ThreadViewTurnState) : Option Finite :=
  (feed.knownProjectionRevisions.get turnId).or (existing.map (·.projectionRevision))

def projectedHeader (view : View collation) (turnId : String) (turn : Option Turn) (change : ProjectionChange) :
    ThreadViewHeader :=
  let previous := (feed.knownUsage.get turnId).or ((view.turn turnId).map (·.usage))
  { view.header with
    usage := threadUsageNext view.header.usage previous change.state.usage (turn.bind (·.compaction)) }

def projectTurn (view : View collation) (turn : Option Turn) (change : ProjectionChange)
    (turnId : String) : Answer collation :=
  let existing := view.turn turnId
  let knownRevision := feed.knownRevision turnId existing
  let status := ((feed.knownTerminalStatuses.get turnId).map (·.status)).getD change.state.status
  match projectionPosition view existing knownRevision turn change with
  | none => feed.requireSnapshot view
  | some position =>
    if revisionAccepted knownRevision change then
      accepted turnId change <| feed.nextPatch <|
        projectionPatch now view turnId turn status (feed.projectedHeader view turnId turn change) change position
    else feed.requireSnapshot view

def projectionChanged (threadId : String) (turn : Option Turn) (change : ProjectionChange) :
    Answer collation :=
  match feed.current with
  | none => ([], feed)
  | some view =>
    if threadId ≠ view.header.thread.id then ([], feed)
    else if requiresProjectionCheckpoint change change.changedUnits then feed.requireSnapshot view
    else
      match projectionTurnId turn change with
      | none => feed.requireSnapshot view
      | some turnId => feed.projectTurn now view turn change turnId

def startedTurn (turn : Turn) : Change where
  upsert := [promptUnit turn.id turn.prompt]
  turnChanges :=
    [.upsertTurn
      { turn :=
          { turnRecord turn with
            status := ((feed.knownTerminalStatuses.get turn.id).map (·.status)).getD turn.status }
        projectionRevision := 0
        usage := emptyUsageState
        needsResolution := none
        pendingSteering := some []
        settledSteering := some [] }]

def turnStarted (threadId : String) (turn : Turn) : Answer collation :=
  match feed.current with
  | none => ([], feed)
  | some view =>
    if threadId ≠ view.header.thread.id then ([], feed)
    else if (view.turn turn.id).isSome then ([], feed)
    else if view.header.hasNewer then ([], feed.rememberProjection turn.id 0 emptyUsageState)
    else feed.nextPatch (feed.startedTurn turn)

def turnSettled (threadId turnId : String) (status : TerminalStatus) : Answer collation :=
  match feed.current with
  | none => ([], feed)
  | some view =>
    if threadId ≠ view.header.thread.id then ([], feed)
    else
      let feed :=
        { feed.rememberTerminal turnId status with
          knownProjectionRevisions := feed.knownProjectionRevisions.delete turnId
          knownUsage := feed.knownUsage.delete turnId }
      match view.turn turnId with
      | none => ([], feed)
      | some existing =>
        feed.nextPatch
          { turnChanges :=
              [.upsertTurn
                { turn := { existing.turn with status := status.status, updatedAt := now }
                  projectionRevision := existing.projectionRevision
                  usage := existing.usage
                  needsResolution := none
                  pendingSteering := some (existing.pendingSteering.getD [])
                  settledSteering := some (existing.settledSteering.getD []) }] }

def queuedItems (items : List ThreadViewPendingTurn) : QueueChange → List ThreadViewPendingTurn
  | .reset items => pending (items.map (·.pendingTurn))
  | .added item position =>
    pending (items.insertIdx (min (position.getD items.length) items.length) item.pendingTurn)
  | .updated item => pending (items.map fun queued => if queued.id = item.id then item.pendingTurn else queued)
  | .removed turnId => items.filter (·.id ≠ turnId)
  | .promoted turn => items.filter (·.id ≠ turn.id)

def queueUpdated (threadId : String) (change : QueueChange) : Answer collation :=
  match feed.current with
  | none => ([], feed)
  | some view =>
    if threadId ≠ view.header.thread.id then ([], feed)
    else
      let header := { view.header with pending := queuedItems view.header.pending change }
      match change with
      | .promoted turn =>
        if view.header.hasNewer then
          (feed.rememberProjection turn.id 0 emptyUsageState).nextPatch { header := some header }
        else feed.nextPatch { feed.startedTurn turn with header := some header }
      | _ => feed.nextPatch { header := some header }

def selectionRevision (event : SelectionLoaded) : Nat :=
  match feed.current with
  | none => 0
  | some view => if view.header.thread.id = event.thread.id then view.revision + 1 else 0

def selectionLoaded (event : SelectionLoaded) : Answer collation :=
  let answer := feed.replace (fromSelection collation event (feed.selectionRevision event))
  if answer.2.snapshotRequired then answer
  else
    (answer.1,
      { answer.2 with
        knownCheckpoints :=
          event.projectionCheckpoints.foldl (fun known value => known.set value.1 value.2)
            answer.2.knownCheckpoints })

def threadTitled (threadId title : String) : Answer collation :=
  match feed.current with
  | none => ([.threadTitled threadId title], feed)
  | some view =>
    if threadId ≠ view.header.thread.id then ([.threadTitled threadId title], feed)
    else
      feed.nextPatch
        { header := some { view.header with thread := { view.header.thread with title := title } } }

def resyncRequired (threadId : String) : Answer collation :=
  match feed.current with
  | none => ([], feed)
  | some view => if threadId ≠ view.header.thread.id then ([], feed) else feed.requireSnapshot view

def executionModelPreviewChanged (threadId turnId preview : String) : Answer collation :=
  match feed.current with
  | none => ([], feed)
  | some view =>
    if threadId = view.header.thread.id then ([.executionModelPreviewChanged threadId turnId preview], feed)
    else ([], feed)

def passThrough (notice : Notice) : Notice :=
  match notice.tag with
  | .contextDiagnostics | .turnRetryScheduled | .executionFailed | .submissionRejected | .executionControlFailed
  | .queueFull | .submissionAdmitted | .executionControlled | .threadRefolding =>
    { notice with selectionEpoch := none }
  | .threadsListed | .assistantCompleted | .shellCompleted | .threadActivated | .threadPreviewLoaded
  | .threadPreviewFailed => notice

def publish : RuntimeEvent → Answer collation
  | .selectionLoaded event => feed.selectionLoaded event
  | .threadTitled threadId title => feed.threadTitled threadId title
  | .executionProjectionChanged threadId turn change => feed.projectionChanged now threadId turn change
  | .turnStarted threadId turn => feed.turnStarted threadId turn
  | .turnSettled threadId turnId status => feed.turnSettled now threadId turnId status
  | .queueUpdated threadId change => feed.queueUpdated threadId change
  | .executionProjectionResyncRequired threadId => feed.resyncRequired threadId
  | .threadViewResyncRequired threadId _ => feed.resyncRequired threadId
  | .executionModelPreviewChanged threadId turnId preview =>
    feed.executionModelPreviewChanged threadId turnId preview
  | .notice notice => ([.notice (passThrough notice)], feed)

end

/-- `feed.current()`. -/
def currentView : Option ThreadViewSnapshot × Feed collation :=
  match feed.current with
  | none => (none, feed)
  | some view => (some view.snapshot.1, { feed with current := some view.snapshot.2 })

end Feed

end Rika.ThreadViewFeed
