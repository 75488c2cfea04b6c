import Rika.Fold
import Rika.Table
import Rika.TranscriptUnit

namespace Rika

inductive HostedPersistenceFailure
  | notFound
  | conflict
  | staleVersion
  | invalidAuthority
  | leaseUnavailable
  | staleFence
  | database

structure HostedPersistenceError where
  reason : HostedPersistenceFailure
  message : String

def failure (reason : HostedPersistenceFailure) (message : String) : HostedPersistenceError := ⟨reason, message⟩

def databaseError (cause : String) : HostedPersistenceError :=
  ⟨.database, "Thread protocol PostgreSQL operation failed: " ++ cause⟩

/-- `Math.trunc`. -/
def trunc (value : Finite) : Int := value.num.tdiv value.den

/-- How events and snapshots are stored and read back, and when two snapshots have the same authorizations. -/
structure Contract (Json Event Snapshot : Type) where
  encodeEvent : Event → Json
  decodeEvent : Json → Option Event
  encodeSnapshot : Snapshot → Json
  decodeSnapshot : Json → Option Snapshot
  pendingAuthorizationsEquivalent : Snapshot → Snapshot → Bool

/-- What the process observations stored at the time of a write overlay on the
values written. -/
structure ProcessObservationProjection (Event Snapshot : Type) where
  event : Event → Event
  snapshot : Snapshot → Snapshot

structure ProtocolState where
  version : Nat
  eventCursor : Nat
deriving DecidableEq

structure EventRow (Json : Type) where
  sequence : Nat
  cursor : Nat
  threadVersion : Nat
  event : Json
  createdAt : String

structure SnapshotRow (Json : Type) where
  threadVersion : Nat
  cursor : Nat
  snapshot : Json
  replayRequired : Bool
  createdAt : String

/-- A stored snapshot gives way to one of the same version, unless that one is
older. -/
def SnapshotRow.replacedBy {Json : Type} (row excluded : SnapshotRow Json) : SnapshotRow Json :=
  if row.cursor ≤ excluded.cursor then
    { row with
      cursor := excluded.cursor
      snapshot := excluded.snapshot
      replayRequired := row.replayRequired || excluded.replayRequired
      createdAt := excluded.createdAt }
  else row

theorem SnapshotRow.threadVersion_replacedBy {Json : Type} (row excluded : SnapshotRow Json) :
    (row.replacedBy excluded).threadVersion = row.threadVersion := by
  rw [replacedBy]
  split <;> rfl

structure CursorRow where
  clientId : String
  cursor : Nat
  acknowledgedAt : String

structure ThreadLog (Json : Type) where
  state : Option ProtocolState
  events : Table (@EventRow.sequence Json)
  snapshots : Table (@SnapshotRow.threadVersion Json)
  cursors : Table CursorRow.clientId

structure ThreadProtocolEvent (Event : Type) where
  sequence : Nat
  cursor : Nat
  threadVersion : Nat
  event : Event
  createdAt : String

structure ThreadProtocolSnapshot (Snapshot : Type) where
  threadVersion : Nat
  cursor : Nat
  snapshot : Snapshot
  createdAt : String

namespace ThreadLog

variable {Json Event Snapshot : Type}

def empty : ThreadLog Json := ⟨none, Table.empty, Table.empty, Table.empty⟩

def checkpointInterval : Int := 64

def latestFirst (rows : List (SnapshotRow Json)) : List (SnapshotRow Json) :=
  StableSort.toSorted (fun left right => compare right.cursor left.cursor) rows

def writtenEvents (projection : ProcessObservationProjection Event Snapshot) (threadVersion firstCursor : Nat)
    (events : List Event) (createdAt : String) : List (ThreadProtocolEvent Event) :=
  (events.map projection.event).mapIdx fun index event =>
    { sequence := firstCursor + index, cursor := firstCursor + index, threadVersion, event, createdAt }

section

variable (contract : Contract Json Event Snapshot) (projection : ProcessObservationProjection Event Snapshot) (log : ThreadLog Json)

def writeEvents (threadVersion firstCursor : Nat) (events : List Event) (createdAt : String) :
    Except HostedPersistenceError (List (ThreadProtocolEvent Event) × ThreadLog Json) :=
  let written := writtenEvents projection threadVersion firstCursor events createdAt
  let rows := written.map fun event =>
    { sequence := event.sequence
      cursor := event.cursor
      threadVersion := event.threadVersion
      event := contract.encodeEvent event.event
      createdAt := event.createdAt }
  match log.events.insertAll rows with
  | none => .error (databaseError "duplicate key value violates unique constraint")
  | some events => .ok (written, { log with events })

def writeSnapshot (threadVersion cursor : Nat)
    (snapshot : Snapshot) (createdAt : String) (replayRequired : Bool) : ThreadLog Json :=
  let stored := contract.encodeSnapshot (projection.snapshot snapshot)
  let excluded : SnapshotRow Json := ⟨threadVersion, cursor, stored, replayRequired, createdAt⟩
  { log with
    snapshots :=
      log.snapshots.upsert excluded (fun row => row.replacedBy excluded) fun row => row.threadVersion_replacedBy excluded }

end

structure CheckpointDecision where
  due : Bool
  replayRequired : Bool

def checkpointDue (contract : Contract Json Event Snapshot) (log : ThreadLog Json) (cursor : Nat)
    (snapshot : Snapshot) : CheckpointDecision :=
  match (latestFirst log.snapshots.rows).head? with
  | none => ⟨true, false⟩
  | some latest =>
    match contract.decodeSnapshot latest.snapshot with
    | none => ⟨true, true⟩
    | some stored =>
      let authorizationChanged := !contract.pendingAuthorizationsEquivalent stored snapshot
      { due := authorizationChanged || decide ((cursor : Int) - latest.cursor ≥ checkpointInterval)
        replayRequired := authorizationChanged || latest.replayRequired }

def initializeThread (access : Except HostedPersistenceError Unit) (log : ThreadLog Json) :
    Except HostedPersistenceError (ThreadLog Json) := do
  access
  .ok { log with state := some (log.state.getD ⟨0, 0⟩) }

def advanceVersion (log : ThreadLog Json) : ThreadLog Json :=
  { log with state := log.state.map fun state => { state with version := state.version + 1 } }

structure AppendInput (Event Snapshot : Type) where
  events : List Event
  snapshot : Option Snapshot
  createdAt : String

def appendEvents (contract : Contract Json Event Snapshot)
    (projection : ProcessObservationProjection Event Snapshot) (log : ThreadLog Json)
    (input : AppendInput Event Snapshot) :
    Except HostedPersistenceError (List (ThreadProtocolEvent Event) × ThreadLog Json) :=
  if input.events = [] then .ok ([], log)
  else
    match log.state with
    | none => .error (failure .notFound "Thread protocol state is unavailable")
    | some state => do
      let (events, log) ←
        writeEvents contract projection log state.version (state.eventCursor + 1) input.events input.createdAt
      let cursor := (events.getLast?.map (·.cursor)).getD state.eventCursor
      let log := { log with state := some { state with eventCursor := cursor } }
      match input.snapshot with
      | none => .ok (events, log)
      | some snapshot =>
        let decision := checkpointDue contract log cursor snapshot
        if decision.due then
          .ok
            (events,
              writeSnapshot contract projection log state.version cursor snapshot input.createdAt
                decision.replayRequired)
        else .ok (events, log)

structure CheckpointInput (Snapshot : Type) where
  threadVersion : Nat
  cursor : Nat
  snapshot : Snapshot
  createdAt : String

section

variable (contract : Contract Json Event Snapshot) (projection : ProcessObservationProjection Event Snapshot) (log : ThreadLog Json) (input : CheckpointInput Snapshot)

def checkpoint : Except HostedPersistenceError (Bool × ThreadLog Json) :=
  match log.state with
  | none => .error (failure .notFound "Thread protocol state is unavailable")
  | some state =>
    if state.version ≠ input.threadVersion ∨ state.eventCursor ≠ input.cursor then
      .error (failure .conflict "Thread protocol state advanced before its checkpoint was persisted")
    else
      let decision := checkpointDue contract log input.cursor input.snapshot
      if decision.due then
        .ok
          (true,
            writeSnapshot contract projection log input.threadVersion input.cursor input.snapshot input.createdAt
              decision.replayRequired)
      else .ok (false, log)

def saveSnapshot : Except HostedPersistenceError (ThreadLog Json) :=
  if log.state = some ⟨input.threadVersion, input.cursor⟩ then
    .ok
      (writeSnapshot contract projection log input.threadVersion input.cursor input.snapshot input.createdAt false)
  else .error (failure .conflict "Thread protocol state advanced before its snapshot was persisted")

end

structure AcknowledgeInput where
  clientId : String
  cursor : Nat
  acknowledgedAt : String

structure Acknowledgement where
  acknowledgedCursor : Nat
  headCursor : Nat
  threadVersion : Nat

def compactCursor (log : ThreadLog Json) : Option Nat :=
  match (log.cursors.rows.map (·.cursor)).min? with
  | none => none
  | some minimum => ((log.snapshots.select fun row => row.cursor ≤ minimum).map (·.cursor)).max?

def compact (log : ThreadLog Json) : ThreadLog Json :=
  match log.compactCursor with
  | none => log
  | some cursor =>
    { log with
      events := log.events.delete fun row => row.cursor ≤ cursor
      snapshots := log.snapshots.delete fun row => row.cursor < cursor }

def acknowledgeCursor (access : Except HostedPersistenceError Unit) (log : ThreadLog Json)
    (input : AcknowledgeInput) : Except HostedPersistenceError (Acknowledgement × ThreadLog Json) := do
  access
  match log.state with
  | none => .error (failure .conflict "Cursor is ahead of the committed Thread log")
  | some state =>
    if state.eventCursor < input.cursor then
      .error (failure .conflict "Cursor is ahead of the committed Thread log")
    else
      let cursors := log.cursors.upsert ⟨input.clientId, input.cursor, input.acknowledgedAt⟩ fun row =>
        { row with cursor := max row.cursor input.cursor, acknowledgedAt := input.acknowledgedAt }
      let acknowledgedCursor := ((cursors.find input.clientId).map (·.cursor)).getD input.cursor
      .ok (⟨acknowledgedCursor, state.eventCursor, state.version⟩, compact { log with cursors })

structure ReplayInput where
  afterCursor : Nat
  afterCheckpointCursor : Option Nat
  throughCursor : Option Nat
  includeSnapshot : Option Bool
  limit : Finite

structure ThreadReplay (Event Snapshot : Type) where
  threadVersion : Nat
  cursor : Nat
  snapshot : Option (ThreadProtocolSnapshot Snapshot)
  events : List (ThreadProtocolEvent Event)
  hasMore : Bool

section

variable (input : ReplayInput)

def ReplayInput.targetCursor (state : ProtocolState) : Nat :=
  min (input.throughCursor.getD state.eventCursor) state.eventCursor

def ReplayInput.pageLimit : Nat := (min (max (trunc input.limit) 1) 1000).toNat

def replayCheckpointCondition (targetCursor : Nat) (retainedTail : Bool) :
    Option (SnapshotRow Json → Bool) :=
  if retainedTail then
    some fun row =>
      row.replayRequired &&
        (match input.afterCheckpointCursor with
          | none => decide (row.cursor ≥ input.afterCursor)
          | some checkpoint => decide (row.cursor > checkpoint)) &&
        decide (row.cursor ≤ targetCursor)
  else none

def replaySnapshotCondition (replayCursor targetCursor : Nat) (row : SnapshotRow Json) : Bool :=
  if replayCursor = 0 then row.cursor ≤ targetCursor
  else row.cursor > replayCursor && row.cursor ≤ targetCursor

def isDirectReplayTail (replayCursor targetCursor : Nat) (firstEventCursor : Option Nat) : Bool :=
  replayCursor = targetCursor || firstEventCursor = some (replayCursor + 1)

def isRetainedReplayTail (directTail : Bool) : Bool :=
  directTail && (input.afterCursor ≠ 0 || input.afterCheckpointCursor.isSome)

def skipReplaySnapshot (retainedTail hasRequiredCheckpoint : Bool) : Bool :=
  input.includeSnapshot = some false || (retainedTail && !hasRequiredCheckpoint)

end

def readEvents (log : ThreadLog Json) (targetCursor limit cursor : Nat) : List (EventRow Json) :=
  (StableSort.toSorted (fun left right => compare left.sequence right.sequence)
    (log.events.select fun row => row.cursor > cursor && row.cursor ≤ targetCursor)).take (limit + 1)

section

variable (contract : Contract Json Event Snapshot)

def decodeReplayEvents (rows : List (EventRow Json)) : List (ThreadProtocolEvent Event) :=
  rows.filterMap fun row =>
    (contract.decodeEvent row.event).map fun event =>
      ⟨row.sequence, row.cursor, row.threadVersion, event, row.createdAt⟩

def decodeReplaySnapshot (row : Option (SnapshotRow Json)) :
    Option (ThreadProtocolSnapshot Snapshot) :=
  row.bind fun row =>
    (contract.decodeSnapshot row.snapshot).map fun snapshot =>
      ⟨row.threadVersion, row.cursor, snapshot, row.createdAt⟩

def replaySnapshot (log : ThreadLog Json) (state : ProtocolState)
    (input : ReplayInput) : Option (ThreadProtocolSnapshot Snapshot) :=
  let targetCursor := input.targetCursor state
  let eventRows := readEvents log targetCursor input.pageLimit input.afterCursor
  let directTail := isDirectReplayTail input.afterCursor targetCursor (eventRows.head?.map (·.cursor))
  let retainedTail := isRetainedReplayTail input directTail
  let requiredCheckpoint := @replayCheckpointCondition Json input targetCursor retainedTail
  if skipReplaySnapshot input retainedTail requiredCheckpoint.isSome then none
  else
    let snapshotRows :=
      latestFirst
        (log.snapshots.select fun row =>
          requiredCheckpoint.getD (replaySnapshotCondition input.afterCursor targetCursor) row &&
            decide (row.threadVersion ≤ state.version))
    decodeReplaySnapshot contract snapshotRows.head?

def replay (access : Except HostedPersistenceError Unit)
    (log : ThreadLog Json) (input : ReplayInput) :
    Except HostedPersistenceError (ThreadReplay Event Snapshot) := do
  access
  match log.state with
  | none => .error (failure .notFound "Thread protocol state is unavailable")
  | some state =>
    if input.afterCursor > input.targetCursor state then
      .error (failure .conflict "Replay cursor is ahead of the committed Thread log")
    else if input.afterCheckpointCursor.any (· > input.afterCursor) then
      .error (failure .conflict "Replay checkpoint cursor is ahead of its event cursor")
    else
      let snapshot := replaySnapshot contract log state input
      let replayCursor := (snapshot.map (·.cursor)).getD input.afterCursor
      let eventRows := readEvents log (input.targetCursor state) input.pageLimit replayCursor
      .ok
        { threadVersion := state.version
          cursor := state.eventCursor
          snapshot
          events := decodeReplayEvents contract (eventRows.take input.pageLimit)
          hasMore := eventRows.length > input.pageLimit }

end

end ThreadLog

end Rika
