import Rika.OperationChanges
import Rika.TranscriptStore

namespace Rika.ProcessObservations

open Assignments (AssignmentRow WorkspaceCapabilitySnapshot)
open ExecutorOperations (OperationKey OperationRow OperationStore Surroundings)
open ThreadViewFeed (ProjectionChange)
open TranscriptStore (CommitResult WithinTransaction)
open TranscriptStore.Sql (CheckpointRow TurnRows UnitRow isInteger isText)
open TranscriptUnit (ToolCall ToolProcess)

structure ProcessTerminalObservation where
  processId : String
  exitCode : Int
  elapsedMillis : Nat
  truncated : Bool
deriving DecidableEq

/-- A row of `rika_hosted_executor_process_observations`. -/
structure ObservationRow where
  operation : OperationKey
  processId : String
  observation : ProcessTerminalObservation

def ObservationRow.key (row : ObservationRow) : OperationKey × String := (row.operation, row.processId)

abbrev Observations := Table ObservationRow.key

structure OperationObservation where
  operationKey : String
  toolCallId : String
  observation : ProcessTerminalObservation
deriving DecidableEq

def matchesTool (row : OperationObservation) (tool : ToolCall) : Bool :=
  tool.operationId = some row.operationKey && tool.toolCallId = some row.toolCallId &&
    tool.process.bind (·.processId) = some row.observation.processId

def observedProcess (observation : ProcessTerminalObservation) (process : Option ToolProcess) : ToolProcess where
  running := some false
  processId := some observation.processId
  exitCode := some observation.exitCode
  elapsedMillis := some observation.elapsedMillis
  truncated := some observation.truncated
  payload := (process.map (·.payload)).getD ""

def observedTool (observation : ProcessTerminalObservation) (tool : ToolCall) : ToolCall :=
  { tool with
    status := if observation.exitCode = 0 then .complete else .failed
    process := some (observedProcess observation tool.process) }

section

variable (unit : TranscriptUnit.Unit)

def toolOf : Option ToolCall :=
  match unit.content with
  | .block (.toolCall tool) => some tool
  | _ => none

def concerns (row : OperationObservation) (unit : TranscriptUnit.Unit) : Bool := (toolOf unit).any (matchesTool row)

def applyObservation (row : OperationObservation) : TranscriptUnit.Unit :=
  match toolOf unit with
  | none => unit
  | some tool =>
    if matchesTool row tool then { unit with content := .block (.toolCall (observedTool row.observation tool)) }
    else unit

def isRunning : Bool :=
  (toolOf unit).any fun tool => tool.process.any fun process => process.running = some true

end

structure RowOrder where
  sort : List OperationObservation → List OperationObservation
  perm : ∀ rows, (sort rows).Perm rows

def overlay (observations : List OperationObservation) (unit : TranscriptUnit.Unit) : TranscriptUnit.Unit :=
  observations.foldl applyObservation unit

def overlayProcessObservations (observations : List OperationObservation) (units : List TranscriptUnit.Unit) :
    List TranscriptUnit.Unit :=
  if units.any isRunning then units.map (overlay observations) else units

structure ProcessObservationInput where
  operation : OperationKey
  assignmentGeneration : Nat
  leaseEpoch : Nat
  executorInstanceId : String
  processIncarnation : String
  observation : ProcessTerminalObservation

inductive ObservationResult
  | recorded
  | duplicate
  | fenced
  | missing
deriving DecidableEq

variable {Json : Type}

/-- What a recording reads besides its tables, and what it makes of stored JSON. -/
structure World (Json : Type) where
  around : Surroundings
  toolsReady : WorkspaceCapabilitySnapshot → Bool
  processId : Json → Option String

structure Store (Json : Type) where
  operations : OperationStore Json
  observations : Observations
  turns : String → TurnRows

def turnObservations (store : Store Json) (turnId : String) : List OperationObservation :=
  store.observations.rows.filterMap fun row =>
    ((store.operations.operations.find row.operation).filter fun operation => operation.turnId = turnId).map fun operation =>
      ⟨operation.operationKey, operation.toolCallId, row.observation⟩

section

variable (world : World Json) (operation : OperationRow Json)

section

variable (assignment : AssignmentRow) (input : ProcessObservationInput)

def hasCurrentAuthority : Bool :=
  operation.dispatchedGeneration = some input.assignmentGeneration &&
    operation.dispatchedExecutorInstanceId = some input.executorInstanceId &&
    operation.dispatchedProcessIncarnation = some input.processIncarnation && assignment.lifecycle = .active &&
    assignment.generation = input.assignmentGeneration && assignment.leaseEpoch = some input.leaseEpoch &&
    assignment.executorInstanceId = some input.executorInstanceId &&
    assignment.processIncarnation = some input.processIncarnation &&
    assignment.leaseExpiresAt.any (fun expires => world.around.clock < expires) &&
    assignment.capabilityGeneration = some input.assignmentGeneration &&
    assignment.capabilitySnapshot.any world.toolsReady

def returnedProcessId : Option String :=
  match operation.response with
  | some (.success result) => world.processId result
  | _ => none

def recordable : Bool :=
  hasCurrentAuthority world operation assignment input &&
    match operation.state with
    | .dispatched => true
    | .completed => returnedProcessId world operation = some input.observation.processId
    | .accepted | .unknown => false

end

end

section

variable (store : Store Json) (world : World Json) (input : ProcessObservationInput)

def operationFor : Option (OperationRow Json × AssignmentRow) := do
  let operation ← store.operations.operations.find input.operation
  let assignment ← world.around.assignments.find? fun assignment => assignment.id = operation.assignmentId
  return (operation, assignment)

def observeRow (row : OperationObservation) (unitRow : UnitRow) : UnitRow :=
  { unitRow with unit := applyObservation unitRow.unit row }

theorem unitKey_observeRow (row : OperationObservation) (unitRow : UnitRow) :
    (observeRow row unitRow).unitKey = unitRow.unitKey := rfl

def nextCheckpoint (changed : Bool) (checkpoint : Option CheckpointRow) : Except String (Option CheckpointRow) :=
  match checkpoint.filter fun _ => changed with
  | none => .ok checkpoint
  | some row =>
    if isInteger (row.checkpointGeneration + 1) then
      .ok (some { row with checkpointGeneration := row.checkpointGeneration + 1 })
    else .error "integer out of range"

def observeTurn (rows : TurnRows) (row : OperationObservation) : Except String TurnRows := do
  let checkpoint ← nextCheckpoint (rows.units.rows.any fun unitRow => concerns row unitRow.unit) rows.checkpoint
  return ⟨checkpoint,
    rows.units.update (fun unitRow => concerns row unitRow.unit) (observeRow row) (unitKey_observeRow row)⟩

def recordProcessObservation : Except String (ObservationResult × Store Json) :=
  match operationFor store world input with
  | none => .ok (.missing, store)
  | some (operation, assignment) =>
    if !recordable world operation assignment input then .ok (.fenced, store)
    else if !isText input.observation.processId || input.observation.processId = "" then .error "invalid process id"
    else
      match store.observations.find (input.operation, input.observation.processId) with
      | some existing =>
        .ok (if existing.observation = input.observation then .duplicate else .fenced, store)
      | none => do
        let observations :=
          (store.observations.insert ⟨input.operation, input.observation.processId, input.observation⟩).getD
            store.observations
        let rows ← observeTurn (store.turns operation.turnId)
          ⟨operation.operationKey, operation.toolCallId, input.observation⟩
        return (.recorded, ⟨store.operations, observations, Function.update store.turns operation.turnId rows⟩)

end

def withUnits (change : ProjectionChange) (units : List TranscriptUnit.Unit) : ProjectionChange :=
  match change with
  | .projectionSnapshot baseRevision revision checkpoint _ hasOlder state =>
    .projectionSnapshot baseRevision revision checkpoint units hasOlder state
  | .projectionPatch baseRevision revision checkpoint _ remove state =>
    .projectionPatch baseRevision revision checkpoint units remove state

/-- `commitProjection`, which validates the units of the change and stores them overlaid. -/
def commitProjection (store : Store Json) (order : RowOrder) (turnId : String) (change : ProjectionChange)
    (withinTransaction : WithinTransaction) : Except String (CommitResult × Store Json) := do
  let _ ← TranscriptStore.Sql.validateUnits turnId change.changedUnits
  let units := overlayProcessObservations (order.sort (turnObservations store turnId)) change.changedUnits
  let (result, rows) ← TranscriptStore.Sql.transaction (store.turns turnId) (withUnits change units) withinTransaction
  return (result, { store with turns := Function.update store.turns turnId rows })

inductive Event (Json : Type)
  | commitProjection (order : RowOrder) (turnId : String) (change : ProjectionChange)
      (withinTransaction : WithinTransaction)
  | recordProcessObservation (world : World Json) (input : ProcessObservationInput)
  | operation (request : ExecutorOperations.Request Json)

variable [DecidableEq Json]

def Store.step (store : Store Json) : Event Json → Store Json
  | .commitProjection order turnId change withinTransaction =>
    match ProcessObservations.commitProjection store order turnId change withinTransaction with
    | .error _ => store
    | .ok (_, store') => store'
  | .recordProcessObservation world input =>
    match ProcessObservations.recordProcessObservation store world input with
    | .error _ => store
    | .ok (_, store') => store'
  | .operation request => { store with operations := store.operations.next request }

abbrev Projected := String → Table UnitRow.unitKey

/-- The last projection after an event: that of a change which is committed, with its units as
they are. -/
def projectedBy (store : Store Json) (projected : Projected) : Event Json → Projected
  | .commitProjection order turnId change withinTransaction =>
    match ProcessObservations.commitProjection store order turnId change withinTransaction with
    | .ok (.committed, _) =>
      match TranscriptStore.Sql.writeUnits (projected turnId)
          (TranscriptStore.Sql.replacingOlderProjection (store.turns turnId).checkpoint) change with
      | .ok units => Function.update projected turnId units
      | .error _ => projected
    | _ => projected
  | _ => projected

structure System (Json : Type) where
  store : Store Json
  projected : Projected

def System.step (system : System Json) (event : Event Json) : System Json :=
  ⟨system.store.step event, projectedBy system.store system.projected event⟩

def System.initial (turns : String → TurnRows) : System Json :=
  ⟨⟨.empty, .empty, turns⟩, fun turnId => (turns turnId).units⟩

def System.run (system : System Json) (events : List (Event Json)) : System Json := events.foldl System.step system

end Rika.ProcessObservations
