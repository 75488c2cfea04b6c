import Rika.AssignmentRow
import Rika.StableSort

namespace Rika.ExecutorOperations

open Assignments (AssignmentRow WorkspaceCapabilitySnapshot Millis)

structure HostedExecutionOperationsError where
  message : String

def failure {α : Type} (cause : String) : Except HostedExecutionOperationsError α :=
  .error ⟨s!"Execution persistence failed: {cause}"⟩

inductive ToolOperationResponse (Json : Type)
  | success (result : Json)
  | domainFailure (failure : Json)
  | suspend (token : String)
deriving DecidableEq

inductive ToolOperationTerminalOutcome
  | completed
  | failed
  | cancelled
  | unknown
deriving DecidableEq

structure ToolOperationAttribution where
  operationKey : String
  workspaceId : String
  sessionId : String
  threadId : String
  turnId : String
  runId : String
  rootRunId : String
  toolCallId : String
  attempt : Nat
deriving DecidableEq

inductive OutputStream
  | stdout
  | stderr
deriving DecidableEq

inductive FrameBody (Json : Type)
  | accepted
  | started
  | output (stream : OutputStream) (text : String) (truncated : Bool)
  | terminal (outcome : ToolOperationTerminalOutcome) (response : ToolOperationResponse Json)
deriving DecidableEq

structure ToolOperationLifecycleFrame (Json : Type) where
  attribution : ToolOperationAttribution
  cursor : Nat
  body : FrameBody Json
deriving DecidableEq

inductive ReplayPolicy
  | pure
  | providerIdempotent
  | never

structure OperationKey where
  assignmentId : String
  operationKey : String
  attempt : Nat
deriving DecidableEq

structure OperationIdentity where
  assignmentId : String
  operationKey : String
  requestDigest : String
  workspaceId : String
  sessionId : String
  threadId : String
  turnId : String
  runId : String
  rootRunId : String
  toolCallId : String
  code : String
  attempt : Nat
  replayPolicy : ReplayPolicy
  admittedAt : Option String
  deadlineAt : Millis

def OperationIdentity.key (input : OperationIdentity) : OperationKey :=
  ⟨input.assignmentId, input.operationKey, input.attempt⟩

inductive OperationState
  | accepted
  | dispatched
  | completed
  | unknown
deriving DecidableEq

structure CompletionFence where
  assignmentGeneration : Nat
  leaseEpoch : Nat
  executorInstanceId : String
  processIncarnation : String
deriving DecidableEq

structure DispatchFence extends CompletionFence where
  providerInstanceId : String

/-- A row of `rika_hosted_executor_operations`. -/
structure OperationRow (Json : Type) extends OperationIdentity where
  ownerId : String
  state : OperationState
  startedAt : Option Millis
  dispatchedGeneration : Option Nat
  dispatchedLeaseEpoch : Option Nat
  dispatchedExecutorInstanceId : Option String
  dispatchedProcessIncarnation : Option String
  response : Option (ToolOperationResponse Json)
  terminalOutcome : Option ToolOperationTerminalOutcome
  updatedAt : Millis

/-- A row of `rika_hosted_executor_operation_frames`; its kind is the frame's. -/
structure FrameRow (Json : Type) where
  operation : OperationKey
  cursor : Nat
  frame : ToolOperationLifecycleFrame Json

variable {Json : Type}

def OperationRow.key (row : OperationRow Json) : OperationKey := row.toOperationIdentity.key

def FrameRow.key (row : FrameRow Json) : OperationKey × Nat := (row.operation, row.cursor)

structure OperationStore (Json : Type) where
  operations : Table (@OperationRow.key Json)
  frames : Table (@FrameRow.key Json)

structure CapabilityAdmission where
  threadId : String
  turnId : String
  assignmentId : String
  workspaceId : String
  assignmentGeneration : Nat
  environmentDigest : String

structure RunnerAdmission where
  assignmentId : String
  ownerId : String
  generation : Nat
  deviceId : String
  clientId : String
  userId : String
  processIncarnation : Option String
  consumedAt : Option Millis
  revokedAt : Option Millis

structure CliRegistration where
  clientId : String
  deviceId : String
  userId : String
  revokedAt : Option Millis

inductive HostedOwner
  | personal (userId : String)
  | organization (organizationId : String)

structure OwnerRow where
  id : String
  owner : HostedOwner

structure IdentityMember where
  organizationId : String
  userId : String

structure ThreadProtocolCommand where
  threadId : String
  turnId : Option String
  threadVersion : Nat

/-- What the transactions read beside the two tables, as it is at a call. -/
structure Surroundings where
  clock : Millis
  assignments : List AssignmentRow
  environmentDigest : WorkspaceCapabilitySnapshot → Option String
  capabilityAdmissions : List CapabilityAdmission
  runnerAdmissions : List RunnerAdmission
  registrations : List CliRegistration
  owners : List OwnerRow
  members : List IdentityMember
  commands : List ThreadProtocolCommand

namespace OperationRow

variable (row : OperationRow Json)

/-- `rika_hosted_executor_operations_check`: a terminal state has a response
and an outcome, which is unknown in the state unknown only. -/
def outcomeCheck : Bool :=
  match row.state with
  | .accepted | .dispatched => row.response.isNone && row.terminalOutcome.isNone
  | .completed => row.response.isSome && row.terminalOutcome.all (· ≠ .unknown)
  | .unknown => row.response.isSome && row.terminalOutcome.all (· = .unknown)

def fenceCheck : Bool :=
  (row.state ≠ .dispatched && row.state ≠ .unknown) ||
    row.dispatchedGeneration.isSome && row.dispatchedLeaseEpoch.isSome && row.dispatchedExecutorInstanceId.isSome &&
      row.dispatchedProcessIncarnation.isSome

def identityCheck : Bool :=
  [row.workspaceId, row.sessionId, row.threadId, row.turnId, row.runId, row.rootRunId, row.toolCallId].all
    fun id => 0 < id.length

def violated : Option String :=
  if !row.outcomeCheck then some "rika_hosted_executor_operations_check"
  else if !row.fenceCheck then some "rika_hosted_executor_operations_check2"
  else if !row.identityCheck then some "rika_hosted_executor_operations_id_check"
  else none

/-- `dispatchedFence`. -/
def dispatchedFence : Option CompletionFence := do
  let assignmentGeneration ← row.dispatchedGeneration
  let leaseEpoch ← row.dispatchedLeaseEpoch
  let executorInstanceId ← row.dispatchedExecutorInstanceId
  let processIncarnation ← row.dispatchedProcessIncarnation
  return ⟨assignmentGeneration, leaseEpoch, executorInstanceId, processIncarnation⟩

end OperationRow

namespace FrameBody

def isAccepted : FrameBody Json → Bool
  | .accepted => true
  | _ => false

def isStarted : FrameBody Json → Bool
  | .started => true
  | _ => false

def isOutput : FrameBody Json → Bool
  | .output .. => true
  | _ => false

def isTerminal : FrameBody Json → Bool
  | .terminal .. => true
  | _ => false

end FrameBody

namespace OperationStore

section

variable (store : OperationStore Json) (key : OperationKey)

/-- `UPDATE rika_hosted_executor_operations SET values WHERE key AND p`, and
whether it updated a row. -/
def update (p : OperationRow Json → Bool) (values : OperationRow Json → OperationRow Json) :
    Except HostedExecutionOperationsError (OperationStore Json × Bool) :=
  match (store.operations.find key).filter p with
  | none => .ok (store, false)
  | some row =>
    match (values row).violated with
    | some constraint => failure constraint
    | none =>
      .ok
        ({ store with
          operations :=
            store.operations.update (fun row => row.key = key)
              fun row => { values row with toOperationIdentity := row.toOperationIdentity } },
          true)

def readFrames : List (ToolOperationLifecycleFrame Json) :=
  (StableSort.toSorted (fun left right => compare left.cursor right.cursor)
    (store.frames.select fun row => row.operation = key)).map (·.frame)

/-- The row of kind `Terminal`, which a unique index allows once. -/
def terminalFrame : Option (ToolOperationTerminalOutcome × ToolOperationResponse Json) :=
  (store.frames.select fun row => row.operation = key).findSome? fun row =>
    match row.frame.body with
    | .terminal outcome response => some (outcome, response)
    | _ => none

end

end OperationStore

def attributionMatches (operation : OperationIdentity) (frame : ToolOperationLifecycleFrame Json) : Bool :=
  operation.workspaceId = frame.attribution.workspaceId && operation.sessionId = frame.attribution.sessionId &&
    operation.threadId = frame.attribution.threadId && operation.turnId = frame.attribution.turnId &&
    operation.runId = frame.attribution.runId && operation.rootRunId = frame.attribution.rootRunId &&
    operation.toolCallId = frame.attribution.toolCallId

def frameFollows (known : List (ToolOperationLifecycleFrame Json)) (frame : ToolOperationLifecycleFrame Json) : Bool :=
  if frame.cursor ≠ known.length + 1 || known.any (·.body.isTerminal) then false
  else if frame.cursor = 1 then frame.body.isAccepted
  else if frame.cursor = 2 then frame.body.isStarted
  else if !frame.body.isOutput && !frame.body.isTerminal then false
  else !frame.body.isOutput || (known.filter (·.body.isOutput)).length < 16

end Rika.ExecutorOperations
