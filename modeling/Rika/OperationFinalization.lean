import Rika.ExecutorOperations

namespace Rika.ExecutorOperations

open Assignments (AssignmentRow)

variable {Json : Type}

def acceptedRow (around : Surroundings) (ownerId : String) (input : OperationIdentity) : OperationRow Json :=
  { input with
    ownerId
    state := .accepted
    startedAt := none
    dispatchedGeneration := none
    dispatchedLeaseEpoch := none
    dispatchedExecutorInstanceId := none
    dispatchedProcessIncarnation := none
    response := none
    terminalOutcome := none
    updatedAt := around.clock }

namespace OperationStore

variable (store : OperationStore Json) (around : Surroundings)

def upsertOperation (input : OperationIdentity) :
    Except HostedExecutionOperationsError (OperationStore Json × Option (OperationRow Json)) :=
  match around.assignments.find? fun assignment => assignment.id = input.assignmentId with
  | none => .ok (store, none)
  | some assignment =>
    let row : OperationRow Json := acceptedRow around assignment.ownerId input
    match row.violated with
    | some constraint => failure constraint
    | none =>
      match store.operations.insert row with
      | none => .ok (store, store.operations.find input.key)
      | some operations => .ok ({ store with operations }, some row)

inductive DispatchResult
  | claimed
  | sameFence
  | fenced
  | missing

structure DispatchInput where
  key : OperationKey
  threadId : String
  turnId : String
  workspaceId : String

section

variable (input : DispatchInput) (fence : DispatchFence) (sessionDigest : Option String)

def dispatchAssignment : Option AssignmentRow :=
  around.assignments.find? fun assignment =>
    assignment.id = input.key.assignmentId && assignment.lifecycle = .active &&
      assignment.capabilityGeneration = some assignment.generation &&
      assignment.generation = fence.assignmentGeneration && assignment.leaseEpoch = some fence.leaseEpoch &&
      (assignment.leaseExpiresAt.any fun expires => around.clock < expires) &&
      assignment.providerInstanceId = some fence.providerInstanceId &&
      assignment.executorInstanceId = some fence.executorInstanceId &&
      assignment.processIncarnation = some fence.processIncarnation &&
      (sessionDigest.all fun digest => assignment.sessionDigest = some digest) &&
      assignment.threadId = input.threadId &&
      around.capabilityAdmissions.any fun admission =>
        admission.assignmentId = assignment.id && admission.threadId = input.threadId &&
          admission.turnId = input.turnId && admission.workspaceId = input.workspaceId &&
          admission.assignmentGeneration = assignment.generation &&
          assignment.capabilitySnapshot.any fun snapshot =>
            around.environmentDigest snapshot = some admission.environmentDigest

def runnerAdmitted (assignment : AssignmentRow) (fence : DispatchFence) : Bool :=
  around.runnerAdmissions.any fun admission =>
    admission.assignmentId = assignment.id && admission.ownerId = assignment.ownerId &&
      admission.generation = fence.assignmentGeneration && admission.deviceId = fence.providerInstanceId &&
      admission.processIncarnation = some fence.processIncarnation && admission.consumedAt.isSome &&
      admission.revokedAt.isNone &&
      (around.registrations.any fun registration =>
        registration.clientId = admission.clientId && registration.deviceId = admission.deviceId &&
          registration.userId = admission.userId && registration.revokedAt.isNone) &&
      around.owners.any fun owner =>
        owner.id = admission.ownerId &&
          match owner.owner with
          | .personal userId => userId = admission.userId
          | .organization organizationId =>
            around.members.any fun member =>
              member.organizationId = organizationId && member.userId = admission.userId

def claimDispatch :
    Except HostedExecutionOperationsError (OperationStore Json × DispatchResult) := do
  match dispatchAssignment around input fence sessionDigest with
  | none => return (store, .fenced)
  | some assignment =>
    if assignment.executorKind = .runner && !runnerAdmitted around assignment fence then return (store, .fenced)
    else
      match store.operations.find input.key with
      | none => return (store, .missing)
      | some row =>
        match row.state with
        | .dispatched =>
          if row.dispatchedGeneration ≠ some fence.assignmentGeneration ||
              row.dispatchedExecutorInstanceId ≠ some fence.executorInstanceId ||
              row.dispatchedProcessIncarnation ≠ some fence.processIncarnation then
            return (store, .fenced)
          else if row.dispatchedLeaseEpoch ≠ some fence.leaseEpoch then
            let (store, _) ← store.update input.key
              (fun row =>
                row.state = .dispatched && row.dispatchedGeneration = some fence.assignmentGeneration &&
                  row.dispatchedExecutorInstanceId = some fence.executorInstanceId &&
                  row.dispatchedProcessIncarnation = some fence.processIncarnation)
              fun row =>
                { row with
                  dispatchedLeaseEpoch := some fence.leaseEpoch
                  updatedAt := around.clock }
            return (store, .sameFence)
          else return (store, .sameFence)
        | .accepted =>
          let (store, updated) ← store.update input.key (fun row => row.state = .accepted)
            fun row =>
              { row with
                state := .dispatched
                dispatchedGeneration := some fence.assignmentGeneration
                dispatchedLeaseEpoch := some fence.leaseEpoch
                dispatchedExecutorInstanceId := some fence.executorInstanceId
                dispatchedProcessIncarnation := some fence.processIncarnation
                updatedAt := around.clock }
          return (store, if updated then .claimed else .fenced)
        | .completed | .unknown => return (store, .fenced)

end

inductive AppendFrameResult
  | appended
  | duplicate
  | alreadyTerminal
  | invalidSequence

section Json

variable [DecidableEq Json]

def appendFrame (assignmentId : String) (frame : ToolOperationLifecycleFrame Json) :
    Except HostedExecutionOperationsError (OperationStore Json × AppendFrameResult) := do
  let key : OperationKey := ⟨assignmentId, frame.attribution.operationKey, frame.attribution.attempt⟩
  match store.operations.find key with
  | none => return (store, .invalidSequence)
  | some operation =>
    if !attributionMatches operation.toOperationIdentity frame then return (store, .invalidSequence)
    else
      match (store.readFrames key).find? fun known => known.cursor = frame.cursor with
      | some existing => return (store, if existing = frame then .duplicate else .invalidSequence)
      | none =>
        if operation.state = .completed || operation.state = .unknown then return (store, .alreadyTerminal)
        else if operation.state ≠ .dispatched || !frameFollows (store.readFrames key) frame then
          return (store, .invalidSequence)
        else
          match store.frames.insert ⟨key, frame.cursor, frame⟩ with
          | none => failure "rika_hosted_executor_operation_frames_pkey"
          | some frames =>
            if frame.body.isStarted then
              let (store, _) ← OperationStore.update { store with frames } key (fun row => row.state = .dispatched)
                fun row =>
                  { row with
                    startedAt := some (row.startedAt.getD around.clock)
                    updatedAt := around.clock }
              return (store, .appended)
            else return ({ store with frames }, .appended)

def dispatchedUnder (fence : CompletionFence) (row : OperationRow Json) : Bool :=
  row.state = .dispatched && row.dispatchedGeneration = some fence.assignmentGeneration &&
    row.dispatchedLeaseEpoch = some fence.leaseEpoch &&
    row.dispatchedExecutorInstanceId = some fence.executorInstanceId &&
    row.dispatchedProcessIncarnation = some fence.processIncarnation

def settled (state : OperationState) (response : ToolOperationResponse Json) (outcome : ToolOperationTerminalOutcome)
    (row : OperationRow Json) : OperationRow Json :=
  { row with
    state := state
    response := some response
    terminalOutcome := some outcome
    updatedAt := around.clock }

def complete (key : OperationKey) (fence : CompletionFence) (response : ToolOperationResponse Json)
    (outcome : ToolOperationTerminalOutcome) : Except HostedExecutionOperationsError (OperationStore Json × Bool) :=
  store.update key (dispatchedUnder fence)
    (settled around (if outcome = .unknown then .unknown else .completed) response outcome)

inductive FinalState
  | completed
  | unknown
deriving DecidableEq

def FinalState.toState : FinalState → OperationState
  | .completed => .completed
  | .unknown => .unknown

structure FinalizeOperationInput (Json : Type) where
  key : OperationKey
  response : ToolOperationResponse Json
  state : FinalState
  completionFence : Option CompletionFence
  expectedFence : Option CompletionFence

structure FinalizedOperation (Json : Type) where
  response : ToolOperationResponse Json
  outcome : ToolOperationTerminalOutcome
  commandSequence : Nat
  fence : CompletionFence
deriving DecidableEq

inductive FinalizeOperationResult (Json : Type)
  | finalized (operation : FinalizedOperation Json)
  | alreadyTerminal (response : ToolOperationResponse Json) (outcome : ToolOperationTerminalOutcome)
  | missing
  | notDispatched
  | incompleteFence
  | completionFenceMismatch
  | expectedFenceMismatch
  | responseConflict
deriving DecidableEq

def completionFenceMatches (expected : Option CompletionFence) (actual : CompletionFence) : Bool :=
  expected.any fun expected =>
    expected.assignmentGeneration = actual.assignmentGeneration &&
      expected.executorInstanceId = actual.executorInstanceId &&
      expected.processIncarnation = actual.processIncarnation

def existingResult (row : OperationRow Json) (input : FinalizeOperationInput Json) :
    Except HostedExecutionOperationsError (FinalizeOperationResult Json) :=
  match row.response, row.terminalOutcome with
  | some previous, some outcome =>
    if previous ≠ input.response && input.state ≠ .unknown && row.state ≠ .unknown then .ok .responseConflict
    else .ok (.alreadyTerminal previous outcome)
  | _, _ => failure "Terminal operation is incomplete"

structure Resolved (Json : Type) where
  response : ToolOperationResponse Json
  outcome : ToolOperationTerminalOutcome
  state : FinalState
  expected : CompletionFence

/-- The response and the outcome of the terminal frame, if there is one, and
else the response of the input with the outcome unknown. -/
def resolveFinalization (terminal : Option (ToolOperationTerminalOutcome × ToolOperationResponse Json))
    (input : FinalizeOperationInput Json) (fence : CompletionFence) : FinalizeOperationResult Json ⊕ Resolved Json :=
  if input.state = .completed && terminal.any fun terminal => terminal.2 ≠ input.response then .inl .responseConflict
  else
    let response := (terminal.map (·.2)).getD input.response
    let outcome := (terminal.map (·.1)).getD .unknown
    let state : FinalState :=
      match terminal with
      | none => input.state
      | some (outcome, _) => if outcome = .unknown then .unknown else .completed
    if state = .completed && terminal.isNone && !completionFenceMatches input.completionFence fence then
      .inl .completionFenceMismatch
    else
      let expected := input.expectedFence.getD fence
      if expected ≠ fence then .inl .expectedFenceMismatch else .inr ⟨response, outcome, state, expected⟩

def commandSequence (row : OperationRow Json) : Option Nat :=
  (around.commands.find? fun command => command.threadId = row.threadId && command.turnId = some row.turnId).map
    (·.threadVersion)

/-- The transaction; `onFinalize` runs once it has committed. -/
def finalizeOperation (input : FinalizeOperationInput Json) :
    Except HostedExecutionOperationsError (OperationStore Json × FinalizeOperationResult Json) := do
  match store.operations.find input.key with
  | none => return (store, .missing)
  | some row =>
    if row.state = .completed || row.state = .unknown then return (store, ← existingResult row input)
    else if row.state ≠ .dispatched then return (store, .notDispatched)
    else
      match row.dispatchedFence with
      | none => return (store, .incompleteFence)
      | some fence =>
        match resolveFinalization (store.terminalFrame input.key) input fence with
        | .inl result => return (store, result)
        | .inr resolved =>
          let (store', updated) ← store.update input.key (dispatchedUnder resolved.expected)
            (settled around resolved.state.toState resolved.response resolved.outcome)
          if !updated then return (store, .expectedFenceMismatch)
          else
            match commandSequence around row with
            | none => failure "Runner command is unavailable"
            | some sequence =>
              return (store', .finalized ⟨resolved.response, resolved.outcome, sequence, fence⟩)

end Json

inductive TerminalizeOutcome
  | failed
  | cancelled

def TerminalizeOutcome.toOutcome : TerminalizeOutcome → ToolOperationTerminalOutcome
  | .failed => .failed
  | .cancelled => .cancelled

structure TerminalizedOperation (Json : Type) where
  operation : OperationRow Json
  commandSequence : Nat
  assignmentGeneration : Nat
  leaseEpoch : Nat

/-- `onTerminalize` runs in the transaction, and its failure rolls back. -/
def terminalizeAccepted (key : OperationKey) (response : ToolOperationResponse Json) (outcome : TerminalizeOutcome)
    (onTerminalize : TerminalizedOperation Json → Except HostedExecutionOperationsError Unit) :
    Except HostedExecutionOperationsError (OperationStore Json × Option (TerminalizedOperation Json)) := do
  match store.operations.find key with
  | none => return (store, none)
  | some row =>
    if row.state ≠ .accepted then return (store, none)
    else
      let (store', updated) ← store.update key (fun row => row.state = .accepted)
        (settled around .completed response outcome.toOutcome)
      if !updated then return (store, none)
      else
        match commandSequence around row,
            around.assignments.find? fun assignment => assignment.id = key.assignmentId with
        | some sequence, some assignment =>
          match assignment.leaseEpoch with
          | some leaseEpoch =>
            let result : TerminalizedOperation Json :=
              ⟨settled around .completed response outcome.toOutcome row, sequence, assignment.generation, leaseEpoch⟩
            onTerminalize result
            return (store', some result)
          | none => failure "Runner deadline authority is unavailable"
        | _, _ => failure "Runner deadline authority is unavailable"

end OperationStore

end Rika.ExecutorOperations
