import Mathlib.Data.List.Basic

namespace Rika

inductive WorkspacePlacement
  | runner (checkoutFingerprint workspaceId : String)
  | orb (workspaceId lineageId : String)
deriving DecidableEq

structure WorkspaceBinding where
  workspaceId : String
  assignmentId : String
  generation : Nat
  placement : WorkspacePlacement
  buildId : String
  protocolVersion : Nat
deriving DecidableEq

abbrev HandshakeEvidence := WorkspaceBinding

inductive FenceReason
  | workspace
  | assignment
  | generation
  | placement
  | build
  | protocol
  | operation
  | input
deriving DecidableEq

namespace WorkspacePlacement

def workspaceId : WorkspacePlacement → String
  | .runner _ workspaceId | .orb workspaceId _ => workspaceId

def placementEqual : WorkspacePlacement → WorkspacePlacement → Bool
  | .runner checkoutFingerprint workspaceId, .runner checkoutFingerprint' workspaceId' =>
    workspaceId = workspaceId' && checkoutFingerprint = checkoutFingerprint'
  | .orb workspaceId lineageId, .orb workspaceId' lineageId' => workspaceId = workspaceId' && lineageId = lineageId'
  | _, _ => false

end WorkspacePlacement

namespace WorkspaceBinding

variable (binding left right : WorkspaceBinding)

def placementMatchesWorkspace : Bool := binding.workspaceId = binding.placement.workspaceId

def sameWorkspacePolicy : Bool :=
  left.placementMatchesWorkspace && right.placementMatchesWorkspace && left.workspaceId = right.workspaceId &&
    left.buildId = right.buildId && left.protocolVersion = right.protocolVersion &&
    left.placement.placementEqual right.placement

def sameBinding : Bool :=
  left.sameWorkspacePolicy right && left.assignmentId = right.assignmentId && left.generation = right.generation

def sameEvidence (evidence : HandshakeEvidence) : Bool :=
  binding.workspaceId = evidence.workspaceId && binding.assignmentId = evidence.assignmentId &&
    binding.generation = evidence.generation && binding.placement.placementEqual evidence.placement &&
    binding.buildId = evidence.buildId && binding.protocolVersion = evidence.protocolVersion

def bindingMismatchReason (evidence : HandshakeEvidence) : Option FenceReason :=
  if binding.workspaceId ≠ evidence.workspaceId then some .workspace
  else if binding.assignmentId ≠ evidence.assignmentId then some .assignment
  else if binding.generation ≠ evidence.generation then some .generation
  else if ¬binding.placement.placementEqual evidence.placement then some .placement
  else if binding.buildId ≠ evidence.buildId then some .build
  else if binding.protocolVersion ≠ evidence.protocolVersion then some .protocol
  else none

end WorkspaceBinding

inductive FailureCategory
  | invalidInput
  | notFound
  | conflict
  | accessDenied
  | dependencyUnavailable
  | rateLimited
  | timeout
  | operation
deriving DecidableEq

inductive Recovery
  | never
  | afterChange
  | later
deriving DecidableEq

inductive FailureKind
  | operation
  | timeout
deriving DecidableEq

inductive OutcomeKnown
  | known
  | unknown
deriving DecidableEq

structure ToolFailure where
  tool : String
  message : String
  kind : FailureKind
  category : FailureCategory
  outcome : OutcomeKnown
  recovery : Recovery
  nextAction : String
deriving DecidableEq

inductive FailureValue
  | tool (failure : ToolFailure)
  | reader (encoded : String)
deriving DecidableEq

structure NativeOperationIntent where
  operationId : String
  tool : String
  inputDigest : String
  binding : WorkspaceBinding
deriving DecidableEq

inductive Outcome
  | accepted
  | completed (result : String)
  | domainFailure (failure : FailureValue)
  | unknown (reason : String)
deriving DecidableEq

inductive EvidenceSource
  | dispatch
  | reconnectCache
deriving DecidableEq

structure ExecutorEvidence where
  operationId : String
  inputDigest : String
  binding : HandshakeEvidence
  source : EvidenceSource
  outcome : Outcome
deriving DecidableEq

inductive DispatchPhase
  | handshake
  | beforeDispatch
  | afterDispatch
  | receipt
  | cancel
  | connection
  | reconnect
deriving DecidableEq

inductive ExecutorError
  | transport (phase : DispatchPhase) (message : String)
  | fence (reason : FenceReason) (message : String)
deriving DecidableEq

structure CanonicalResult where
  operationId : String
  binding : WorkspaceBinding
  outcome : Outcome
deriving DecidableEq

def canonicalFromEvidence (intent : NativeOperationIntent) (evidence : ExecutorEvidence) : CanonicalResult where
  operationId := intent.operationId
  binding := intent.binding
  outcome := evidence.outcome

def evidenceFor (intent : NativeOperationIntent) (outcome : Outcome) (source : EvidenceSource := .dispatch) :
    ExecutorEvidence where
  operationId := intent.operationId
  inputDigest := intent.inputDigest
  binding := intent.binding
  source
  outcome

inductive ExecutorCancellation
  | cancelled
  | alreadyTerminal (result : CanonicalResult)

end Rika
