import Rika.DoubleText
import Rika.Fold
import Rika.Table

namespace Rika.Assignments

inductive AssignmentFailureReason
  | authentication
  | conflict
  | database
  | invalidAuthority
  | invalidState
  | notFound
  | staleFence
deriving DecidableEq

structure AssignmentError where
  reason : AssignmentFailureReason
  message : String

def failure {α : Type} (reason : AssignmentFailureReason) (message : String) : Except AssignmentError α :=
  .error ⟨reason, message⟩

def databaseError {α : Type} (cause : String) : Except AssignmentError α :=
  failure .database s!"Executor assignment database operation failed: {cause}"

abbrev Millis := Int

/-- `transaction_timestamp()`, and `clock_timestamp()` once the row is locked. -/
structure Clock where
  transaction : Millis
  clock : Millis

inductive ExecutorKind
  | runner
  | orb
deriving DecidableEq

structure RunnerPlacement where
  deviceId : String
  checkoutFingerprint : String
  requestingDeviceId : String
deriving DecidableEq

/-- What a stored placement may hold beside the fields of `OrbPlacement`. -/
structure OrbPlacementPolicy where
  buildId : String
  protocolVersion : Nat
  lineageId : String
deriving DecidableEq

structure OrbPlacement where
  templateBuildId : String
  providerScope : String
  policy : Option OrbPlacementPolicy
deriving DecidableEq

inductive ExecutorPlacement
  | runnerPlacement (placement : RunnerPlacement)
  | orbPlacement (placement : OrbPlacement)
deriving DecidableEq

def ExecutorPlacement.kind : ExecutorPlacement → ExecutorKind
  | .runnerPlacement _ => .runner
  | .orbPlacement _ => .orb

/-- `repository` is what the Project authorizes, `commit` the rest. -/
structure RepositoryCheckout where
  ownerId : String
  repository : String
  commit : String
deriving DecidableEq

abbrev WorkspaceSeed := String

abbrev WorkspaceCapabilitySnapshot := String

structure ExecutorCursor where
  sequence : Nat
  value : String
deriving DecidableEq

inductive Lifecycle
  | pending
  | provisioning
  | awaitingBootstrap
  | active
  | paused
  | terminated
deriving DecidableEq

/-- A row of `rika_hosted_executor_assignments`. -/
structure AssignmentRow where
  id : String
  ownerId : String
  threadId : String
  workspaceId : String
  executorKind : ExecutorKind
  placement : ExecutorPlacement
  checkout : Option RepositoryCheckout
  workspaceSeed : Option WorkspaceSeed
  generation : Nat
  revision : Nat
  lastLeaseEpoch : Nat
  lifecycle : Lifecycle
  capabilityGeneration : Option Nat
  capabilitySnapshot : Option WorkspaceCapabilitySnapshot
  providerInstanceId : Option String
  bootstrapDigest : Option String
  bootstrapExpiresAt : Option Millis
  executorInstanceId : Option String
  processIncarnation : Option String
  sessionDigest : Option String
  leaseEpoch : Option Nat
  leaseExpiresAt : Option Millis
  cursor : ExecutorCursor
  latestCheckpointId : Option String
  lastActiveAt : Millis
  createdAt : Millis
  updatedAt : Millis

/-- `coalesce(.. > clock_timestamp(), false)`. -/
def live (expires : Option Millis) (now : Clock) : Bool := expires.any fun expires => now.clock < expires

/-- A row of `rika_hosted_checkpoints`, which is a `WorkspaceCheckpointManifest` too. -/
structure CheckpointRow where
  id : String
  ownerId : String
  threadId : String
  assignmentId : String
  executorInstanceId : String
  assignmentGeneration : Nat
  leaseEpoch : Nat
  objectKey : String
  contentDigest : String
  sizeBytes : Nat
  format : String
  cursor : ExecutorCursor
  metadata : String
  verifiedAt : Millis

inductive AssignmentLifecycle
  | pending
  | provisioning (providerInstanceId : Option String) (bootstrapExpiresAt : Millis)
  | awaitingBootstrap (providerInstanceId : String) (bootstrapExpiresAt : Millis)
  | active (providerInstanceId executorInstanceId processIncarnation : String) (leaseEpoch : Nat)
      (leaseExpiresAt : Millis)
  | paused (providerInstanceId : String)
  | terminated

structure ExecutorAssignment where
  id : String
  ownerId : String
  threadId : String
  workspaceId : String
  executorKind : ExecutorKind
  placement : ExecutorPlacement
  checkout : Option RepositoryCheckout
  workspaceSeed : Option WorkspaceSeed
  generation : Nat
  revision : Nat
  lastLeaseEpoch : Nat
  lifecycle : AssignmentLifecycle
  capabilityGeneration : Option Nat
  capabilities : Option WorkspaceCapabilitySnapshot
  cursor : ExecutorCursor
  latestCheckpointId : Option String
  lastActiveAt : Millis
  createdAt : Millis
  updatedAt : Millis

def opaqueId (longest : Nat) (id : String) : Bool :=
  0 < id.length && id.length ≤ longest && id.toList.all fun c => 0x21 ≤ c.toNat && c.toNat ≤ 0x7e

section

variable (row : AssignmentRow)

def decodeLifecycle : Option AssignmentLifecycle := do
  match row.lifecycle with
  | .pending => some .pending
  | .provisioning =>
    guard (row.providerInstanceId.all (opaqueId 512))
    some (.provisioning row.providerInstanceId (← row.bootstrapExpiresAt))
  | .awaitingBootstrap =>
    let providerInstanceId ← row.providerInstanceId
    guard (opaqueId 512 providerInstanceId)
    some (.awaitingBootstrap providerInstanceId (← row.bootstrapExpiresAt))
  | .active =>
    let providerInstanceId ← row.providerInstanceId
    guard (opaqueId 512 providerInstanceId)
    let executorInstanceId ← row.executorInstanceId
    guard (opaqueId 255 executorInstanceId)
    let processIncarnation ← row.processIncarnation
    guard (opaqueId 512 processIncarnation)
    some (.active providerInstanceId executorInstanceId processIncarnation (← row.leaseEpoch) (← row.leaseExpiresAt))
  | .paused =>
    let providerInstanceId ← row.providerInstanceId
    guard (opaqueId 512 providerInstanceId)
    some (.paused providerInstanceId)
  | .terminated => some .terminated

/-- The placement without what `ExecutorPlacement` does not know. -/
def decodePlacement : ExecutorPlacement → ExecutorPlacement
  | .runnerPlacement placement => .runnerPlacement placement
  | .orbPlacement placement => .orbPlacement { placement with policy := none }

def assignmentIssue : Option String :=
  if row.placement.kind ≠ row.executorKind then some "placement must match executor kind"
  else if row.checkout.any fun checkout => row.executorKind ≠ .orb || checkout.ownerId ≠ row.ownerId then
    some "repository checkout must match its remote assignment owner"
  else if row.workspaceSeed.isSome && row.executorKind ≠ .orb then some "Workspace seed requires an Orb assignment"
  else if !(row.capabilityGeneration.isNone && row.capabilitySnapshot.isNone ||
      row.capabilityGeneration = some row.generation && row.capabilitySnapshot.isSome) then
    some "capability snapshot must match the assignment generation"
  else none

def decodeAssignment : Except AssignmentError ExecutorAssignment :=
  match decodeLifecycle row with
  | none => databaseError "lifecycle"
  | some lifecycle =>
    match assignmentIssue row with
    | some issue => databaseError issue
    | none =>
      .ok
        { id := row.id
          ownerId := row.ownerId
          threadId := row.threadId
          workspaceId := row.workspaceId
          executorKind := row.executorKind
          placement := decodePlacement row.placement
          checkout := row.checkout
          workspaceSeed := row.workspaceSeed
          generation := row.generation
          revision := row.revision
          lastLeaseEpoch := row.lastLeaseEpoch
          lifecycle := lifecycle
          capabilityGeneration := row.capabilityGeneration
          capabilities := row.capabilitySnapshot
          cursor := row.cursor
          latestCheckpointId := row.latestCheckpointId
          lastActiveAt := row.lastActiveAt
          createdAt := row.createdAt
          updatedAt := row.updatedAt }

/-- The largest `bigint`. -/
def maxBigint : Nat := 9223372036854775807

def shortLived : Millis := 300000

/-- A constraint of the table that the row breaks, among those that a write
of this store can break. -/
def violated : Option String :=
  if row.cursor.sequence > maxBigint then some "bigint out of range"
  else if row.placement.kind ≠ row.executorKind then some "rika_hosted_executor_assignments_check"
  else if !(row.capabilityGeneration.isNone && row.capabilitySnapshot.isNone ||
      row.capabilityGeneration = some row.generation && row.capabilitySnapshot.isSome) then
    some "rika_hosted_executor_assignments_capability_fence"
  else if row.checkout.any fun checkout => row.executorKind ≠ .orb || checkout.ownerId ≠ row.ownerId then
    some "rika_hosted_executor_assignments_checkout_check"
  else if row.workspaceSeed.isSome && row.executorKind ≠ .orb then
    some "rika_hosted_executor_assignments_workspace_seed_check"
  else if (row.bootstrapExpiresAt.any fun expires => row.updatedAt + shortLived < expires) ||
      row.leaseExpiresAt.any fun expires => row.updatedAt + shortLived < expires then
    some "rika_hosted_executor_credentials_short_lived"
  else none

end

def clearStaleAssignmentCapabilities (row row' : AssignmentRow) : AssignmentRow :=
  if row'.generation ≠ row.generation then { row' with capabilityGeneration := none, capabilitySnapshot := none }
  else row'

end Rika.Assignments
