import Rika.AssignmentRow
import Rika.StableSort

namespace Rika.Assignments

/-- A row of `rika_hosted_threads`, with the repository of its Project. -/
structure HostedThread where
  id : String
  ownerId : String
  workspaceId : String
  executorKind : ExecutorKind
  repository : Option String

structure BoxBinding where
  assignmentId : String
  generation : Nat
  boxId : String

def BoxBinding.key (binding : BoxBinding) : String × Nat := (binding.assignmentId, binding.generation)

structure AssignmentStore where
  collation : Collation
  threads : List HostedThread
  assignments : Table AssignmentRow.id
  checkpoints : Table CheckpointRow.id
  bindings : Table BoxBinding.key

structure Version where
  assignmentId : String
  generation : Nat
  revision : Nat

structure Fence where
  assignmentId : String
  assignmentGeneration : Nat
  leaseEpoch : Nat

structure Access extends Fence where
  providerInstanceId : String
  executorInstanceId : String
  processIncarnation : String
  presentedSessionCredentialDigest : String

def checkVersion (row : AssignmentRow) (input : Version) : Except AssignmentError Unit :=
  if row.generation = input.generation && row.revision = input.revision then .ok ()
  else failure .conflict "Executor assignment revision is stale"

def checkFence (row : AssignmentRow) (input : Fence) : Except AssignmentError Unit :=
  if row.lifecycle = .active && row.generation = input.assignmentGeneration && row.leaseEpoch = some input.leaseEpoch then
    .ok ()
  else failure .staleFence "Executor assignment fence is stale"

def checkAccess (now : Clock) (row : AssignmentRow) (input : Access) (requireLiveLease : Bool) :
    Except AssignmentError Unit := do
  checkFence row input.toFence
  if row.providerInstanceId ≠ some input.providerInstanceId || row.executorInstanceId ≠ some input.executorInstanceId ||
      row.processIncarnation ≠ some input.processIncarnation || requireLiveLease && !live row.leaseExpiresAt now then
    failure .staleFence "Executor assignment fence is stale"
  else if row.sessionDigest ≠ some input.presentedSessionCredentialDigest then
    failure .authentication "Executor session credential is invalid"
  else .ok ()

section

variable (store : AssignmentStore)

def locked (assignmentId : String) : Except AssignmentError AssignmentRow :=
  match store.assignments.find assignmentId with
  | none => failure .notFound "Executor assignment does not exist"
  | some row => .ok row

section

variable (assignmentId : String) (p : AssignmentRow → Bool) (values : AssignmentRow → AssignmentRow)

/-- `UPDATE rika_hosted_executor_assignments SET values WHERE id = assignmentId AND p`,
which is a conflict when no row was updated. -/
def updateAssignment : Except AssignmentError AssignmentStore :=
  match (store.assignments.find assignmentId).filter p with
  | none => failure .conflict "Executor assignment changed concurrently"
  | some row =>
    match violated (clearStaleAssignmentCapabilities row (values row)) with
    | some constraint => databaseError constraint
    | none =>
      .ok
        { store with
          assignments :=
            store.assignments.update (fun row => row.id = assignmentId)
              fun row => { clearStaleAssignmentCapabilities row (values row) with id := row.id } }

def updated : Except AssignmentError (AssignmentStore × ExecutorAssignment) := do
  let store ← updateAssignment store assignmentId p values
  let row ← locked store assignmentId
  return (store, ← decodeAssignment row)

end

def updateVersion (input : Version) (values : AssignmentRow → AssignmentRow) :
    Except AssignmentError (AssignmentStore × ExecutorAssignment) :=
  updated store input.assignmentId (fun row => row.generation = input.generation && row.revision = input.revision) values

def updateFence (input : Fence) (values : AssignmentRow → AssignmentRow) :
    Except AssignmentError (AssignmentStore × ExecutorAssignment) :=
  updated store input.assignmentId
    (fun row => row.generation = input.assignmentGeneration && row.leaseEpoch = some input.leaseEpoch) values

end

def AssignmentRow.withoutExecutor (row : AssignmentRow) : AssignmentRow :=
  { row with
    executorInstanceId := none
    processIncarnation := none
    sessionDigest := none
    leaseEpoch := none
    leaseExpiresAt := none }

structure ClaimOrphanInput where
  providerInstanceId : String
  assignmentId : Option String
  generation : Option Nat

inductive OrphanStatus
  | candidate
  | preserved

section

variable (store : AssignmentStore) (now : Clock) (input : ClaimOrphanInput)

def lockOrphanAuthority : OrphanStatus × Option AssignmentRow :=
  let rows := StableSort.toSorted (fun left right => store.collation.compare left.id right.id)
    (store.assignments.select fun row =>
      row.providerInstanceId = some input.providerInstanceId || some row.id = input.assignmentId)
  let bound := rows.find? fun row => row.providerInstanceId = some input.providerInstanceId
  let identified := rows.find? fun row => some row.id = input.assignmentId
  let matched := identified.filter fun row => some row.generation = input.generation
  match bound.or matched with
  | none => if identified.isNone then (.preserved, none) else (.candidate, none)
  | some row =>
    match row.lifecycle with
    | .active | .paused => if bound.isNone then (.candidate, none) else (.preserved, none)
    | .terminated => (.candidate, none)
    | .provisioning | .awaitingBootstrap =>
      if live row.bootstrapExpiresAt now then
        if row.providerInstanceId.isNone || bound.isSome then (.preserved, none) else (.candidate, none)
      else (.candidate, some row)
    | .pending => (.candidate, some row)

def inspectOrphan : OrphanStatus :=
  (lockOrphanAuthority store now input).1

end

inductive OrphanClaim
  | claimed
  | preserved

def AssignmentRow.retired (now : Clock) (row : AssignmentRow) : AssignmentRow :=
  { row.withoutExecutor with
    generation := row.generation + 1
    revision := row.revision + 1
    lastLeaseEpoch := 0
    lifecycle := .pending
    providerInstanceId := none
    bootstrapDigest := none
    bootstrapExpiresAt := none
    capabilityGeneration := none
    capabilitySnapshot := none
    updatedAt := now.transaction }

def claimOrphan (store : AssignmentStore) (now : Clock) (input : ClaimOrphanInput) :
    Except AssignmentError (AssignmentStore × OrphanClaim) := do
  match lockOrphanAuthority store now input with
  | (.preserved, _) => return (store, .preserved)
  | (.candidate, none) => return (store, .claimed)
  | (.candidate, some row) =>
    let store ← updateAssignment store row.id
      (fun current => current.generation = row.generation && current.revision = row.revision) (·.retired now)
    return (store, .claimed)

structure CreateInput where
  id : String
  ownerId : String
  threadId : String
  workspaceId : String
  placement : ExecutorPlacement
  checkout : Option RepositoryCheckout
  workspaceSeed : Option WorkspaceSeed

def createdRow (now : Clock) (input : CreateInput) : AssignmentRow where
  id := input.id
  ownerId := input.ownerId
  threadId := input.threadId
  workspaceId := input.workspaceId
  executorKind := input.placement.kind
  placement := input.placement
  checkout := input.checkout
  workspaceSeed := input.workspaceSeed
  generation := 1
  revision := 0
  lastLeaseEpoch := 0
  lifecycle := .pending
  capabilityGeneration := none
  capabilitySnapshot := none
  providerInstanceId := none
  bootstrapDigest := none
  bootstrapExpiresAt := none
  executorInstanceId := none
  processIncarnation := none
  sessionDigest := none
  leaseEpoch := none
  leaseExpiresAt := none
  cursor := ⟨0, ""⟩
  latestCheckpointId := none
  lastActiveAt := now.transaction
  createdAt := now.transaction
  updatedAt := now.transaction

/-- `rika_validate_assignment_checkout`, run before a row is inserted. -/
def validateCheckout (thread : HostedThread) (input : CreateInput) : Option String :=
  if input.placement.kind ≠ .orb then none
  else
    match thread.repository, input.checkout with
    | none, none => none
    | none, some _ => some "no-Project workspace cannot have a repository checkout"
    | some _, none => some "Project workspace requires a repository checkout"
    | some repository, some checkout =>
      if checkout.repository = repository then none
      else some "repository checkout does not match the authorized Project repository"

def create (store : AssignmentStore) (now : Clock) (input : CreateInput) :
    Except AssignmentError (AssignmentStore × ExecutorAssignment) := do
  match store.threads.find? fun thread => thread.id = input.threadId && thread.ownerId = input.ownerId with
  | none =>
    failure .invalidAuthority "Assignment workspace and placement must match the immutable Thread authority"
  | some thread =>
    if thread.executorKind ≠ input.placement.kind || thread.workspaceId ≠ input.workspaceId then
      failure .invalidAuthority "Assignment workspace and placement must match the immutable Thread authority"
    else
      match (validateCheckout thread input).or (violated (createdRow now input)) with
      | some constraint => databaseError constraint
      | none =>
        if store.assignments.rows.any fun row => row.threadId = input.threadId then
          failure .conflict "Thread already has an executor assignment"
        else
          match store.assignments.insert (createdRow now input) with
          | none => failure .conflict "Thread already has an executor assignment"
          | some assignments =>
            return ({ store with assignments }, ← decodeAssignment (createdRow now input))

structure BeginProvisioningInput extends Version where
  bootstrapCredentialDigest : String
  bootstrapLifetimeMillis : Millis

def AssignmentRow.provisioned (now : Clock) (input : BeginProvisioningInput) (row : AssignmentRow) : AssignmentRow :=
  { row.withoutExecutor with
    revision := row.revision + 1
    lifecycle := .provisioning
    providerInstanceId :=
      if row.lifecycle = .paused || row.lifecycle = .provisioning || row.lifecycle = .awaitingBootstrap then
        row.providerInstanceId
      else none
    bootstrapDigest := some input.bootstrapCredentialDigest
    bootstrapExpiresAt := some (now.transaction + input.bootstrapLifetimeMillis)
    updatedAt := now.transaction }

def beginProvisioning (store : AssignmentStore) (now : Clock) (input : BeginProvisioningInput) :
    Except AssignmentError (AssignmentStore × ExecutorAssignment) := do
  let row ← locked store input.assignmentId
  checkVersion row input.toVersion
  if row.lifecycle = .active || row.lifecycle = .terminated then
    failure .invalidState "Assignment cannot begin provisioning"
  else updateVersion store input.toVersion (·.provisioned now input)

structure BeginReplacementInput extends Version where
  placement : ExecutorPlacement
  bootstrapCredentialDigest : String
  bootstrapLifetimeMillis : Millis

def replacementIssue : ExecutorPlacement → ExecutorPlacement → Option String
  | .orbPlacement current, .orbPlacement placement =>
    if current.providerScope ≠ placement.providerScope then
      some "Replacement placement must preserve the Orb provider scope"
    else none
  | .runnerPlacement current, .runnerPlacement placement =>
    if current ≠ placement then some "Replacement placement must preserve the Runner authority" else none
  | _, _ => some "Replacement placement must preserve the Executor kind"

def AssignmentRow.replaced (now : Clock) (input : BeginReplacementInput) (row : AssignmentRow) : AssignmentRow :=
  { row.withoutExecutor with
    placement := input.placement
    generation := row.generation + 1
    revision := row.revision + 1
    lastLeaseEpoch := 0
    lifecycle := .provisioning
    providerInstanceId := none
    capabilityGeneration := none
    capabilitySnapshot := none
    bootstrapDigest := some input.bootstrapCredentialDigest
    bootstrapExpiresAt := some (now.transaction + input.bootstrapLifetimeMillis)
    updatedAt := now.transaction }

def beginReplacement (store : AssignmentStore) (now : Clock) (input : BeginReplacementInput) :
    Except AssignmentError (AssignmentStore × ExecutorAssignment) := do
  let row ← locked store input.assignmentId
  checkVersion row input.toVersion
  if row.lifecycle = .terminated then failure .invalidState "Assignment cannot be replaced"
  else
    let assignment ← decodeAssignment row
    match replacementIssue assignment.placement input.placement with
    | some issue => failure .invalidAuthority issue
    | none => updateVersion store input.toVersion (·.replaced now input)

structure BindProviderInstanceInput extends Version where
  providerInstanceId : String

def AssignmentRow.bound (now : Clock) (input : BindProviderInstanceInput) (row : AssignmentRow) : AssignmentRow :=
  { row with
    revision := row.revision + 1
    lifecycle := .awaitingBootstrap
    providerInstanceId := some input.providerInstanceId
    updatedAt := now.transaction }

def bindProviderInstance (store : AssignmentStore) (now : Clock) (input : BindProviderInstanceInput) :
    Except AssignmentError (AssignmentStore × ExecutorAssignment) := do
  let row ← locked store input.assignmentId
  checkVersion row input.toVersion
  if row.lifecycle ≠ .provisioning then failure .invalidState "Assignment is not provisioning"
  else if row.providerInstanceId.any fun bound => bound ≠ input.providerInstanceId then
    failure .conflict "Assignment is already bound to another provider instance"
  else updateVersion store input.toVersion (·.bound now input)

structure OpenSessionInput extends Version where
  providerInstanceId : String
  executorInstanceId : String
  processIncarnation : String
  capabilities : WorkspaceCapabilitySnapshot
  presentedBootstrapCredentialDigest : String
  sessionCredentialDigest : String
  leaseLifetimeMillis : Millis

def AssignmentRow.opened (now : Clock) (input : OpenSessionInput) (row : AssignmentRow) : AssignmentRow :=
  { row with
    revision := row.revision + 1
    lastLeaseEpoch := row.lastLeaseEpoch + 1
    lifecycle := .active
    bootstrapDigest := none
    bootstrapExpiresAt := none
    executorInstanceId := some input.executorInstanceId
    processIncarnation := some input.processIncarnation
    sessionDigest := some input.sessionCredentialDigest
    leaseEpoch := some (row.lastLeaseEpoch + 1)
    capabilityGeneration := some row.generation
    capabilitySnapshot := some input.capabilities
    leaseExpiresAt := some (now.transaction + input.leaseLifetimeMillis)
    lastActiveAt := now.transaction
    updatedAt := now.transaction }

def openSession (store : AssignmentStore) (now : Clock) (input : OpenSessionInput) :
    Except AssignmentError (AssignmentStore × ExecutorAssignment) := do
  let row ← locked store input.assignmentId
  checkVersion row input.toVersion
  if row.lifecycle ≠ .awaitingBootstrap || row.providerInstanceId ≠ some input.providerInstanceId then
    failure .staleFence "Executor bootstrap is invalid, expired, or consumed"
  else if row.bootstrapDigest ≠ some input.presentedBootstrapCredentialDigest then
    failure .authentication "Executor bootstrap credential is invalid"
  else if !live row.bootstrapExpiresAt now then failure .staleFence "Executor bootstrap is expired or consumed"
  else updateVersion store input.toVersion (·.opened now input)

structure BootstrapFence where
  assignmentId : String
  generation : Nat

def isBootstrapLive (store : AssignmentStore) (now : Clock) (input : BootstrapFence) : Except AssignmentError Bool := do
  let row ← locked store input.assignmentId
  if row.generation ≠ input.generation then failure .staleFence "Executor assignment fence is stale"
  else return (row.lifecycle = .provisioning || row.lifecycle = .awaitingBootstrap) && live row.bootstrapExpiresAt now

end Rika.Assignments
