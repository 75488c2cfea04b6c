import Rika.Assignments

namespace Rika.Assignments

structure UpdateCapabilitiesInput where
  access : Access
  capabilities : WorkspaceCapabilitySnapshot

def AssignmentRow.capable (now : Clock) (input : UpdateCapabilitiesInput) (row : AssignmentRow) : AssignmentRow :=
  { row with
    revision := row.revision + 1
    capabilityGeneration := some row.generation
    capabilitySnapshot := some input.capabilities
    lastActiveAt := now.transaction
    updatedAt := now.transaction }

def updateCapabilities (store : AssignmentStore) (now : Clock) (input : UpdateCapabilitiesInput) :
    Except AssignmentError (AssignmentStore × ExecutorAssignment) := do
  let row ← locked store input.access.assignmentId
  checkAccess now row input.access true
  updateFence store input.access.toFence (·.capable now input)

structure ReconnectInput where
  access : Access
  leaseLifetimeMillis : Millis

def AssignmentRow.reconnected (now : Clock) (input : ReconnectInput) (row : AssignmentRow) : AssignmentRow :=
  { row with
    revision := row.revision + 1
    lastLeaseEpoch := row.lastLeaseEpoch + 1
    leaseEpoch := some (row.lastLeaseEpoch + 1)
    leaseExpiresAt := some (now.transaction + input.leaseLifetimeMillis)
    lastActiveAt := now.transaction
    updatedAt := now.transaction }

/-- The one check of an access that does not ask for a live lease, with `release`. -/
def reconnect (store : AssignmentStore) (now : Clock) (input : ReconnectInput) :
    Except AssignmentError (AssignmentStore × ExecutorAssignment) := do
  let row ← locked store input.access.assignmentId
  checkAccess now row input.access false
  updateFence store input.access.toFence (·.reconnected now input)

structure HeartbeatInput extends ReconnectInput where
  cursor : ExecutorCursor

/-- The sequence goes through `Number`. -/
def AssignmentRow.beaten (now : Clock) (input : HeartbeatInput) (row : AssignmentRow) : AssignmentRow :=
  { row with
    revision := row.revision + 1
    cursor := ⟨Double.reprint input.cursor.sequence, input.cursor.value⟩
    leaseExpiresAt := some (now.transaction + input.leaseLifetimeMillis)
    lastActiveAt := now.transaction
    updatedAt := now.transaction }

def heartbeat (store : AssignmentStore) (now : Clock) (input : HeartbeatInput) :
    Except AssignmentError (AssignmentStore × ExecutorAssignment) := do
  let row ← locked store input.access.assignmentId
  checkAccess now row input.access true
  if input.cursor.sequence < row.cursor.sequence then failure .conflict "Executor cursor cannot move backwards"
  else if input.cursor.sequence = row.cursor.sequence && input.cursor.value ≠ row.cursor.value then
    failure .conflict "Executor cursor conflicts at the same sequence"
  else updateFence store input.access.toFence (·.beaten now input)

def authenticate (store : AssignmentStore) (now : Clock) (input : Access) :
    Except AssignmentError ExecutorAssignment := do
  let row ← locked store input.assignmentId
  checkAccess now row input true
  decodeAssignment row

def AssignmentRow.stopped (lifecycle : Lifecycle) (updatedAt : Millis) (row : AssignmentRow) : AssignmentRow :=
  { row.withoutExecutor with
    revision := row.revision + 1
    lifecycle := lifecycle
    bootstrapDigest := none
    bootstrapExpiresAt := none
    updatedAt := updatedAt }

section

variable (store : AssignmentStore) (now : Clock)

def release (input : Access) : Except AssignmentError (AssignmentStore × ExecutorAssignment) := do
  let row ← locked store input.assignmentId
  checkAccess now row input false
  updateFence store input.toFence (·.stopped .paused now.clock)

def validateFence (input : Fence) : Except AssignmentError ExecutorAssignment := do
  let row ← locked store input.assignmentId
  checkFence row input
  if !live row.leaseExpiresAt now then failure .staleFence "Executor assignment fence is stale"
  else decodeAssignment row

def pause (input : Version) : Except AssignmentError (AssignmentStore × ExecutorAssignment) := do
  let row ← locked store input.assignmentId
  checkVersion row input
  if row.lifecycle ≠ .active then failure .invalidState "Assignment is not active"
  else updateVersion store input (·.stopped .paused now.transaction)

end

structure ResumeInput extends Version where
  bootstrapCredentialDigest : String
  bootstrapLifetimeMillis : Millis

def AssignmentRow.resumed (now : Clock) (input : ResumeInput) (row : AssignmentRow) : AssignmentRow :=
  { row with
    revision := row.revision + 1
    lifecycle := .provisioning
    bootstrapDigest := some input.bootstrapCredentialDigest
    bootstrapExpiresAt := some (now.transaction + input.bootstrapLifetimeMillis)
    updatedAt := now.transaction }

def resume (store : AssignmentStore) (now : Clock) (input : ResumeInput) :
    Except AssignmentError (AssignmentStore × ExecutorAssignment) := do
  let row ← locked store input.assignmentId
  checkVersion row input.toVersion
  if row.lifecycle ≠ .paused then failure .invalidState "Assignment is not paused"
  else updateVersion store input.toVersion (·.resumed now input)

def terminate (store : AssignmentStore) (now : Clock) (input : Version) :
    Except AssignmentError (AssignmentStore × ExecutorAssignment) := do
  let row ← locked store input.assignmentId
  checkVersion row input
  updateVersion store input (·.stopped .terminated now.transaction)

structure CommitCheckpointInput where
  access : Access
  id : String
  objectKey : String
  contentDigest : String
  sizeBytes : Nat
  format : String
  cursor : ExecutorCursor
  metadata : String

def checkpointMatches (checkpoint : CheckpointRow) (input : CommitCheckpointInput) : Bool :=
  checkpoint.assignmentId = input.access.assignmentId &&
    checkpoint.assignmentGeneration = input.access.assignmentGeneration &&
    checkpoint.leaseEpoch = input.access.leaseEpoch && checkpoint.objectKey = input.objectKey &&
    checkpoint.contentDigest = input.contentDigest && checkpoint.sizeBytes = input.sizeBytes &&
    checkpoint.format = input.format && checkpoint.cursor = input.cursor && checkpoint.metadata = input.metadata

/-- A constraint of `rika_hosted_checkpoints` that the row breaks; the texts that
metadata may not have are left out. -/
def checkpointViolated (checkpoint : CheckpointRow) : Option String :=
  if checkpoint.contentDigest.toList.take 7 ≠ "sha256:".toList || checkpoint.contentDigest.length ≠ 71 ||
      (checkpoint.contentDigest.toList.drop 7).any fun c => !(c.isDigit || 'a' ≤ c && c ≤ 'f') then
    some "rika_hosted_checkpoints_content_digest_check"
  else if checkpoint.objectKey.length = 0 then some "rika_hosted_checkpoints_object_key_check"
  else if checkpoint.sizeBytes = 0 then some "rika_hosted_checkpoints_size_bytes_check"
  else if checkpoint.format ≠ "tar.zst" then some "rika_hosted_checkpoints_format_check"
  else none

def AssignmentRow.checkpointed (now : Clock) (checkpointId : String) (row : AssignmentRow) : AssignmentRow :=
  { row with
    revision := row.revision + 1
    latestCheckpointId := some checkpointId
    updatedAt := now.transaction }

def commitCheckpoint (store : AssignmentStore) (now : Clock) (input : CommitCheckpointInput) :
    Except AssignmentError (AssignmentStore × CheckpointRow) := do
  let row ← locked store input.access.assignmentId
  checkAccess now row input.access true
  if input.cursor ≠ row.cursor then
    failure .conflict "Checkpoint cursor is not the acknowledged executor cursor"
  else
    match store.checkpoints.find input.id with
    | some existing =>
      if checkpointMatches existing input then return (store, existing)
      else failure .conflict "Checkpoint identity has different content"
    | none =>
      match row.executorInstanceId, row.leaseEpoch with
      | some executorInstanceId, some leaseEpoch =>
        let checkpoint : CheckpointRow :=
          { id := input.id
            ownerId := row.ownerId
            threadId := row.threadId
            assignmentId := row.id
            executorInstanceId := executorInstanceId
            assignmentGeneration := row.generation
            leaseEpoch := leaseEpoch
            objectKey := input.objectKey
            contentDigest := input.contentDigest
            sizeBytes := input.sizeBytes
            format := input.format
            cursor := ⟨Double.reprint input.cursor.sequence, input.cursor.value⟩
            metadata := input.metadata
            verifiedAt := now.transaction }
        match checkpointViolated checkpoint with
        | some constraint => databaseError constraint
        | none =>
          match store.checkpoints.insert checkpoint with
          | none => failure .conflict "Checkpoint identity has different content"
          | some checkpoints =>
            let store ← updateAssignment { store with checkpoints } row.id
              (fun current => current.generation = row.generation && current.revision = row.revision)
              (·.checkpointed now input.id)
            return (store, checkpoint)
      | _, _ => failure .staleFence "Executor assignment fence is stale"

def latestCheckpoint (store : AssignmentStore) (assignmentId : String) : Option CheckpointRow := do
  let row ← store.assignments.find assignmentId
  let checkpointId ← row.latestCheckpointId
  store.checkpoints.find checkpointId

end Rika.Assignments
