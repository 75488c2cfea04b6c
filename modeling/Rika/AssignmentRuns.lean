import Rika.AssignmentOperations
import Rika.BoxAssignments

namespace Rika.Assignments

def AssignmentRow.revoked (now : Clock) (row : AssignmentRow) : AssignmentRow :=
  { row.withoutExecutor with
    generation := row.generation + 1
    revision := row.revision + 1
    lifecycle := .terminated
    providerInstanceId := none
    bootstrapDigest := none
    bootstrapExpiresAt := none
    updatedAt := now.transaction }

/-- What the triggers that revoke a device's or a membership's authority do to
the assignments of the devices, of one owner or of all. -/
def revokeDevices (store : AssignmentStore) (now : Clock) (ownerId : Option String) (deviceIds : List String) :
    AssignmentStore :=
  { store with
    assignments :=
      store.assignments.update
        (fun row => ownerId.all (· = row.ownerId) && row.lifecycle ≠ .terminated &&
          match row.placement with
          | .runnerPlacement placement => deviceIds.contains placement.deviceId
          | .orbPlacement _ => false)
        fun row => { clearStaleAssignmentCapabilities row (row.revoked now) with id := row.id } }

/-- A transaction that reads or writes assignments. -/
inductive Call
  | create (input : CreateInput)
  | inspectOrphan (input : ClaimOrphanInput)
  | claimOrphan (input : ClaimOrphanInput)
  | beginProvisioning (input : BeginProvisioningInput)
  | beginReplacement (input : BeginReplacementInput)
  | bindProviderInstance (input : BindProviderInstanceInput)
  | openSession (input : OpenSessionInput)
  | isBootstrapLive (input : BootstrapFence)
  | updateCapabilities (input : UpdateCapabilitiesInput)
  | reconnect (input : ReconnectInput)
  | heartbeat (input : HeartbeatInput)
  | authenticate (input : Access)
  | release (input : Access)
  | validateFence (input : Fence)
  | pause (input : Version)
  | resume (input : ResumeInput)
  | terminate (input : Version)
  | commitCheckpoint (input : CommitCheckpointInput)
  | bind (input : BindBoxAssignmentInput)
  | rotate (expected : BoxAssignmentProjection)
  | revokeDevices (ownerId : Option String) (deviceIds : List String)

inductive Refusal
  | assignment (error : AssignmentError)
  | box (error : BoxAssignmentError)

def ofAssignments {α : Type} : Except AssignmentError (AssignmentStore × α) → Except Refusal AssignmentStore
  | .ok (store, _) => .ok store
  | .error error => .error (.assignment error)

def ofBoxes {α : Type} : Except BoxAssignmentError (AssignmentStore × α) → Except Refusal AssignmentStore
  | .ok (store, _) => .ok store
  | .error error => .error (.box error)

def serve (store : AssignmentStore) (now : Clock) : Call → Except Refusal AssignmentStore
  | .create input => ofAssignments (create store now input)
  | .inspectOrphan input => ofAssignments (.ok (store, inspectOrphan store now input))
  | .claimOrphan input => ofAssignments (claimOrphan store now input)
  | .beginProvisioning input => ofAssignments (beginProvisioning store now input)
  | .beginReplacement input => ofAssignments (beginReplacement store now input)
  | .bindProviderInstance input => ofAssignments (bindProviderInstance store now input)
  | .openSession input => ofAssignments (openSession store now input)
  | .isBootstrapLive input => ofAssignments ((isBootstrapLive store now input).map fun live => (store, live))
  | .updateCapabilities input => ofAssignments (updateCapabilities store now input)
  | .reconnect input => ofAssignments (reconnect store now input)
  | .heartbeat input => ofAssignments (heartbeat store now input)
  | .authenticate input => ofAssignments ((authenticate store now input).map fun assignment => (store, assignment))
  | .release input => ofAssignments (release store now input)
  | .validateFence input => ofAssignments ((validateFence store now input).map fun assignment => (store, assignment))
  | .pause input => ofAssignments (pause store now input)
  | .resume input => ofAssignments (resume store now input)
  | .terminate input => ofAssignments (terminate store now input)
  | .commitCheckpoint input => ofAssignments (commitCheckpoint store now input)
  | .bind input => ofBoxes (bind store input)
  | .rotate expected => ofBoxes (rotate store now expected)
  | .revokeDevices ownerId deviceIds => .ok (revokeDevices store now ownerId deviceIds)

/-- A call, the time since the one before it, and how much of that it waited
for the row. -/
structure Request where
  elapsed : Nat
  waited : Nat
  call : Call

structure State where
  store : AssignmentStore
  now : Millis

namespace State

section

variable (state : State) (request : Request)

def clock : Clock :=
  ⟨state.now + request.elapsed - request.waited, state.now + request.elapsed⟩

def serve : Except Refusal AssignmentStore :=
  Assignments.serve state.store (state.clock request) request.call

def next : State where
  store := (state.serve request).toOption.getD state.store
  now := (state.clock request).clock

end

def run (requests : List Request) (state : State) : State := requests.foldl next state

def start (collation : Collation) (threads : List HostedThread) (now : Millis) : State :=
  ⟨⟨collation, threads, Table.empty, Table.empty, Table.empty⟩, now⟩

end State

/-- The updates of a row, under the guards of the operations that make them. -/
inductive Rewrite (now : Clock) (row : AssignmentRow) : AssignmentRow → Prop
  | retired (hactive : row.lifecycle ≠ .active) (hterminated : row.lifecycle ≠ .terminated) :
      Rewrite now row (row.retired now)
  | provisioned (input : BeginProvisioningInput) (hactive : row.lifecycle ≠ .active)
      (hterminated : row.lifecycle ≠ .terminated) : Rewrite now row (row.provisioned now input)
  | replaced (input : BeginReplacementInput) (hterminated : row.lifecycle ≠ .terminated) :
      Rewrite now row (row.replaced now input)
  | bound (input : BindProviderInstanceInput) (hprovisioning : row.lifecycle = .provisioning) :
      Rewrite now row (row.bound now input)
  | opened (input : OpenSessionInput) (hawaiting : row.lifecycle = .awaitingBootstrap) :
      Rewrite now row (row.opened now input)
  | capable (input : UpdateCapabilitiesInput) : Rewrite now row (row.capable now input)
  | reconnected (input : ReconnectInput) (hactive : row.lifecycle = .active) :
      Rewrite now row (row.reconnected now input)
  | beaten (input : HeartbeatInput) (hactive : row.lifecycle = .active) (hlive : live row.leaseExpiresAt now = true)
      (hcursor : row.cursor.sequence ≤ input.cursor.sequence) : Rewrite now row (row.beaten now input)
  | paused (updatedAt : Millis) (hactive : row.lifecycle = .active) : Rewrite now row (row.stopped .paused updatedAt)
  | terminated (updatedAt : Millis) : Rewrite now row (row.stopped .terminated updatedAt)
  | resumed (input : ResumeInput) (hpaused : row.lifecycle = .paused) : Rewrite now row (row.resumed now input)
  | checkpointed (checkpointId : String) : Rewrite now row (row.checkpointed now checkpointId)
  | rotated (hterminated : row.lifecycle ≠ .terminated) : Rewrite now row (row.rotated now)
  | revoked : Rewrite now row (row.revoked now)

inductive RowStep (now : Clock) (row : AssignmentRow) : AssignmentRow → Prop
  | same : RowStep now row row
  | rewritten {row'} (h : Rewrite now row row') :
      RowStep now row { clearStaleAssignmentCapabilities row row' with id := row.id }

/-- The checkpoint that a row names is the one before, or was taken at the row's cursor. -/
def LatestKept (store' : AssignmentStore) (row row' : AssignmentRow) : Prop :=
  row'.latestCheckpointId = row.latestCheckpointId ∨
    ∃ checkpointId checkpoint, row'.latestCheckpointId = some checkpointId ∧
      store'.checkpoints.find checkpointId = some checkpoint ∧
      checkpoint.cursor.sequence = Double.reprint row.cursor.sequence

structure Changes (now : Clock) (store store' : AssignmentStore) : Prop where
  kept {id row} (h : store.assignments.find id = some row) :
    ∃ row', store'.assignments.find id = some row' ∧ RowStep now row row' ∧ LatestKept store' row row'
  created {id row'} (h : store.assignments.find id = none) (h' : store'.assignments.find id = some row') :
    ∃ input, row' = createdRow now input
  checkpoints {id checkpoint} (h : store.checkpoints.find id = some checkpoint) :
    store'.checkpoints.find id = some checkpoint

end Rika.Assignments
