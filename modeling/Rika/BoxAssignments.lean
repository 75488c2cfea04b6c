import Rika.Assignments

namespace Rika.Assignments

inductive BoxAssignmentFailureReason
  | invalid
  | notFound
  | staleFence
  | conflict
  | invalidState
  | database

structure BoxAssignmentError where
  reason : BoxAssignmentFailureReason
  message : String

def boxFailure {α : Type} (reason : BoxAssignmentFailureReason) (message : String) : Except BoxAssignmentError α :=
  .error ⟨reason, message⟩

def invalid {α : Type} : Except BoxAssignmentError α := boxFailure .invalid "Box assignment input is invalid"

structure BoxAssignmentIdentity where
  rawAssignmentId : String
  generation : Nat
deriving DecidableEq

def maxSafeInteger : Nat := 9007199254740991

/-- The characters of `bxa_` and the payload's JSON text in unpadded base 64. -/
def identityLength (identity : BoxAssignmentIdentity) : Nat :=
  let quoted := (identity.rawAssignmentId.toList.flatMap fun c => if c = '"' || c = '\\' then ['\\', c] else [c]).length
  4 + (4 * (quoted + (toString identity.generation).length + 5) + 2) / 3

def canonical (identity : BoxAssignmentIdentity) : Bool :=
  opaqueId 255 identity.rawAssignmentId && 1 ≤ identity.generation && identity.generation ≤ maxSafeInteger &&
    identityLength identity ≤ 256

def boxId (id : String) : Bool :=
  id.toList.take 3 = "bx_".toList && id.length = 11 &&
    (id.toList.drop 3).all fun c => "23456789abcdefghjkmnpqrstuvwxyz".toList.contains c

structure BoxAssignmentProjection where
  assignmentId : BoxAssignmentIdentity
  ownerId : String
  threadId : String
  workspaceId : String
  generation : Nat
  placement : ExecutorPlacement
  providerInstanceId : Option String
  lifecycle : Lifecycle
  checkout : Option RepositoryCheckout
  workspaceSeed : Option WorkspaceSeed

/-- What `OrbExecutorPlacementPolicySchema` accepts. -/
def orbPolicy : ExecutorPlacement → Bool
  | .orbPlacement placement =>
    opaqueId 512 placement.templateBuildId && opaqueId 512 placement.providerScope &&
      placement.policy.any fun policy =>
        0 < policy.buildId.length && policy.buildId.length ≤ 256 && 1 ≤ policy.protocolVersion &&
          policy.protocolVersion ≤ 1024 && 0 < policy.lineageId.length && policy.lineageId.length ≤ 256
  | .runnerPlacement _ => false

def decodeProjection (row : AssignmentRow) (boundBox : Option String) :
    Except BoxAssignmentError BoxAssignmentProjection :=
  let assignmentId : BoxAssignmentIdentity := ⟨row.id, row.generation⟩
  if opaqueId 255 row.ownerId && opaqueId 255 row.threadId && opaqueId 255 row.workspaceId &&
      row.revision ≤ maxSafeInteger && boundBox.all boxId && row.executorKind = .orb && orbPolicy row.placement &&
      canonical assignmentId then
    .ok
      { assignmentId := assignmentId
        ownerId := row.ownerId
        threadId := row.threadId
        workspaceId := row.workspaceId
        generation := row.generation
        placement := row.placement
        providerInstanceId := boundBox
        lifecycle := row.lifecycle
        checkout := row.checkout
        workspaceSeed := row.workspaceSeed }
  else invalid

def boxOf (store : AssignmentStore) (assignmentId : String) (generation : Nat) : Option String :=
  (store.bindings.find (assignmentId, generation)).map (·.boxId)

def get (store : AssignmentStore) (assignmentId : BoxAssignmentIdentity) :
    Except BoxAssignmentError (Option BoxAssignmentProjection) := do
  if !canonical assignmentId then invalid
  else
    match (store.assignments.find assignmentId.rawAssignmentId).filter fun row => row.executorKind = .orb with
    | none => return none
    | some row =>
      if row.generation ≠ assignmentId.generation then boxFailure .staleFence "Box assignment fence is stale"
      else
        let projection ← decodeProjection row (boxOf store row.id row.generation)
        if projection.assignmentId ≠ assignmentId then invalid else return some projection

structure BindBoxAssignmentInput where
  assignmentId : BoxAssignmentIdentity
  generation : Nat
  workspaceId : String
  placement : ExecutorPlacement
  boxId : String

def selectAssignment (store : AssignmentStore) (rawAssignmentId : String) : Except BoxAssignmentError AssignmentRow :=
  match (store.assignments.find rawAssignmentId).filter fun row => row.executorKind = .orb with
  | none => boxFailure .notFound "Box assignment is unavailable"
  | some row => .ok row

def bind (store : AssignmentStore) (input : BindBoxAssignmentInput) :
    Except BoxAssignmentError (AssignmentStore × BoxAssignmentProjection) := do
  if !(canonical input.assignmentId && opaqueId 255 input.workspaceId && orbPolicy input.placement &&
      boxId input.boxId) then
    invalid
  else if input.assignmentId.generation ≠ input.generation then
    boxFailure .staleFence "Box assignment fence is stale"
  else
    let selected ← selectAssignment store input.assignmentId.rawAssignmentId
    let current ← decodeProjection selected (boxOf store selected.id selected.generation)
    if current.assignmentId ≠ input.assignmentId || current.generation ≠ input.generation ||
        current.workspaceId ≠ input.workspaceId || current.placement ≠ input.placement then
      boxFailure .staleFence "Box assignment fence is stale"
    else if current.lifecycle = .paused || current.lifecycle = .terminated then
      boxFailure .invalidState "Box assignment cannot be bound in its current state"
    else
      match current.providerInstanceId with
      | some bound =>
        if bound = input.boxId then return (store, current)
        else boxFailure .conflict "Box assignment is already bound"
      | none =>
        match store.bindings.insert ⟨selected.id, input.generation, input.boxId⟩ with
        | none => boxFailure .database "Box assignment storage is unavailable"
        | some bindings =>
          return ({ store with bindings }, { current with providerInstanceId := some input.boxId })

def sameRotationMetadata (current expected : BoxAssignmentProjection) : Bool :=
  current.ownerId = expected.ownerId && current.threadId = expected.threadId &&
    current.workspaceId = expected.workspaceId && current.lifecycle = expected.lifecycle &&
    current.placement = expected.placement && current.checkout = expected.checkout &&
    current.workspaceSeed = expected.workspaceSeed

def sameRotationBinding (current : BoxAssignmentProjection) (providerInstanceId : String)
    (expectedBoxId : Option String) : Bool :=
  expectedBoxId = some providerInstanceId && current.providerInstanceId = some providerInstanceId

def rotationBoxId (expected : BoxAssignmentProjection) : String := expected.providerInstanceId.getD ""

def AssignmentRow.rotated (now : Clock) (row : AssignmentRow) : AssignmentRow :=
  { row with
    generation := row.generation + 1
    revision := row.revision + 1
    updatedAt := now.transaction }

def boxUpdate {α : Type} : Except AssignmentError α → Except BoxAssignmentError α
  | .ok a => .ok a
  | .error error =>
    if error.reason = .conflict then boxFailure .conflict "Box assignment changed concurrently"
    else boxFailure .database "Box assignment storage is unavailable"

def rotate (store : AssignmentStore) (now : Clock) (expected : BoxAssignmentProjection) :
    Except BoxAssignmentError (AssignmentStore × BoxAssignmentProjection) := do
  if !(canonical expected.assignmentId && orbPolicy expected.placement && expected.providerInstanceId.all boxId) then
    invalid
  else if expected.assignmentId.generation ≠ expected.generation then
    boxFailure .staleFence "Box assignment fence is stale"
  else
    let selected ← selectAssignment store expected.assignmentId.rawAssignmentId
    if selected.generation ≠ expected.generation && selected.generation ≠ expected.generation + 1 then
      boxFailure .staleFence "Box assignment fence is stale"
    else
      let current ← decodeProjection selected (boxOf store expected.assignmentId.rawAssignmentId selected.generation)
      if !sameRotationMetadata current expected then boxFailure .staleFence "Box assignment fence is stale"
      else if current.lifecycle = .paused || current.lifecycle = .terminated then
        boxFailure .invalidState "Box assignment cannot be rotated in its current state"
      else if !sameRotationBinding current (rotationBoxId expected)
          (boxOf store expected.assignmentId.rawAssignmentId expected.generation) then
        boxFailure .conflict "Box assignment binding changed"
      else if selected.generation = expected.generation + 1 then return (store, current)
      else if current.assignmentId ≠ expected.assignmentId then
        boxFailure .staleFence "Box assignment fence is stale"
      else if selected.generation = maxSafeInteger || selected.revision = maxSafeInteger then
        boxFailure .invalidState "Box assignment fence cannot be rotated"
      else
        let store ← boxUpdate
          (updateAssignment store expected.assignmentId.rawAssignmentId
            (fun row => row.generation = expected.generation) (·.rotated now))
        match store.bindings.insert
            ⟨expected.assignmentId.rawAssignmentId, selected.generation + 1, rotationBoxId expected⟩ with
        | none => boxFailure .conflict "Box assignment changed concurrently"
        | some bindings =>
          return ({ store with bindings }, ← decodeProjection (selected.rotated now) (some (rotationBoxId expected)))

end Rika.Assignments
