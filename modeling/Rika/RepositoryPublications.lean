import Rika.WorkspacePreparations

namespace Rika.RepositoryPublications

open Assignments (AssignmentRow Clock Millis RepositoryCheckout live)
open WorkspacePreparations (Preparations)

inductive PublicationState
  | approved
  | pushing
  | pushed
  | completed
  | failed
  | unknown
deriving DecidableEq

inductive Json
  | null
  | boolean (value : Bool)
  | number (text : String)
  | string (value : String)
  | array (values : List Json)
  | object (fields : List (String × Json))

abbrev JsonObject := List (String × Json)

inductive StoreErrorReason
  | authorization
  | configuration
  | database
  | staleFence

structure RepositoryStoreError where
  reason : StoreErrorReason
  message : String

def failure {α : Type} (reason : StoreErrorReason) (message : String) : Except RepositoryStoreError α :=
  .error ⟨reason, message⟩

structure Approval where
  id : String
  ownerId : String
  threadId : String
  projectId : String
  repositoryId : String
  assignmentId : String
  assignmentGeneration : Nat
  leaseEpoch : Nat
  workspaceId : String
  authorizationCheckpointId : String
  authorizationDigest : String
  sourceBranch : String
  sourceRef : String
  sourceCommitSha : String
  targetRef : String
  targetCommitSha : String
  targetProtected : Bool
  title : String
  body : String

structure PublicationTransition extends Approval where
  state : PublicationState
  pushResult : Option JsonObject
  pullRequestResult : Option JsonObject

structure Publication extends PublicationTransition where
  idempotencyKey : String
  actor : Json

/-- A row of `rika_hosted_repository_publications`. -/
structure PublicationRow extends Publication where
  credentialAuthorizedAt : Option Millis
  approvedAt : Millis
  updatedAt : Millis

def PublicationRow.key (row : PublicationRow) : String := row.id

def PublicationRow.consistent (row : PublicationRow) : Bool :=
  match row.state with
  | .approved => row.credentialAuthorizedAt.isNone && row.pushResult.isNone
  | .pushing => row.credentialAuthorizedAt.isSome && row.pushResult.isNone
  | .pushed => row.credentialAuthorizedAt.isSome && row.pushResult.isSome
  | .completed => row.credentialAuthorizedAt.isSome && row.pushResult.isSome && row.pullRequestResult.isSome
  | .failed | .unknown => true

/-- A row of `rika_hosted_repository_publication_audit`. -/
structure AuditRow where
  publicationId : String
  ownerId : String
  threadId : String
  actor : Json
  action : String
  authority : JsonObject
  fence : JsonObject
  result : JsonObject
  occurredAt : Millis

structure Store where
  publications : Table PublicationRow.key
  audit : List AuditRow

/-- A row of `rika_hosted_project_repositories`. -/
structure ProjectRepository where
  projectId : String
  ownerId : String
  repositoryId : String
  installationId : String

structure StoredCheckout where
  projectId : RepositoryCheckout → Option String
  repositoryId : RepositoryCheckout → Option String
  installationId : RepositoryCheckout → Option String

/-- What a transaction reads besides; the last two are keys and checks, which may refuse any row. -/
structure World where
  checkouts : StoredCheckout
  assignments : Table AssignmentRow.id
  preparations : Preparations
  repositories : Table ProjectRepository.projectId
  clock : Clock
  acceptsPublication : PublicationRow → Bool
  acceptsAudit : AuditRow → Bool

def authority (publication : Approval) : JsonObject :=
  [("ownerId", .string publication.ownerId),
    ("threadId", .string publication.threadId),
    ("projectId", .string publication.projectId),
    ("repositoryId", .string publication.repositoryId),
    ("sourceBranch", .string publication.sourceBranch),
    ("sourceRef", .string publication.sourceRef),
    ("sourceCommitSha", .string publication.sourceCommitSha),
    ("targetRef", .string publication.targetRef),
    ("targetCommitSha", .string publication.targetCommitSha),
    ("targetProtected", .boolean publication.targetProtected)]

def fence (publication : Approval) : JsonObject :=
  [("assignmentId", .string publication.assignmentId),
    ("assignmentGeneration", .string (toString publication.assignmentGeneration)),
    ("leaseEpoch", .string (toString publication.leaseEpoch)),
    ("workspaceId", .string publication.workspaceId),
    ("authorizationCheckpointId", .string publication.authorizationCheckpointId),
    ("authorizationDigest", .string publication.authorizationDigest)]

section

variable (store : Store) (world : World)

def insertAudit (message : String) (entry : AuditRow) : Except RepositoryStoreError Store :=
  if world.acceptsAudit entry then .ok { store with audit := store.audit ++ [entry] }
  else failure .database message

def auditRow (world : World) (publication : Publication) (action : String) (result : JsonObject) : AuditRow where
  publicationId := publication.id
  ownerId := publication.ownerId
  threadId := publication.threadId
  actor := publication.actor
  action
  authority := authority publication.toApproval
  fence := fence publication.toApproval
  result
  occurredAt := world.clock.transaction

def approvalRow (world : World) (publication : Publication) (approvalAuthority approvalFence result : JsonObject) :
    AuditRow where
  publicationId := publication.id
  ownerId := publication.ownerId
  threadId := publication.threadId
  actor := publication.actor
  action := "approved"
  authority := approvalAuthority
  fence := approvalFence
  result
  occurredAt := world.clock.transaction

/-- `UPDATE .. WHERE id = .. AND guard RETURNING ..`: the row as it is set, if the guard holds
of the stored one. -/
def updateRow (message : String) (id : String) (guard : PublicationRow → Bool)
    (set : PublicationRow → PublicationRow) (hset : ∀ row, (set row).key = row.key) :
    Except RepositoryStoreError (Option (PublicationRow × Store)) :=
  match (store.publications.find id).filter guard with
  | none => .ok none
  | some row =>
    if (set row).consistent && world.acceptsPublication (set row) then
      .ok (some (set row,
        { store with publications := store.publications.update (fun other => other.key = id) set hset }))
    else failure .database message

def prepared (world : World) (assignment : AssignmentRow) : Bool :=
  world.preparations.rows.any fun preparation =>
    preparation.assignmentId = assignment.id && preparation.ownerId = assignment.ownerId &&
      preparation.generation = assignment.generation && preparation.workspaceId = assignment.workspaceId &&
      some preparation.leaseEpoch = assignment.leaseEpoch && preparation.state = .ready

def approvable (world : World) (input : Publication) : Bool :=
  world.assignments.rows.any fun assignment =>
    prepared world assignment &&
      world.repositories.rows.any fun repository =>
        repository.projectId = input.projectId && repository.ownerId = assignment.ownerId &&
          repository.repositoryId = input.repositoryId &&
          assignment.id = input.assignmentId && assignment.ownerId = input.ownerId &&
          assignment.threadId = input.threadId && assignment.lifecycle = .active &&
          assignment.generation = input.assignmentGeneration && assignment.leaseEpoch = some input.leaseEpoch &&
          assignment.workspaceId = input.workspaceId && live assignment.leaseExpiresAt world.clock &&
          assignment.checkout.any fun checkout =>
            checkout.ownerId = assignment.ownerId && world.checkouts.projectId checkout = some input.projectId &&
              world.checkouts.repositoryId checkout = some input.repositoryId &&
              world.checkouts.installationId checkout = some repository.installationId

def approvedRow (world : World) (input : Publication) : PublicationRow where
  toPublication := { input with state := .approved, pushResult := none, pullRequestResult := none }
  credentialAuthorizedAt := none
  approvedAt := world.clock.transaction
  updatedAt := world.clock.transaction

def keyTaken (store : Store) (input : Publication) : Bool :=
  store.publications.rows.any fun row =>
    row.ownerId = input.ownerId && row.threadId = input.threadId && row.idempotencyKey = input.idempotencyKey

def createPublication (input : Publication)
    (approvalAuthority approvalFence auditResult : JsonObject) :
    Except RepositoryStoreError (Publication × Store) :=
  let created := approvedRow world input
  if !approvable world input then failure .staleFence "Publication assignment changed before approval"
  else if !world.acceptsPublication created then
    failure .database "Could not persist the publication approval"
  else if keyTaken store input then failure .staleFence "Publication assignment changed before approval"
  else
    match store.publications.insert created with
    | none => failure .staleFence "Publication assignment changed before approval"
    | some publications =>
      match insertAudit { store with publications } world "Could not persist the publication approval"
          (approvalRow world created.toPublication approvalAuthority approvalFence auditResult) with
      | .error error => .error error
      | .ok store' => .ok (created.toPublication, store')

end

structure PublicationAccess where
  assignmentGeneration : Nat
  leaseEpoch : Nat
  providerInstanceId : String
  executorInstanceId : String
  processIncarnation : String
  sessionDigest : String

structure PushClaim where
  publicationId : String
  ownerId : String
  repositoryId : String
  workspaceId : String
  branch : String
  ref : String
  commitSha : String
  access : PublicationAccess

section

variable (world : World)

def validAssignment (input : PushClaim) (row : PublicationRow) (assignment : AssignmentRow) : Bool :=
  prepared world assignment && assignment.id = row.assignmentId && assignment.ownerId = row.ownerId &&
    assignment.threadId = row.threadId && assignment.workspaceId = row.workspaceId &&
    assignment.generation = input.access.assignmentGeneration && assignment.generation = row.assignmentGeneration &&
    assignment.lifecycle = .active && assignment.providerInstanceId = some input.access.providerInstanceId &&
    assignment.executorInstanceId = some input.access.executorInstanceId &&
    assignment.processIncarnation = some input.access.processIncarnation &&
    assignment.leaseEpoch = some input.access.leaseEpoch && assignment.leaseEpoch = some row.leaseEpoch &&
    live assignment.leaseExpiresAt world.clock && assignment.sessionDigest = some input.access.sessionDigest &&
    assignment.checkout.any fun checkout =>
      checkout.ownerId = row.ownerId && world.checkouts.projectId checkout = some row.projectId &&
        world.checkouts.repositoryId checkout = some row.repositoryId

def claimable (input : PushClaim) (row : PublicationRow) : Bool :=
  row.state = .approved && row.credentialAuthorizedAt.isNone && row.ownerId = input.ownerId &&
    row.repositoryId = input.repositoryId && row.workspaceId = input.workspaceId &&
    row.sourceBranch = input.branch && row.sourceRef = input.ref && row.sourceCommitSha = input.commitSha &&
    world.assignments.rows.any (validAssignment world input row)

def PublicationRow.moved (state : PublicationState) (row : PublicationRow) : PublicationRow :=
  { row with state, updatedAt := world.clock.transaction }

def PublicationRow.claimed (row : PublicationRow) : PublicationRow :=
  { row.moved world .pushing with credentialAuthorizedAt := some world.clock.transaction }

section

variable (result : JsonObject) (state : PublicationState) (row : PublicationRow)

def PublicationRow.pushed : PublicationRow :=
  { row.moved world state with pushResult := some result }

def PublicationRow.finished : PublicationRow :=
  { row.moved world state with pullRequestResult := some result }

theorem PublicationRow.key_moved (state : PublicationState) (row : PublicationRow) :
    (row.moved world state).key = row.key := rfl

theorem PublicationRow.key_claimed (row : PublicationRow) : (row.claimed world).key = row.key := rfl

theorem PublicationRow.key_pushed : (row.pushed world result state).key = row.key := rfl

theorem PublicationRow.key_finished : (row.finished world result state).key = row.key := rfl

end

end

section

variable (store : Store) (world : World)

def updateAudited (stale message : String) (id : String)
    (guard : PublicationRow → Bool) (set : PublicationRow → PublicationRow) (hset : ∀ row, (set row).key = row.key)
    (action : String) (result : JsonObject) : Except RepositoryStoreError (Publication × Store) :=
  match updateRow store world message id guard set hset with
  | .error error => .error error
  | .ok none => failure .authorization stale
  | .ok (some (row, store')) =>
    match insertAudit store' world message (auditRow world row.toPublication action result) with
    | .error error => .error error
    | .ok store'' => .ok (row.toPublication, store'')

def claimPush (input : PushClaim) : Except RepositoryStoreError (Publication × Store) :=
  updateAudited store world "Branch push approval is stale or does not match this operation"
    "Could not claim the branch push approval" input.publicationId (claimable world input)
    (PublicationRow.claimed world) (PublicationRow.key_claimed world) "branch-push-credential-authorized"
    [("purpose", .string "branch-push"), ("permissions", .object [("contents", .string "write")])]

def failCredential (publication : Publication) : Except RepositoryStoreError Store :=
  match updateRow store world "Could not fail the branch push credential" publication.id
      (fun row => row.state = .pushing && row.authorizationDigest = publication.authorizationDigest)
      (PublicationRow.moved world .failed) (PublicationRow.key_moved world .failed) with
  | .error error => .error error
  | .ok none => .ok store
  | .ok (some (_, store')) =>
    insertAudit store' world "Could not fail the branch push credential"
      (auditRow world publication "branch-push-credential-failed"
        [("purpose", .string "branch-push"), ("outcome", .string "failed")])

end

inductive PushState
  | pushed
  | failed
  | unknown

def PushState.state : PushState → PublicationState
  | pushed => .pushed
  | failed => .failed
  | unknown => .unknown

def PushState.action : PushState → String
  | pushed => "branch-push-succeeded"
  | failed => "branch-push-failed"
  | unknown => "branch-push-unknown"

def pushRecordable (publication : Approval) (row : PublicationRow) : Bool :=
  row.state = .pushing && row.ownerId = publication.ownerId && row.threadId = publication.threadId &&
    row.repositoryId = publication.repositoryId && row.assignmentId = publication.assignmentId &&
    row.assignmentGeneration = publication.assignmentGeneration && row.leaseEpoch = publication.leaseEpoch &&
    row.workspaceId = publication.workspaceId &&
    row.authorizationCheckpointId = publication.authorizationCheckpointId &&
    row.authorizationDigest = publication.authorizationDigest && row.sourceBranch = publication.sourceBranch &&
    row.sourceCommitSha = publication.sourceCommitSha

section

variable (store : Store) (world : World) (publication : PublicationTransition) (result : JsonObject)

def recordPush (state : PushState) : Except RepositoryStoreError (Publication × Store) :=
  updateAudited store world "Publication push result is stale" "Could not record the publication push result"
    publication.id (pushRecordable publication.toApproval) (PublicationRow.pushed world result state.state)
    (PublicationRow.key_pushed world result state.state) state.action result

def pullRequestRecordable (publication : Approval) (row : PublicationRow) : Bool :=
  row.state = .pushed && row.sourceCommitSha = publication.sourceCommitSha && row.targetRef = publication.targetRef &&
    row.targetCommitSha = publication.targetCommitSha

def pullRequestState (succeeded : Bool) : PublicationState := if succeeded then .completed else .failed

def recordPullRequest (succeeded : Bool) : Except RepositoryStoreError (Publication × Store) :=
  updateAudited store world "Pull request result is stale" "Could not record the pull request result" publication.id
    (pullRequestRecordable publication.toApproval)
    (PublicationRow.finished world result (pullRequestState succeeded))
    (PublicationRow.key_finished world result (pullRequestState succeeded))
    (if succeeded then "pull-request-succeeded" else "pull-request-failed") result

end

inductive Call
  | createPublication (input : Publication) (authority fence auditResult : JsonObject)
  | claimPush (input : PushClaim)
  | failCredential (publication : Publication)
  | recordPush (publication : PublicationTransition) (result : JsonObject) (state : PushState)
  | recordPullRequest (publication : PublicationTransition) (result : JsonObject) (succeeded : Bool)

section

variable (store : Store) (world : World)

def Call.transaction : Call → Except RepositoryStoreError (Option Publication × Store)
  | createPublication input authority fence auditResult =>
    (RepositoryPublications.createPublication store world input authority fence auditResult).map fun committed =>
      (some committed.1, committed.2)
  | claimPush input =>
    (RepositoryPublications.claimPush store world input).map fun committed => (some committed.1, committed.2)
  | failCredential publication =>
    (RepositoryPublications.failCredential store world publication).map fun store' => (none, store')
  | recordPush publication result state =>
    (RepositoryPublications.recordPush store world publication result state).map fun committed =>
      (some committed.1, committed.2)
  | recordPullRequest publication result succeeded =>
    (RepositoryPublications.recordPullRequest store world publication result succeeded).map fun committed =>
      (some committed.1, committed.2)

def Call.after (call : Call) : Store :=
  match call.transaction store world with
  | .error _ => store
  | .ok (_, store') => store'

def run (store : Store) (calls : List (World × Call)) : Store :=
  calls.foldl (fun store call => call.2.after store call.1) store

def Call.authorizes (id : String) : Call → Bool
  | claimPush input => input.publicationId = id && (RepositoryPublications.claimPush store world input).isOk
  | _ => false

end

def authorizations (id : String) : Store → List (World × Call) → Nat
  | _, [] => 0
  | store, (world, call) :: calls =>
    (if call.authorizes store world id then 1 else 0) + authorizations id (call.after store world) calls

end Rika.RepositoryPublications
