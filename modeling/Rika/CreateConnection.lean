import Rika.AssignmentRow
import Rika.OpenAiService
import Rika.Projection

namespace Rika.ThreadCreation

open Assignments (ExecutorKind Lifecycle Millis)
open OpenAiService (isBlank)

inductive ErrorKind
  | conflict
  | forbidden
  | invalid
  | notFound
  | unavailable

structure ProductRepositoryError where
  kind : ErrorKind
  message : String

structure ProductControlError where
  kind : ErrorKind
  message : String

def failure {α : Type} (kind : ErrorKind) (message : String) : Except ProductRepositoryError α := .error ⟨kind, message⟩

section Values

structure WorkspaceSeedRepository where
  owner : String
  name : String

structure WorkspaceSeed where
  id : String
  sourceRepository : Option WorkspaceSeedRepository
  objectKey : String
  contentDigest : String
  sizeBytes : Int
  archiveDigest : String
  archiveSizeBytes : Int
  encryption : String

structure GitIdentity where
  name : String
  email : String

structure RepositoryCheckout where
  ownerId : String
  projectId : String
  repositoryId : String
  installationId : String
  owner : String
  name : String
  ref : String
  commitSha : String
  isPrivate : Bool
  gitIdentity : GitIdentity

/-- `OpaqueId`: characters of one byte that are no blanks. -/
def isOpaqueId (max : Nat) (value : String) : Bool :=
  1 ≤ value.toList.length && value.toList.length ≤ max && value.toList.all fun c => 0x21 ≤ c.toNat && c.toNat ≤ 0x7e

def isHex (length : Nat) (digits : List Char) : Bool :=
  digits.length = length && digits.all fun c => c.isDigit || 'a' ≤ c && c ≤ 'f'

def isDigest (value : String) : Bool := "sha256:".toList.isPrefixOf value.toList && isHex 64 (value.toList.drop 7)

def isEmail (value : String) : Bool :=
  (utf16 value).length ≤ 320 &&
    match value.toList.splitOn '@' with
    | [name, domain] => name ≠ [] && domain ≠ [] && !name.any isBlank && !domain.any isBlank
    | _ => false

def WorkspaceSeed.accepted (seed : WorkspaceSeed) : Bool :=
  isOpaqueId 512 seed.id &&
    seed.sourceRepository.all (fun repository => isOpaqueId 512 repository.owner && isOpaqueId 512 repository.name) &&
    seed.objectKey ≠ "" && isDigest seed.contentDigest && 0 < seed.sizeBytes && isDigest seed.archiveDigest &&
    0 < seed.archiveSizeBytes && seed.encryption = "aes-256-gcm"

def RepositoryCheckout.accepted (checkout : RepositoryCheckout) : Bool :=
  isOpaqueId 255 checkout.ownerId && isOpaqueId 512 checkout.projectId && isOpaqueId 512 checkout.repositoryId &&
    isOpaqueId 512 checkout.installationId && isOpaqueId 512 checkout.owner && isOpaqueId 512 checkout.name &&
    isOpaqueId 512 checkout.ref && isHex 40 checkout.commitSha.toList && 1 ≤ (utf16 checkout.gitIdentity.name).length &&
    (utf16 checkout.gitIdentity.name).length ≤ 256 && isEmail checkout.gitIdentity.email

def decodeWorkspaceSeed (seed : WorkspaceSeed) : Option WorkspaceSeed := if seed.accepted then some seed else none

/-- `toLowerCase`, of the characters of one byte. -/
def toLowerCase (value : String) : List Char := value.toList.map Char.toLower

structure ExecutorPolicy where
  buildId : String
  protocolVersion : Nat

inductive Placement
  | runnerPlacement (deviceId checkoutFingerprint requestingDeviceId : String) (executorPolicy : ExecutorPolicy)
  | orbPlacement (templateBuildId providerScope : String) (executorPolicy : ExecutorPolicy) (lineageId : String)

structure RunnerTarget where
  deviceId : String
  checkoutFingerprint : String
deriving DecidableEq

inductive HostedOwner
  | personalOwner (userId : String)
  | organizationOwner (organizationId : String)

structure OwnerAuthority where
  ownerId : String
  owner : HostedOwner
  userId : String
  membershipId : Option String

end Values

section Rows

/-- A row of `rika_hosted_threads`. -/
structure HostedThread where
  id : String
  archiveSourceThreadId : Option String
  ownerId : String
  projectId : Option String
  workspaceId : String
  createdByUserId : String
  executorKind : ExecutorKind
  inheritProjectGrants : Bool
  createdAt : Millis

/-- A row of `rika_hosted_executor_assignments`. -/
structure ExecutorAssignment where
  id : String
  ownerId : String
  threadId : String
  workspaceId : String
  executorKind : ExecutorKind
  placement : Placement
  checkout : Option RepositoryCheckout
  workspaceSeed : Option WorkspaceSeed
  generation : Nat
  revision : Nat
  lastLeaseEpoch : Nat
  lifecycle : Lifecycle

/-- A row of `rika_threads`. -/
structure ProductThread where
  id : String
  ownerId : String
  workspace : String
  title : String
  archived : Bool
  createdAt : Millis
  updatedAt : Millis

/-- A row of `rika_hosted_workspaces`. -/
structure HostedWorkspace where
  id : String
  ownerId : String
  projectId : Option String
  createdByUserId : String
  executorKind : ExecutorKind
  inheritProjectGrants : Bool
  createdAt : Millis

/-- A row of `rika_workspaces`. -/
structure ProductWorkspace where
  ownerId : String
  path : String
  createdAt : Millis

def ProductWorkspace.key (workspace : ProductWorkspace) : String × String := (workspace.ownerId, workspace.path)

/-- A row of `rika_hosted_thread_grants`. -/
structure ThreadGrant where
  ownerId : String
  threadId : String
  membershipId : String
  role : String
  grantedByUserId : String
  createdAt : Millis
  updatedAt : Millis

def ThreadGrant.key (grant : ThreadGrant) : String × String := (grant.threadId, grant.membershipId)

/-- A row of `rika_hosted_workspace_seeds`. -/
structure StagedSeed where
  id : String
  ownerId : String
  createdByUserId : String
  createdByDeviceId : String
  createdByClientId : String
  manifest : WorkspaceSeed
  claimedAssignmentId : Option String
  expiresAt : Millis
  createdAt : Millis

/-- A row of `rika_hosted_runner_registrations`. -/
structure RunnerRegistration where
  deviceId : String
  checkoutFingerprint : String
  userId : String
  workspaceId : String
  projectId : Option String
  remoteThreadCreationAllowed : Bool

def RunnerRegistration.target (runner : RunnerRegistration) : RunnerTarget :=
  ⟨runner.deviceId, runner.checkoutFingerprint⟩

structure Store where
  hostedThreads : Table HostedThread.id
  assignments : Table ExecutorAssignment.id
  threads : Table ProductThread.id
  hostedWorkspaces : Table HostedWorkspace.id
  workspaces : Table ProductWorkspace.key
  grants : Table ThreadGrant.key
  seeds : Table StagedSeed.id
  runners : Table RunnerRegistration.target

end Rows

structure ExistingConnectionInput where
  authority : OwnerAuthority
  projectId : Option String
  executorKind : ExecutorKind
  runnerTarget : Option RunnerTarget
  workspaceSeedId : Option String
  threadId : String
  archiveThreadId : Option String

structure CreateConnectionInput extends ExistingConnectionInput where
  requestingDeviceId : String
  requestingClientId : String
  workspaceId : String
  assignmentId : String
  placement : Placement
  checkout : Option RepositoryCheckout
  now : Millis

inductive CreateConnectionResult
  | created
  | existing
  | incompatible
  | runnerMissing
  | runnerAuthorityMismatch
  | runnerRemoteDenied
deriving DecidableEq

section Existing

structure Connection where
  archiveSourceThreadId : Option String
  ownerId : String
  projectId : Option String
  createdByUserId : String
  executorKind : ExecutorKind
  placement : Placement
  workspaceSeed : Option WorkspaceSeed

def connection (store : Store) (threadId : String) : Option Connection :=
  match store.hostedThreads.find threadId with
  | none => none
  | some thread =>
    (store.assignments.rows.find? fun assignment => assignment.threadId = thread.id).map fun assignment =>
      ⟨thread.archiveSourceThreadId, thread.ownerId, thread.projectId, thread.createdByUserId, thread.executorKind,
        assignment.placement, assignment.workspaceSeed⟩

def decodeRunnerPlacement : Placement → Option RunnerTarget
  | .runnerPlacement deviceId checkoutFingerprint _ _ => some ⟨deviceId, checkoutFingerprint⟩
  | .orbPlacement _ _ _ _ => none

def seedCompatible (stored : Option WorkspaceSeed) (workspaceSeedId : Option String) : Bool :=
  match workspaceSeedId with
  | none => stored.isNone
  | some id => (stored.bind decodeWorkspaceSeed).any fun seed => seed.id = id

/-- The test of `existingConnection`. -/
def compatible (existing : Connection) (input : ExistingConnectionInput) : Bool :=
  let runnerCompatible := match input.runnerTarget with
    | none => true
    | some target =>
      match decodeRunnerPlacement existing.placement with
      | none => false
      | some placement =>
        placement.deviceId = target.deviceId && placement.checkoutFingerprint = target.checkoutFingerprint
  existing.ownerId = input.authority.ownerId && existing.archiveSourceThreadId = input.archiveThreadId &&
    existing.projectId = input.projectId && existing.createdByUserId = input.authority.userId &&
    existing.executorKind = input.executorKind && runnerCompatible &&
    seedCompatible existing.workspaceSeed input.workspaceSeedId

def existingConnection (store : Store) (input : ExistingConnectionInput) : Option CreateConnectionResult :=
  (connection store input.threadId).map fun existing => if compatible existing input then .existing else .incompatible

def every (conditions : List Bool) : Bool := conditions.all id

/-- The test that `createConnection` makes again. -/
def compatibleAgain (existing : Connection) (input : ExistingConnectionInput) : Bool :=
  let placement := decodeRunnerPlacement existing.placement
  let runnerCompatible := match input.runnerTarget with
    | none => true
    | some target =>
      every
        [placement.isSome, placement.any fun placement => placement.deviceId = target.deviceId,
          placement.any fun placement => placement.checkoutFingerprint = target.checkoutFingerprint]
  every
    [existing.ownerId = input.authority.ownerId, existing.archiveSourceThreadId = input.archiveThreadId,
      existing.projectId = input.projectId, existing.createdByUserId = input.authority.userId,
      existing.executorKind = input.executorKind, runnerCompatible,
      seedCompatible existing.workspaceSeed input.workspaceSeedId]

end Existing

section Transaction

inductive Statement
  | lock
  | readExisting
  | readSource
  | readRunner
  | readSeed
  | insertHostedWorkspace
  | insertWorkspace
  | insertHostedThread
  | insertThread
  | insertGrant
  | insertAssignment
  | archiveSource
  | claimSeed
  | commit

/-- The statements that fail: foreign keys, checks, triggers and the connection are not modelled. -/
abbrev Failures := Statement → Bool

variable (fails : Failures)

def unavailable {α : Type} : Except ProductRepositoryError α := failure .unavailable "Database statement failed"

def execute (statement : Statement) : Except ProductRepositoryError Unit :=
  if fails statement then unavailable else .ok ()

def inserted {ρ κ : Type} [DecidableEq κ] {key : ρ → κ} (table : Table key) (row : ρ) :
    Except ProductRepositoryError (Table key) :=
  match table.insert row with
  | none => unavailable
  | some table => .ok table

/-- `ON CONFLICT DO NOTHING`. -/
def insertNew {ρ κ : Type} [DecidableEq κ] {key : ρ → κ} (table : Table key) (row : ρ) : Table key :=
  (table.insert row).getD table

section

variable (store : Store) (input : CreateConnectionInput)

def checkSource : Except ProductRepositoryError Unit :=
  match input.archiveThreadId with
  | none => .ok ()
  | some source => do
    execute fails .readSource
    if (store.threads.find source).any fun thread => thread.ownerId = input.authority.ownerId then .ok ()
    else failure .notFound "Thread is unavailable"

def chooseWorkspace : Except ProductRepositoryError (Except CreateConnectionResult String) :=
  match input.runnerTarget with
  | none => .ok (.ok input.workspaceId)
  | some target => do
    execute fails .readRunner
    match store.runners.find target with
    | none => .ok (.error .runnerMissing)
    | some runner =>
      if !every [runner.userId = input.authority.userId, runner.projectId = input.projectId] then
        .ok (.error .runnerAuthorityMismatch)
      else if every [input.requestingDeviceId ≠ target.deviceId, !runner.remoteThreadCreationAllowed] then
        .ok (.error .runnerRemoteDenied)
      else .ok (.ok runner.workspaceId)

def sameRepository (seed : WorkspaceSeed) (checkout : RepositoryCheckout) : Bool :=
  every
    [seed.sourceRepository.isSome,
      seed.sourceRepository.any fun repository => toLowerCase repository.owner = toLowerCase checkout.owner,
      seed.sourceRepository.any fun repository => toLowerCase repository.name = toLowerCase checkout.name]

def loadWorkspaceSeed : Except ProductRepositoryError (Option WorkspaceSeed) :=
  match input.workspaceSeedId with
  | none => .ok none
  | some seedId =>
    if input.executorKind ≠ .orb then failure .conflict "Workspace seed requires Orb execution"
    else do
      execute fails .readSeed
      match (store.seeds.find seedId).filter fun staged => input.now < staged.expiresAt with
      | none => failure .notFound "Workspace seed is unavailable"
      | some staged =>
        if !every
            [staged.ownerId = input.authority.ownerId, staged.createdByUserId = input.authority.userId,
              staged.createdByDeviceId = input.requestingDeviceId,
              staged.createdByClientId = input.requestingClientId] then
          failure .forbidden "Workspace seed is unavailable"
        else if every [staged.claimedAssignmentId.isSome, staged.claimedAssignmentId ≠ some input.assignmentId] then
          failure .conflict "Workspace seed was already claimed"
        else
          match decodeWorkspaceSeed staged.manifest with
          | none => failure .unavailable "Workspace seed is unavailable"
          | some seed =>
            match input.checkout with
            | none => .ok (some seed)
            | some checkout =>
              if !checkout.accepted then failure .unavailable "Workspace seed is unavailable"
              else if !sameRepository seed checkout then
                failure .conflict "Local Workspace repository does not match the selected Project repository"
              else .ok (some seed)

end

section

variable (input : CreateConnectionInput)

def inheritProjectGrants : Bool := input.executorKind = .orb && input.projectId.isSome

section

variable (workspaceId : String)

def hostedWorkspaceOf : HostedWorkspace where
  id := workspaceId
  ownerId := input.authority.ownerId
  projectId := input.projectId
  createdByUserId := input.authority.userId
  executorKind := input.executorKind
  inheritProjectGrants := inheritProjectGrants input
  createdAt := input.now

def hostedThreadOf : HostedThread where
  id := input.threadId
  archiveSourceThreadId := input.archiveThreadId
  ownerId := input.authority.ownerId
  projectId := input.projectId
  workspaceId
  createdByUserId := input.authority.userId
  executorKind := input.executorKind
  inheritProjectGrants := inheritProjectGrants input
  createdAt := input.now

def threadOf : ProductThread where
  id := input.threadId
  ownerId := input.authority.ownerId
  workspace := workspaceId
  title := "New thread"
  archived := false
  createdAt := input.now
  updatedAt := input.now

def assignmentOf (workspaceSeed : Option WorkspaceSeed) : ExecutorAssignment where
  id := input.assignmentId
  ownerId := input.authority.ownerId
  threadId := input.threadId
  workspaceId
  executorKind := input.executorKind
  placement := input.placement
  checkout := input.checkout
  workspaceSeed
  generation := 1
  revision := 0
  lastLeaseEpoch := 0
  lifecycle := .pending

end

end

section

variable (store : Store)

section

variable (input : CreateConnectionInput)

def insertThreads (workspaceId : String) : Except ProductRepositoryError Store := do
  execute fails .insertHostedWorkspace
  execute fails .insertWorkspace
  execute fails .insertHostedThread
  let hostedThreads ← inserted store.hostedThreads (hostedThreadOf input workspaceId)
  execute fails .insertThread
  let threads ← inserted store.threads (threadOf input workspaceId)
  .ok
    { store with
      hostedWorkspaces := insertNew store.hostedWorkspaces (hostedWorkspaceOf input workspaceId)
      workspaces := insertNew store.workspaces ⟨input.authority.ownerId, workspaceId, input.now⟩
      hostedThreads
      threads }

def insertGrant : Except ProductRepositoryError Store :=
  match input.authority.owner, input.projectId, input.authority.membershipId with
  | .organizationOwner _, none, some membershipId => do
    execute fails .insertGrant
    let grants ← inserted store.grants
      ⟨input.authority.ownerId, input.threadId, membershipId, "owner", input.authority.userId, input.now, input.now⟩
    return { store with grants }
  | _, _, _ => .ok store

def insertAssignment (assignment : ExecutorAssignment) : Except ProductRepositoryError Store := do
  execute fails .insertAssignment
  if store.assignments.rows.any fun other => other.threadId = assignment.threadId then unavailable
  else
    let assignments ← inserted store.assignments assignment
    return { store with assignments }

def archiveSource : Except ProductRepositoryError Store :=
  match input.archiveThreadId with
  | none => .ok store
  | some source => do
    execute fails .archiveSource
    .ok
      { store with
        threads :=
          store.threads.update (fun thread => thread.id = source && thread.ownerId = input.authority.ownerId)
            (fun thread => { thread with archived := true, updatedAt := input.now }) fun _ => rfl }

/-- No two seeds are claimed by one assignment, which is a constraint of the table. -/
def claimWorkspaceSeed : Except ProductRepositoryError Store :=
  match input.workspaceSeedId with
  | none => .ok store
  | some seedId => do
    execute fails .claimSeed
    match (store.seeds.find seedId).filter fun staged =>
        staged.ownerId = input.authority.ownerId && staged.createdByUserId = input.authority.userId &&
          staged.createdByDeviceId = input.requestingDeviceId && staged.createdByClientId = input.requestingClientId with
    | none => failure .forbidden "Workspace seed is unavailable"
    | some _ =>
      if store.seeds.rows.any fun other =>
          other.id ≠ seedId && other.claimedAssignmentId = some input.assignmentId then unavailable
      else
        .ok
          { store with
            seeds :=
              store.seeds.update (fun staged => staged.id = seedId)
                (fun staged => { staged with claimedAssignmentId := some input.assignmentId }) fun _ => rfl }

def insertConnection (workspaceId : String) : Except ProductRepositoryError Store := do
  let workspaceSeed ← loadWorkspaceSeed fails store input
  let store ← insertThreads fails store input workspaceId
  let store ← insertGrant fails store input
  let store ← insertAssignment fails store (assignmentOf input workspaceId workspaceSeed)
  let store ← archiveSource fails store input
  let store ← claimWorkspaceSeed fails store input
  execute fails .commit
  return store

def createConnection : Except ProductRepositoryError (Store × CreateConnectionResult) :=
  if input.archiveThreadId = some input.threadId then
    failure .conflict "A replacement Thread cannot archive itself"
  else do
    execute fails .lock
    execute fails .readExisting
    match connection store input.threadId with
    | some existing =>
      return (store, if compatibleAgain existing input.toExistingConnectionInput then .existing else .incompatible)
    | none =>
      checkSource fails store input
      match ← chooseWorkspace fails store input with
      | .error refused => return (store, refused)
      | .ok workspaceId => return (← insertConnection fails store input workspaceId, .created)

end

end

end Transaction

section Requests

structure ProductActor where
  userId : String
  clientId : String
  deviceId : String

structure CreateThreadInput where
  actor : ProductActor
  threadId : String
  target : ExecutorKind
  projectId : Option String
  runnerTarget : Option RunnerTarget
  workspaceSeedId : Option String
  archiveThreadId : Option String

def CreateThreadInput.valid (input : CreateThreadInput) : Bool :=
  !(input.threadId.toList.all isBlank || 512 < (utf16 input.threadId).length ||
    decide (input.target = .runner) != input.runnerTarget.isSome ||
    input.target = .runner && input.workspaceSeedId.isSome)

def invalidPlacement : ProductControlError := ⟨.invalid, "Thread creation placement is invalid"⟩

def repositoryFailure (error : ProductRepositoryError) : ProductControlError :=
  ⟨error.kind, "Product metadata operation was rejected"⟩

def forbidden : ProductControlError := ⟨.forbidden, "Product operation is not authorized"⟩

def creationReceipt (threadId : String) : CreateConnectionResult → Except ProductControlError String
  | .incompatible => .error ⟨.conflict, "Thread identity has different creation input"⟩
  | .runnerMissing => .error ⟨.notFound, "Runner is unavailable"⟩
  | .runnerAuthorityMismatch | .runnerRemoteDenied => .error forbidden
  | .created | .existing => .ok threadId

def existingInput (input : CreateThreadInput) (authority : OwnerAuthority) : ExistingConnectionInput where
  authority
  projectId := input.projectId
  executorKind := input.target
  runnerTarget := input.runnerTarget
  workspaceSeedId := input.workspaceSeedId
  threadId := input.threadId
  archiveThreadId := input.archiveThreadId

structure OrbSettings where
  templateBuildId : String
  providerScope : String

structure Preparation where
  executorPolicy : ExecutorPolicy
  orb : Option OrbSettings
  lineageId : String
  checkout : Option RepositoryCheckout
  workspaceId : String
  assignmentId : String
  now : Millis

def creationPlacement (input : CreateThreadInput) (preparation : Preparation) :
    Except ProductControlError (Placement × Option RepositoryCheckout) :=
  match input.runnerTarget with
  | some target =>
    .ok
      (.runnerPlacement target.deviceId target.checkoutFingerprint input.actor.deviceId preparation.executorPolicy, none)
  | none =>
    match preparation.orb with
    | none => .error ⟨.unavailable, "Orb execution is not configured"⟩
    | some orb =>
      .ok
        (.orbPlacement orb.templateBuildId orb.providerScope preparation.executorPolicy preparation.lineageId,
          input.projectId.bind fun _ => preparation.checkout)

def connectionInput (input : CreateThreadInput) (authority : OwnerAuthority) (preparation : Preparation)
    (placement : Placement) (checkout : Option RepositoryCheckout) : CreateConnectionInput :=
  { existingInput input authority with
    requestingDeviceId := input.actor.deviceId
    requestingClientId := input.actor.clientId
    workspaceId := preparation.workspaceId
    assignmentId := preparation.assignmentId
    placement
    checkout
    now := preparation.now }

inductive Phase
  | submitted
  | authorized (authority : OwnerAuthority)
  | found (authority : OwnerAuthority) (existing : Bool)
  | granted (authority : OwnerAuthority)
  | ended (receipt : Except ProductControlError String)

structure Request where
  input : CreateThreadInput
  phase : Phase

inductive Answer
  | found (request : Nat) (input : ExistingConnectionInput) (result : CreateConnectionResult)
  | connected (request : Nat) (input : CreateConnectionInput) (result : CreateConnectionResult)

def Answer.input : Answer → ExistingConnectionInput
  | found _ input _ => input
  | connected _ input _ => input.toExistingConnectionInput

def Answer.result : Answer → CreateConnectionResult
  | found _ _ result => result
  | connected _ _ result => result

structure State where
  store : Store
  requests : List Request
  log : List Answer

def State.start : State := ⟨⟨.empty, .empty, .empty, .empty, .empty, .empty, .empty, .empty⟩, [], []⟩

inductive Event
  | submit (input : CreateThreadInput)
  | authorize (request : Nat) (outcome : Except ProductControlError OwnerAuthority)
  | lookUp (request : Nat) (fails : Bool)
  | grant (request : Nat) (outcome : Except ProductControlError Unit)
  | create (request : Nat) (outcome : Except ProductControlError Preparation) (fails : Failures)
  | stage (seed : StagedSeed)
  | register (runner : RunnerRegistration)

section

variable (s : State)

section

variable (request : Nat)

def State.settle (phase : Phase) : State :=
  { s with requests := s.requests.modify request fun old => { old with phase } }

def submit (input : CreateThreadInput) : State :=
  { s with requests := s.requests ++ [⟨input, if input.valid then .submitted else .ended (.error invalidPlacement)⟩] }

def authorize (outcome : Except ProductControlError OwnerAuthority) : State :=
  match outcome with
  | .error error => s.settle request (.ended (.error error))
  | .ok authority => s.settle request (.authorized authority)

def lookUp (input : CreateThreadInput) (authority : OwnerAuthority) (fails : Bool) : State :=
  if fails then s.settle request (.ended (.error (repositoryFailure ⟨.unavailable, "Database statement failed"⟩)))
  else
    match existingConnection s.store (existingInput input authority) with
    | none => s.settle request (.found authority false)
    | some result =>
      { s.settle request
          (if result = .incompatible then .ended (creationReceipt input.threadId result) else .found authority true) with
        log := s.log ++ [.found request (existingInput input authority) result] }

def grant (input : CreateThreadInput) (authority : OwnerAuthority) (existing : Bool)
    (outcome : Except ProductControlError Unit) : State :=
  match outcome with
  | .error error => s.settle request (.ended (.error error))
  | .ok () =>
    if existing then s.settle request (.ended (creationReceipt input.threadId .existing))
    else s.settle request (.granted authority)

def create (input : CreateThreadInput) (authority : OwnerAuthority)
    (outcome : Except ProductControlError Preparation) (fails : Failures) : State :=
  match outcome with
  | .error error => s.settle request (.ended (.error error))
  | .ok preparation =>
    match creationPlacement input preparation with
    | .error error => s.settle request (.ended (.error error))
    | .ok (placement, checkout) =>
      let connecting := connectionInput input authority preparation placement checkout
      match createConnection fails s.store connecting with
      | .error error => s.settle request (.ended (.error (repositoryFailure error)))
      | .ok (store, result) =>
        { s.settle request (.ended (creationReceipt input.threadId result)) with
          store
          log := s.log ++ [.connected request connecting result] }

end

end

def stageWorkspaceSeed (store : Store) (seed : StagedSeed) : Store :=
  if seed.manifest.id = seed.id && seed.createdAt < seed.expiresAt then
    { store with seeds := insertNew store.seeds { seed with claimedAssignmentId := none } }
  else store

def step (s : State) : Event → State
  | .submit input => submit s input
  | .authorize request outcome =>
    match s.requests[request]? with
    | some ⟨_, .submitted⟩ => authorize s request outcome
    | _ => s
  | .lookUp request fails =>
    match s.requests[request]? with
    | some ⟨input, .authorized authority⟩ => lookUp s request input authority fails
    | _ => s
  | .grant request outcome =>
    match s.requests[request]? with
    | some ⟨input, .found authority existing⟩ => grant s request input authority existing outcome
    | _ => s
  | .create request outcome fails =>
    match s.requests[request]? with
    | some ⟨input, .granted authority⟩ => create s request input authority outcome fails
    | _ => s
  | .stage seed => { s with store := stageWorkspaceSeed s.store seed }
  | .register runner => { s with store := { s.store with runners := s.store.runners.set runner } }

def run (events : List Event) : State := events.foldl step .start

end Requests

end Rika.ThreadCreation
