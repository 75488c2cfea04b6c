import Rika.AssignmentRuns

namespace Rika.DeviceAuthority

open Assignments (AssignmentStore Clock ExecutorKind Millis)

/-! ### CLI devices -/

/-- A row of `rika_cli_registration`. -/
structure CliRegistration where
  clientId : String
  deviceId : String
  jwkThumbprint : String
  userId : Option String
  revokedAt : Option Millis
deriving DecidableEq

structure IdentityPrincipal where
  userId : String
  clientId : Option String
  dpopJkt : Option String

/-- A row of `rika_hosted_devices`, which is an `AuthenticatedDevice` too. -/
structure Device where
  id : String
  userId : String
  displayName : String
  publicKeyFingerprint : String
  createdAt : Millis
  lastSeenAt : Millis
  revokedAt : Option Millis

/-- A row of `rika_hosted_clients`, which is an `AuthenticatedClient` too. -/
structure Client where
  id : String
  userId : String
  deviceId : String
  authenticatedAt : Millis
  lastSeenAt : Millis
  expiresAt : Millis
  revokedAt : Option Millis

/-- A row of `rika_hosted_client_authorities`. -/
structure ClientAuthority where
  clientId : String
  ownerId : String
  issuedAt : Millis
  expiresAt : Millis
  revokedAt : Option Millis

def ClientAuthority.key (row : ClientAuthority) : String × String := (row.clientId, row.ownerId)

structure ProductActor where
  userId : String
  clientId : String
  deviceId : String
  dpopJkt : String

/-- The tables, and the requests that may carry on. `oauthClients` are the clients that a
registration may be of. -/
structure Store where
  oauthClients : List String
  registrations : Table CliRegistration.clientId
  devices : Table Device.id
  clients : Table Client.id
  authorities : Table ClientAuthority.key
  assignments : AssignmentStore
  requests : List ProductActor

section

variable (revokedAt : Millis)

def Device.withoutAuthority (row : Device) : Device :=
  { row with revokedAt := row.revokedAt <|> some revokedAt }

theorem Device.withoutAuthority_id (row : Device) : (row.withoutAuthority revokedAt).id = row.id := rfl

def Client.withoutAuthority (row : Client) : Client :=
  { row with revokedAt := row.revokedAt <|> some revokedAt }

theorem Client.withoutAuthority_id (row : Client) : (row.withoutAuthority revokedAt).id = row.id := rfl

def ClientAuthority.withoutAuthority (row : ClientAuthority) : ClientAuthority :=
  { row with revokedAt := row.revokedAt <|> some revokedAt }

theorem ClientAuthority.withoutAuthority_key (row : ClientAuthority) :
    (row.withoutAuthority revokedAt).key = row.key := rfl

end

def CliRegistration.isOf (old : CliRegistration) (deviceId userId : String) : Bool :=
  deviceId = old.deviceId && some userId = old.userId

/-- `rika_hosted_revoke_device_authority`, once a row has become revoked or is deleted. -/
def revokeDeviceAuthority (store : Store) (now : Clock) (old : CliRegistration) : Store :=
  { store with
    devices := store.devices.update (fun row => old.isOf row.id row.userId) (Device.withoutAuthority now.transaction)
      (Device.withoutAuthority_id now.transaction)
    clients := store.clients.update (fun row => old.isOf row.deviceId row.userId)
      (Client.withoutAuthority now.transaction) (Client.withoutAuthority_id now.transaction)
    authorities := store.authorities.update
      (fun row => (store.clients.find row.clientId).any fun client => old.isOf client.deviceId client.userId)
      (ClientAuthority.withoutAuthority now.transaction) (ClientAuthority.withoutAuthority_key now.transaction)
    assignments := Assignments.revokeDevices store.assignments now none [old.deviceId] }

structure CliDeviceRegistration where
  clientId : String
  deviceId : String
  jwkThumbprint : String

/-- `register`: the columns are unique, and a registration may be repeated until it is used. -/
def register (store : Store) (input : CliDeviceRegistration) : Option Store :=
  let taken (row : CliRegistration) : Bool :=
    row.clientId ≠ input.clientId && (row.deviceId = input.deviceId || row.jwkThumbprint = input.jwkThumbprint)
  if input.clientId ∉ store.oauthClients then none
  else if store.registrations.rows.any taken then none
  else
    match store.registrations.find input.clientId with
    | none =>
      some
        { store with
          registrations := store.registrations.set ⟨input.clientId, input.deviceId, input.jwkThumbprint, none, none⟩ }
    | some row =>
      if row.deviceId = input.deviceId ∧ row.userId = none ∧ row.revokedAt = none then
        some { store with registrations := store.registrations.set { row with jwkThumbprint := input.jwkThumbprint } }
      else none

def CliRegistration.authenticates (row : CliRegistration) (clientId dpopJkt userId : String) : Bool :=
  row.clientId = clientId && row.jwkThumbprint = dpopJkt && row.revokedAt = none && row.userId.all (· = userId)

def authenticatedRow (userId : String) (row : CliRegistration) : CliRegistration := { row with userId := some userId }

theorem authenticatedRow_clientId (userId : String) (row : CliRegistration) :
    (authenticatedRow userId row).clientId = row.clientId := rfl

def authenticate (store : Store) (principal : IdentityPrincipal) : Option String × Store :=
  match principal.clientId, principal.dpopJkt with
  | some clientId, some dpopJkt =>
    ((store.registrations.select fun row => row.authenticates clientId dpopJkt principal.userId).head?.map (·.deviceId),
      { store with
        registrations := store.registrations.update (fun row => row.authenticates clientId dpopJkt principal.userId)
          (authenticatedRow principal.userId) (authenticatedRow_clientId principal.userId) })
  | _, _ => (none, store)

def revokedRow (revokedAt : Millis) (row : CliRegistration) : CliRegistration := { row with revokedAt := some revokedAt }

theorem revokedRow_clientId (revokedAt : Millis) (row : CliRegistration) :
    (revokedRow revokedAt row).clientId = row.clientId := rfl

section

variable (store : Store)

def revoked (userId : String) (deviceId : Option String) : List CliRegistration :=
  store.registrations.select fun row =>
    row.userId = some userId && deviceId.all (· = row.deviceId) && row.revokedAt = none

def revokeRegistrations (now : Clock) (userId : String) (deviceId : Option String) : Store :=
  (revoked store userId deviceId).foldl (fun store old => revokeDeviceAuthority store now old)
    { store with
      registrations := store.registrations.update
        (fun row => row.userId = some userId && deviceId.all (· = row.deviceId) && row.revokedAt = none)
        (revokedRow now.transaction) (revokedRow_clientId now.transaction) }

/-- `revoke`, after it has authenticated. -/
def revoke (now : Clock) (userId deviceId : String) : Store :=
  revokeRegistrations store now userId (some deviceId)

def revokeAll (now : Clock) (userId : String) : Store := revokeRegistrations store now userId none

/-- `discard`: the registration goes with its client. -/
def discarded (clientId : String) : List CliRegistration :=
  store.registrations.select fun row => row.clientId = clientId

def discard (now : Clock) (clientId : String) : Store :=
  (discarded store clientId).foldl (fun store old => revokeDeviceAuthority store now old)
    { store with
      oauthClients := store.oauthClients.filter (· ≠ clientId)
      registrations := store.registrations.delete fun row => row.clientId = clientId }

end

/-! ### Hosted authority -/

inductive HostedOwner
  | personalOwner (userId : String)
  | organizationOwner (organizationId : String)

structure OwnerRow where
  id : String
  owner : HostedOwner

structure IdentityMember where
  id : String
  organizationId : String
  userId : String

inductive GrantRole
  | viewer
  | controller
  | operator
  | owner

/-- A row of `rika_hosted_threads`. -/
structure ThreadRow where
  ownerId : String
  id : String
  createdByUserId : String
  projectId : Option String
  executorKind : ExecutorKind
  inheritProjectGrants : Bool

/-- A row of `rika_hosted_thread_grants` or `rika_hosted_project_grants`: `id` is the thread
or the project. -/
structure GrantRow where
  ownerId : String
  id : String
  membershipId : String
  role : GrantRole

structure World where
  owners : List OwnerRow
  members : List IdentityMember
  threads : List ThreadRow
  threadGrants : List GrantRow
  projectGrants : List GrantRow

inductive PersistenceErrorReason
  | database
  | invalidAuthority
deriving DecidableEq

structure HostedPersistenceError where
  reason : PersistenceErrorReason
  message : String
deriving DecidableEq

def failure {α : Type} (message : String) : Except HostedPersistenceError α := .error ⟨.invalidAuthority, message⟩

def databaseError {α : Type} (cause : String) : Except HostedPersistenceError α :=
  .error ⟨.database, s!"PostgreSQL operation failed: {cause}"⟩

structure RegisterDeviceInput where
  id : String
  userId : String
  displayName : String
  publicKeyFingerprint : String
  now : Millis

def RegisterDeviceInput.device (input : RegisterDeviceInput) : Device where
  id := input.id
  userId := input.userId
  displayName := input.displayName
  publicKeyFingerprint := input.publicKeyFingerprint
  createdAt := input.now
  lastSeenAt := input.now
  revokedAt := none

def registeredDevice (input : RegisterDeviceInput) (row : Device) : Device :=
  { row with
    displayName := input.displayName
    publicKeyFingerprint := input.publicKeyFingerprint
    lastSeenAt := input.now }

def deviceViolation (store : Store) (device : Device) : Bool :=
  device.displayName = "" || device.publicKeyFingerprint = "" ||
    store.devices.rows.any fun row =>
      row.id ≠ device.id && row.userId = device.userId && row.publicKeyFingerprint = device.publicKeyFingerprint

def registerDevice (store : Store) (input : RegisterDeviceInput) : Except HostedPersistenceError (Store × Device) :=
  match store.devices.find input.id with
  | none =>
    if deviceViolation store input.device then databaseError "a constraint is violated"
    else .ok ({ store with devices := store.devices.set input.device }, input.device)
  | some row =>
    if row.userId ≠ input.userId ∨ row.revokedAt ≠ none then failure "Device identity cannot be reassigned"
    else if deviceViolation store (registeredDevice input row) then databaseError "a constraint is violated"
    else .ok ({ store with devices := store.devices.set (registeredDevice input row) }, registeredDevice input row)

structure AuthenticateClientInput where
  id : String
  userId : String
  deviceId : String
  now : Millis
  expiresAt : Millis

def AuthenticateClientInput.client (input : AuthenticateClientInput) : Client where
  id := input.id
  userId := input.userId
  deviceId := input.deviceId
  authenticatedAt := input.now
  lastSeenAt := input.now
  expiresAt := input.expiresAt
  revokedAt := none

def authenticatedClient (input : AuthenticateClientInput) (row : Client) : Client :=
  { row with authenticatedAt := input.now, lastSeenAt := input.now, expiresAt := input.expiresAt }

def shortLived : Millis := 300000

def activeDevice (store : Store) (deviceId userId : String) : Bool :=
  (store.devices.find deviceId).any fun device => device.userId = userId && device.revokedAt = none

def authenticateClient (store : Store) (input : AuthenticateClientInput) :
    Except HostedPersistenceError (Store × Client) :=
  let inactive {α : Type} : Except HostedPersistenceError α :=
    failure "Client device is inactive, foreign, or exceeds five minutes"
  if ¬(activeDevice store input.deviceId input.userId && input.now < input.expiresAt &&
      input.expiresAt ≤ input.now + shortLived) then inactive
  else
    match store.clients.find input.id with
    | none => .ok ({ store with clients := store.clients.set input.client }, input.client)
    | some row =>
      if row.userId ≠ input.userId ∨ row.deviceId ≠ input.deviceId ∨ row.revokedAt ≠ none then inactive
      else .ok ({ store with clients := store.clients.set (authenticatedClient input row) }, authenticatedClient input row)

inductive ActorAttribution
  | personalActor (ownerUserId userId clientId deviceId : String)
  | organizationActor (organizationId userId membershipId clientId deviceId : String)

namespace ActorAttribution

def userId : ActorAttribution → String
  | personalActor _ userId _ _ | organizationActor _ userId _ _ _ => userId

def clientId : ActorAttribution → String
  | personalActor _ _ clientId _ | organizationActor _ _ _ clientId _ => clientId

def deviceId : ActorAttribution → String
  | personalActor _ _ _ deviceId | organizationActor _ _ _ _ deviceId => deviceId

def membershipId : ActorAttribution → Option String
  | personalActor _ _ _ _ => none
  | organizationActor _ _ membershipId _ _ => some membershipId

end ActorAttribution

structure GrantClientAuthorityInput where
  ownerId : String
  actor : ActorAttribution
  now : Millis
  expiresAt : Millis

def mayAct (world : World) (owner : HostedOwner) (actor : ActorAttribution) (userId : String) : Bool :=
  match owner, actor with
  | .personalOwner ownerUserId, .personalActor _ _ _ _ => ownerUserId = userId
  | .organizationOwner organizationId, .organizationActor _ _ membershipId _ _ =>
    world.members.any fun member =>
      member.organizationId = organizationId && member.id = membershipId && member.userId = userId
  | _, _ => false

def grantedAuthority (input : GrantClientAuthorityInput) (client : Client) : ClientAuthority where
  clientId := client.id
  ownerId := input.ownerId
  issuedAt := input.now
  expiresAt := min input.expiresAt client.expiresAt
  revokedAt := none

/-- A conflicting authority is written over whole, its revocation too. -/
def grantClientAuthority (store : Store) (world : World) (input : GrantClientAuthorityInput) :
    Except HostedPersistenceError Store :=
  match world.owners.find? (·.id = input.ownerId), store.clients.find input.actor.clientId with
  | some owner, some client =>
    if client.userId = input.actor.userId ∧ client.deviceId = input.actor.deviceId ∧ client.revokedAt = none ∧
        input.now < client.expiresAt ∧ activeDevice store client.deviceId client.userId = true ∧
        input.now < input.expiresAt ∧ input.expiresAt ≤ input.now + shortLived ∧
        mayAct world owner.owner input.actor client.userId = true then
      .ok { store with authorities := store.authorities.set (grantedAuthority input client) }
    else failure "Client owner authority is inactive or foreign"
  | _, _ => failure "Client owner authority is inactive or foreign"

structure ActiveClient where
  deviceId : String
  userId : String
  clientId : String

def actsFor (world : World) (owner : HostedOwner) (actor : ActorAttribution) (userId : String) : Bool :=
  match owner, actor with
  | .personalOwner ownerUserId, .personalActor actorOwner _ _ _ => ownerUserId = userId && ownerUserId = actorOwner
  | .organizationOwner organizationId, .organizationActor actorOrganization _ membershipId _ _ =>
    organizationId = actorOrganization &&
      world.members.any fun member =>
        member.organizationId = organizationId && member.id = membershipId && member.userId = userId
  | _, _ => false

def membershipStands (world : World) : ActorAttribution → Bool
  | .personalActor _ _ _ _ => true
  | .organizationActor organizationId userId membershipId _ _ =>
    world.members.any fun member =>
      member.id = membershipId && member.organizationId = organizationId && member.userId = userId

def requireActiveClient (store : Store) (world : World) (ownerId : String) (actor : ActorAttribution)
    (expiresAfter : Millis) : Except HostedPersistenceError ActiveClient :=
  if ¬membershipStands world actor then failure "The organization membership is inactive or foreign"
  else
    let inactive {α : Type} : Except HostedPersistenceError α :=
      failure "The authenticated client authority is inactive or foreign"
    match world.owners.find? (·.id = ownerId), store.authorities.find (actor.clientId, ownerId),
        store.clients.find actor.clientId, store.devices.find actor.deviceId with
    | some owner, some authority, some client, some device =>
      if client.userId = actor.userId ∧ device.id = client.deviceId ∧ device.userId = client.userId ∧
          client.revokedAt = none ∧ device.revokedAt = none ∧ authority.revokedAt = none ∧
          expiresAfter < client.expiresAt ∧ expiresAfter < authority.expiresAt ∧
          actsFor world owner.owner actor client.userId = true then
        .ok ⟨device.id, client.userId, client.id⟩
      else inactive
    | _, _, _, _ => inactive

inductive AuthorizationAction
  | projectView
  | projectUpdate
  | projectGrant
  | threadView
  | threadControl
  | threadOperate
  | threadGrant
  | terminalView
  | terminalInput
  | presenceView
  | presenceUpdate
  | workspaceFileView
  | workspaceBrowserControl
  | workspaceServiceControl

def rank : GrantRole → Nat
  | .viewer => 1
  | .controller => 2
  | .operator => 3
  | .owner => 4

def required : AuthorizationAction → Nat
  | .projectView | .threadView | .terminalView | .presenceView | .presenceUpdate | .workspaceFileView => rank .viewer
  | .threadControl | .terminalInput | .workspaceBrowserControl | .workspaceServiceControl => rank .controller
  | .projectUpdate | .threadOperate => rank .operator
  | .projectGrant | .threadGrant => rank .owner

def AuthorizationAction.ofProject : AuthorizationAction → Bool
  | .projectView | .projectUpdate | .projectGrant => true
  | _ => false

/-- The creator is let through before this is asked, so that no subject names one. -/
structure AuthorizationSubject where
  memberId : String
  executorKind : ExecutorKind
  inheritProjectGrants : Bool
  projectRole : Option GrantRole
  threadRole : Option GrantRole

def effectiveThreadRank (subject : AuthorizationSubject) : Nat :=
  let direct := subject.threadRole.elim 0 rank
  let inherited :=
    if subject.executorKind = .orb ∧ subject.inheritProjectGrants = true then subject.projectRole.elim 0 rank else 0
  max direct inherited

def isAuthorized (subject : AuthorizationSubject) (action : AuthorizationAction) : Bool :=
  if action.ofProject then required action ≤ subject.projectRole.elim 0 rank
  else required action ≤ effectiveThreadRank subject

def grantOf (grants : List GrantRow) (ownerId id membershipId : String) : Option GrantRole :=
  (grants.find? fun row => row.ownerId = ownerId && row.id = id && row.membershipId = membershipId).map (·.role)

def requireThreadGrant (world : World) (ownerId threadId userId : String) (membershipId : Option String)
    (action : AuthorizationAction) : Except HostedPersistenceError Unit :=
  match world.threads.find? fun row => row.ownerId = ownerId && row.id = threadId with
  | none => failure "Resource is unavailable"
  | some thread =>
    match membershipId with
    | none => .ok ()
    | some membershipId =>
      if thread.createdByUserId = userId then .ok ()
      else
        let inherited :=
          if thread.executorKind = .orb ∧ thread.inheritProjectGrants = true then
            thread.projectId.bind fun projectId => grantOf world.projectGrants ownerId projectId membershipId
          else none
        if isAuthorized
            ⟨membershipId, thread.executorKind, thread.inheritProjectGrants, inherited,
              grantOf world.threadGrants ownerId threadId membershipId⟩ action then
          .ok ()
        else failure "Resource is unavailable"

structure ThreadAccessInput where
  ownerId : String
  threadId : String
  actor : ActorAttribution

/-- `expiresAfter` is the time that is given, or the transaction's. -/
def requireThreadAccess (store : Store) (world : World) (input : ThreadAccessInput) (action : AuthorizationAction)
    (expiresAfter : Millis) : Except HostedPersistenceError Unit :=
  match requireActiveClient store world input.ownerId input.actor expiresAfter with
  | .error error => .error error
  | .ok _ =>
    requireThreadGrant world input.ownerId input.threadId input.actor.userId input.actor.membershipId action

/-! ### Interleavings -/

/-- One statement, with the triggers that it fires. A request that has authenticated its
device names itself by its place in `requests`. -/
inductive Event
  | issueClient (clientId : String)
  | register (input : CliDeviceRegistration)
  | discard (now : Clock) (clientId : String)
  | authenticate (principal : IdentityPrincipal)
  | revoke (now : Clock) (userId deviceId : String)
  | revokeAll (now : Clock) (userId : String)
  | registerDevice (request : Nat) (now : Millis)
  | authenticateClient (request : Nat) (now expiresAt : Millis)
  | grantClientAuthority (world : World) (input : GrantClientAuthorityInput)
  | assignment (now : Clock) (call : Assignments.Call)

def ProductActor.registration (actor : ProductActor) (now : Millis) : RegisterDeviceInput :=
  ⟨actor.deviceId, actor.userId, "Rika CLI", actor.dpopJkt, now⟩

def ProductActor.client (actor : ProductActor) (now expiresAt : Millis) : AuthenticateClientInput :=
  ⟨actor.clientId, actor.userId, actor.deviceId, now, expiresAt⟩

def authenticatedRequest (principal : IdentityPrincipal) (deviceId : Option String) : List ProductActor :=
  match principal.clientId, principal.dpopJkt, deviceId with
  | some clientId, some dpopJkt, some deviceId => [⟨principal.userId, clientId, deviceId, dpopJkt⟩]
  | _, _, _ => []

/-- A statement that fails changes nothing. -/
def step (store : Store) : Event → Store
  | .issueClient clientId => { store with oauthClients := store.oauthClients ++ [clientId] }
  | .register input => (register store input).getD store
  | .discard now clientId => discard store now clientId
  | .authenticate principal =>
    let (deviceId, store) := authenticate store principal
    { store with requests := store.requests ++ authenticatedRequest principal deviceId }
  | .revoke now userId deviceId => revoke store now userId deviceId
  | .revokeAll now userId => revokeAll store now userId
  | .registerDevice request now =>
    match store.requests[request]? with
    | none => store
    | some actor => ((registerDevice store (actor.registration now)).map (·.1)).toOption.getD store
  | .authenticateClient request now expiresAt =>
    match store.requests[request]? with
    | none => store
    | some actor => ((authenticateClient store (actor.client now expiresAt)).map (·.1)).toOption.getD store
  | .grantClientAuthority world input => (grantClientAuthority store world input).toOption.getD store
  | .assignment now call =>
    { store with assignments := (Assignments.serve store.assignments now call).toOption.getD store.assignments }

def Event.revokes (store : Store) : Event → List CliRegistration
  | .discard _ clientId => discarded store clientId
  | .revoke _ userId deviceId => revoked store userId (some deviceId)
  | .revokeAll _ userId => revoked store userId none
  | _ => []

def start (assignments : AssignmentStore) : Store := ⟨[], .empty, .empty, .empty, .empty, assignments, []⟩

def run (store : Store) (events : List Event) : Store := events.foldl step store

end Rika.DeviceAuthority
