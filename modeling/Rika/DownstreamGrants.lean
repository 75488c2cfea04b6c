import Rika.Fold
import Rika.InsertionMap

namespace Rika.ProductAuthority

inductive Role
  | controller
  | spectator
deriving DecidableEq

structure Principal where
  id : String
  tenantId : String
  role : Role
deriving DecidableEq

structure IdentityPrincipal where
  userId : String
  clientId : Option String
deriving DecidableEq

structure AuthenticatedActor where
  identity : IdentityPrincipal
  deviceId : String
  principal : Principal

structure DownstreamGrant where
  principal : Principal
  identity : IdentityPrincipal
  ownerId : String
  threadId : String
  requestUrl : String
  requestMethod : String
  expiresAt : Int
  remainingUses : Nat
deriving DecidableEq

/-- A forwarded request: its owner and thread, and its headers
`x-rika-original-request-url` and `x-rika-original-request-method`. -/
structure DownstreamContext where
  ownerId : String
  threadId : String
  originalUrl : Option String
  originalMethod : Option String

structure DownstreamCredentialInput where
  principal : Principal
  ownerId : String
  threadId : String
  requestUrl : String
  requestMethod : String

/-- An authentication that waits for its device check, with the grant that it
read and the time at which it did. -/
structure DeviceCheck where
  credential : String
  context : DownstreamContext
  grant : DownstreamGrant
  readAt : Int

structure Issue where
  credential : String
  grant : DownstreamGrant

structure Authentication where
  credential : String
  context : DownstreamContext
  readAt : Int
  principal : Principal

/-- The two maps of the authority, the device checks under way, and what has
been issued and authenticated so far. -/
structure State where
  actors : InsertionMap String AuthenticatedActor
  grants : InsertionMap String DownstreamGrant
  checks : List DeviceCheck
  issues : List Issue
  authentications : List Authentication

inductive Input
  | rememberActor (principal : Principal) (identity : IdentityPrincipal) (deviceId : String)
  | downstreamCredential (input : DownstreamCredentialInput) (now : Int) (uuid : String)
  | authenticateDownstream (credential : String) (context : DownstreamContext) (now : Int)
  | checked (check : Nat) (deviceId : Option String)
  | unavailable (check : Nat)

def downstreamGrantLifetimeMillis : Int := 10000

def downstreamGrantUses : Nat := 4

/-- `if (map.size > 256) map.delete(map.keys().next().value)`. -/
def deleteOldest {ν : Type} (map : InsertionMap String ν) : InsertionMap String ν :=
  if 256 < map.size then
    match map.keys.head? with
    | none => map
    | some oldest => map.delete oldest
  else map

/-- Whether a grant refuses the request at `now`. -/
def DownstreamGrant.refuses (grant : DownstreamGrant) (context : DownstreamContext) (now : Int) : Bool :=
  grant.expiresAt ≤ now || grant.remainingUses = 0 || grant.ownerId ≠ context.ownerId ||
    grant.threadId ≠ context.threadId || context.originalUrl ≠ some grant.requestUrl ||
      context.originalMethod ≠ some grant.requestMethod

namespace State

def make : State := ⟨InsertionMap.empty, InsertionMap.empty, [], [], []⟩

variable (state : State)

def rememberActor (principal : Principal) (identity : IdentityPrincipal) (deviceId : String) : State :=
  { state with
    actors := deleteOldest ((state.actors.delete principal.id).set principal.id ⟨identity, deviceId, principal⟩) }

def downstreamCredential (input : DownstreamCredentialInput) (now : Int) (uuid : String) : State :=
  match state.actors.get input.principal.id with
  | none => state
  | some actor =>
    if actor.principal.tenantId ≠ input.ownerId then state
    else
      let credential := "rika-ds-" ++ uuid
      let grant : DownstreamGrant :=
        { principal := input.principal
          identity := actor.identity
          ownerId := input.ownerId
          threadId := input.threadId
          requestUrl := input.requestUrl
          requestMethod := input.requestMethod
          expiresAt := now + downstreamGrantLifetimeMillis
          remainingUses := downstreamGrantUses }
      { state with
        grants := deleteOldest (state.grants.set credential grant)
        issues := state.issues ++ [⟨credential, grant⟩] }

/-- `authenticateDownstream` up to its device check. -/
def authenticateDownstream (credential : String) (context : DownstreamContext) (now : Int) : State :=
  match state.grants.get credential with
  | none => state
  | some grant =>
    if grant.refuses context now then
      if grant.expiresAt ≤ now then { state with grants := state.grants.delete credential } else state
    else { state with checks := state.checks ++ [⟨credential, context, grant, now⟩] }

def accepts (check : DeviceCheck) (deviceId : Option String) : Bool :=
  deviceId.isSome && deviceId = (state.actors.get check.grant.principal.id).map (·.deviceId)

/-- What follows the device check: the grant is written back from the copy that was read. -/
def checked (check : DeviceCheck) (deviceId : Option String) : State :=
  if !state.accepts check deviceId then { state with grants := state.grants.delete check.credential }
  else
    { state with
      grants :=
        if check.grant.remainingUses = 1 then state.grants.delete check.credential
        else
          state.grants.set check.credential { check.grant with remainingUses := check.grant.remainingUses - 1 }
      authentications :=
        state.authentications ++ [⟨check.credential, check.context, check.readAt, check.grant.principal⟩] }

def settleCheck (check : Nat) : State := { state with checks := state.checks.eraseIdx check }

def step : Input → State
  | .rememberActor principal identity deviceId => state.rememberActor principal identity deviceId
  | .downstreamCredential input now uuid => state.downstreamCredential input now uuid
  | .authenticateDownstream credential context now => state.authenticateDownstream credential context now
  | .checked check deviceId =>
    match state.checks[check]? with
    | none => state
    | some waiting => (state.settleCheck check).checked waiting deviceId
  | .unavailable check => state.settleCheck check

def run (inputs : List Input) : State := inputs.foldl step make

def uses (credential : String) : Nat := state.authentications.countP fun authentication => authentication.credential = credential

def Issued (credential : String) : Prop := credential ∈ state.issues.map (·.credential)

instance (credential : String) : Decidable (state.Issued credential) := inferInstanceAs (Decidable (_ ∈ _))

end State

end Rika.ProductAuthority
