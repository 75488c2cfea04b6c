import Rika.Base64Url

namespace Rika.OpenAiService

abbrev Text := List Char

inductive AuthErrorKind
  | cancelled
  | timeout
  | host
  | network
  | protocol
  | accountMismatch
  | loginRequired

structure AuthError where
  kind : AuthErrorKind
  message : String

inductive StoreErrorKind
  | missing
  | corrupt
  | unsafeFile
  | busy
  | io

structure StoreError where
  kind : StoreErrorKind
  message : String

inductive Failure
  | auth (error : AuthError)
  | store (error : StoreError)

structure TokenResponse where
  accessToken : Option Text
  idToken : Option Text
  refreshToken : Option Text
  expiresIn : Option Int

structure CredentialDisk where
  accessToken : Text
  idToken : Text
  refreshToken : Text
  accountId : Text
  fingerprint : Text
  generation : Text
  expiresAt : Int
  refreshedAt : Int
deriving DecidableEq

structure IdentityClaims where
  chatgptAccountId : Option Text
  chatgptUserId : Option Text
  userId : Option Text

/-- What the service uses of its platform: SHA-256, UTF-8, and what is read from the text of a
token's payload. -/
structure Platform where
  digest : List Nat → List Nat
  utf8 : Text → List Nat
  decodeBase64UrlString : Text → Option Text
  identityClaims : Text → Option IdentityClaims
  expiryClaims : Text → Option (Option Int)

section Flow

structure Tokens where
  accessToken : Text
  idToken : Text
  refreshToken : Text

def requiredTokens (response : TokenResponse) (previous : Option CredentialDisk) : Option Tokens := do
  let accessToken ← response.accessToken.or (previous.map (·.accessToken))
  let idToken ← response.idToken.or (previous.map (·.idToken))
  let refreshToken ← response.refreshToken.or (previous.map (·.refreshToken))
  return ⟨accessToken, idToken, refreshToken⟩

def validExpiry (value : Option Int) : Bool := value.all fun value => 0 ≤ value && value ≤ 9007199254740991

def expiryAt (now : Int) (response : TokenResponse) (tokenExpiry : Option Int) (previous : Option CredentialDisk) : Int :=
  match response.accessToken, response.expiresIn with
  | some _, some expiresIn => now + expiresIn * 1000
  | _, _ =>
    match tokenExpiry with
    | some tokenExpiry => tokenExpiry * 1000
    | none => (previous.map (·.expiresAt)).getD (now + 8 * 86400000)

def protocolError {α : Type} (message : String) : Except AuthError α := .error ⟨.protocol, message⟩

def decodeJwt {α : Type} (platform : Platform) (claims : Text → Option α) (token : Text) : Except AuthError α :=
  match (token.splitOn '.')[1]? with
  | none => protocolError "Token payload is malformed"
  | some part =>
    match platform.decodeBase64UrlString part with
    | none => protocolError "Token payload is malformed"
    | some decoded =>
      match claims decoded with
      | none => protocolError "Token claims are incomplete"
      | some claims => .ok claims

def fingerprintOf (platform : Platform) (accountId userId : Text) : Text :=
  Base64Url.encode (platform.digest (platform.utf8 (accountId ++ Char.ofNat 0 :: userId)))

abbrev RandomBytes := List (Fin 256)

def generationOf (fingerprint : Text) (random : RandomBytes) : Text :=
  fingerprint ++ '.' :: Base64Url.encode (random.map (·.val))

def tokenExpiryOf (platform : Platform) (accessToken : Text) : Option Int :=
  match decodeJwt platform platform.expiryClaims accessToken with
  | .error _ => none
  | .ok expiry => expiry

def credentialFrom (platform : Platform) (now : Int) (random : RandomBytes) (response : TokenResponse)
    (previous : Option CredentialDisk) : Except AuthError CredentialDisk :=
  match requiredTokens response previous with
  | none => protocolError "Token exchange was incomplete"
  | some tokens =>
    match decodeJwt platform platform.identityClaims tokens.idToken with
    | .error error => .error error
    | .ok identity =>
      match identity.chatgptAccountId, identity.chatgptUserId.or identity.userId with
      | some accountId, some userId =>
        let fingerprint := fingerprintOf platform accountId userId
        if previous.any fun previous => fingerprint ≠ previous.fingerprint then
          .error ⟨.accountMismatch, "Refreshed credentials belong to a different account; login is required"⟩
        else if !validExpiry response.expiresIn || !validExpiry (tokenExpiryOf platform tokens.accessToken) then
          protocolError "Token expiry is invalid"
        else
          .ok
            { accessToken := tokens.accessToken
              idToken := tokens.idToken
              refreshToken := tokens.refreshToken
              accountId
              fingerprint
              generation := generationOf fingerprint random
              expiresAt := expiryAt now response (tokenExpiryOf platform tokens.accessToken) previous
              refreshedAt := now }
      | _, _ => protocolError "Required identity claims are missing"

end Flow

def expectedFingerprint (generation : Text) : Option Text :=
  if '.' ∈ generation then some (generation.reverse.dropWhile (· ≠ '.')).tail.reverse else none

inductive Outcome
  | credential (value : CredentialDisk)
  | removed (value : Bool)
  | failed (failure : Failure)
  | interrupted

/-- Where a call is. The last calls of a login and of a refresh, from the answer of the token
endpoint on, are not interrupted. -/
inductive Phase
  | acquiring
  | waiting (generation : Text)
  | loading (generation : Text)
  | refreshing (current : CredentialDisk)
  | minting (previous : Option CredentialDisk) (response : TokenResponse)
  | saving (previous : Option CredentialDisk) (credential : CredentialDisk)
  | authorizing (state : Text)
  | starting (timeout : Int)
  | polling (deadline : Int)
  | exchanging
  | exchanged (response : TokenResponse)
  | leaving
  | removing
  | ended (outcome : Outcome)

def Phase.holds : Phase → Bool
  | loading _ | refreshing _ | minting _ _ | saving _ _ | removing => true
  | _ => false

def Phase.interruptible : Phase → Bool
  | minting _ _ | saving _ _ | exchanged _ | removing | ended _ => false
  | _ => true

inductive Call
  | acquire
  | refreshRejected (generation : Text)
  | loginBrowser (state : Text)
  | loginDevice (timeout : Int)
  | logout

def Call.first : Call → Phase
  | acquire => .acquiring
  | refreshRejected generation => .waiting generation
  | loginBrowser state => .authorizing state
  | loginDevice timeout => .starting timeout
  | logout => .leaving

inductive Action
  | load (now : Int)
  | enter
  | loadCurrent
  | answer (response : TokenResponse)
  | mint (now : Int) (random : RandomBytes)
  | save
  | remove
  | authorize (state : Text)
  | deviceStart (interval : Text) (now : Int)
  | devicePoll (before : Int) (polled : Option Bool) (after : Int)
  | fail (failure : Failure)
  | interrupt

/-- What happened to the credential, and which was given to whom. -/
inductive Entry
  | requested (refreshToken : Text)
  | refreshed (previous credential : CredentialDisk)
  | loggedIn (credential : CredentialDisk)
  | removed
  | handed (presented : Option Text) (credential : CredentialDisk)

/-- What a step of a call makes of the stored credential, and what of the call. -/
structure Advance where
  phase : Phase
  value : Option CredentialDisk
  entries : List Entry

def authFailure (kind : AuthErrorKind) (message : String) : Phase := .ended (.failed (.auth ⟨kind, message⟩))

def loginRequired : Phase := authFailure .loginRequired "Login is required"

/-- The blanks that `trim` removes. -/
def isBlank (c : Char) : Bool :=
  c.toNat ∈ [9, 10, 11, 12, 13, 32, 0xA0, 0x1680, 0x2028, 0x2029, 0x202F, 0x205F, 0x3000, 0xFEFF] ||
    0x2000 ≤ c.toNat && c.toNat ≤ 0x200A

def trim (text : Text) : Text := ((text.dropWhile isBlank).reverse.dropWhile isBlank).reverse

def pollingInterval (interval : Text) : Option Nat :=
  let digits := trim interval
  if digits ≠ [] && digits.all (·.isDigit) then
    (some (digits.foldl (fun value digit => 10 * value + (digit.toNat - 48)) 0)).filter fun value =>
      1 ≤ value && value ≤ 9007199254740991
  else none

/-- `refreshGeneration`, once the current credential is loaded. -/
def refreshCurrent (value : Option CredentialDisk) (generation : Text) : Advance :=
  match value with
  | none => ⟨loginRequired, value, []⟩
  | some current =>
    if current.generation ≠ generation then
      if (expectedFingerprint generation).any fun fingerprint => fingerprint ≠ current.fingerprint then
        ⟨authFailure .accountMismatch "OpenAI account changed while the request was active; start the turn again", value,
          []⟩
      else ⟨.ended (.credential current), value, [.handed (some generation) current]⟩
    else ⟨.refreshing current, value, [.requested current.refreshToken]⟩

def saved (previous : Option CredentialDisk) (credential : CredentialDisk) : List Entry :=
  match previous with
  | some previous => [.refreshed previous credential, .handed (some previous.generation) credential]
  | none => [.loggedIn credential, .handed none credential]

def advance (platform : Platform) (free : Bool) (value : Option CredentialDisk) :
    Phase → Action → Option Advance
  | .acquiring, .load now =>
    match value with
    | none => some ⟨loginRequired, value, []⟩
    | some entry =>
      if entry.expiresAt ≤ now + 300000 then some ⟨.waiting entry.generation, value, []⟩
      else some ⟨.ended (.credential entry), value, [.handed none entry]⟩
  | .waiting generation, .enter => if free then some ⟨.loading generation, value, []⟩ else none
  | .loading generation, .loadCurrent => some (refreshCurrent value generation)
  | .refreshing current, .answer response => some ⟨.minting (some current) response, value, []⟩
  | .minting previous response, .mint now random =>
    match credentialFrom platform now random response previous with
    | .error error => some ⟨.ended (.failed (.auth error)), value, []⟩
    | .ok credential => some ⟨.saving previous credential, value, []⟩
  | .saving previous credential, .save =>
    some ⟨.ended (.credential credential), some credential, saved previous credential⟩
  | .authorizing state, .authorize state' =>
    if state' ≠ state then some ⟨authFailure .protocol "Authorization state did not match", value, []⟩
    else some ⟨.exchanging, value, []⟩
  | .starting timeout, .deviceStart interval now =>
    match pollingInterval interval with
    | none => some ⟨authFailure .protocol "Device authorization interval is invalid", value, []⟩
    | some _ => some ⟨.polling (now + timeout), value, []⟩
  | .polling deadline, .devicePoll before polled after =>
    if deadline - before ≤ 0 then some ⟨authFailure .timeout "Device authorization expired", value, []⟩
    else
      match polled with
      | none => some ⟨authFailure .timeout "Device authorization expired", value, []⟩
      | some authorized =>
        if deadline ≤ after then some ⟨authFailure .timeout "Device authorization expired", value, []⟩
        else if authorized then some ⟨.exchanging, value, []⟩
        else some ⟨.polling deadline, value, []⟩
  | .exchanging, .answer response => some ⟨.exchanged response, value, []⟩
  | .exchanged response, .enter => if free then some ⟨.minting none response, value, []⟩ else none
  | .leaving, .enter => if free then some ⟨.removing, value, []⟩ else none
  | .removing, .remove => some ⟨.ended (.removed value.isSome), none, [.removed]⟩
  | .minting _ _, .fail _ => some ⟨authFailure .protocol "Cryptographic operation failed", value, []⟩
  | .ended _, .fail _ => none
  | _, .fail failure => some ⟨.ended (.failed failure), value, []⟩
  | phase, .interrupt => if phase.interruptible then some ⟨.ended .interrupted, value, []⟩ else none
  | _, _ => none

structure State where
  value : Option CredentialDisk
  holder : Option Nat
  calls : List Phase
  history : List Entry
  drawn : List RandomBytes

def empty : State := ⟨none, none, [], [], []⟩

inductive Event
  | start (call : Call)
  | act (fiber : Nat) (action : Action)

def Action.drawn : Action → List RandomBytes
  | mint _ random => [random]
  | _ => []

def holderAfter (holder : Option Nat) (fiber : Nat) (phase phase' : Phase) : Option Nat :=
  if phase'.holds then some fiber else if phase.holds then none else holder

def State.step (platform : Platform) (state : State) : Event → State
  | .start call => { state with calls := state.calls ++ [call.first] }
  | .act fiber action =>
    match state.calls[fiber]? with
    | none => state
    | some phase =>
      match advance platform state.holder.isNone state.value phase action with
      | none => state
      | some next =>
        { value := next.value
          holder := holderAfter state.holder fiber phase next.phase
          calls := state.calls.set fiber next.phase
          history := state.history ++ next.entries
          drawn := state.drawn ++ action.drawn }

def State.run (platform : Platform) (state : State) (events : List Event) : State :=
  events.foldl (State.step platform) state

end Rika.OpenAiService
