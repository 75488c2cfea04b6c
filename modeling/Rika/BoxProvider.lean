import Mathlib.Data.List.Basic

namespace Rika.BoxProvider

def maxProviderResponseBytes : Nat := 131072

def idempotencyWindowMillis : Int := 86400000

inductive BoxState
  | init | provisioning | provisioned | cloning | ready | idle | running | archiving | archived | error

structure Box where
  id : String
  state : BoxState
  snapshotAvailable : Bool

inductive BoxProviderOperation | create | fork | resume | stop

inductive BoxProviderErrorKind
  | transport | invalidRequest | invalidResponse | providerRejected | idempotencyReused | idempotencyExpired
  | retryExhausted | outcomeUnknown
  deriving DecidableEq

structure BoxProviderError where
  operation : BoxProviderOperation
  kind : BoxProviderErrorKind
  message : String
  status : Option Nat := none
  code : Option String := none

/-- A response's body as its reader gives it: the chunks read, and whether the
stream then ended or a read failed. -/
structure ResponseBody where
  chunks : List (List UInt8)
  ended : Bool

/-- `declared` is the content length, `some none` where it is no safe natural
number. -/
structure Response where
  status : Nat
  declared : Option (Option Nat) := none
  body : Option ResponseBody := none

def Response.ok (response : Response) : Bool := 200 ≤ response.status && response.status < 300

structure ErrorResponse where
  status : Int
  code : String

structure ActionResponse where
  id : String
  status : String
  box : Option Box

structure Codecs where
  utf8 : List UInt8 → Option String
  createResponse : String → Option Box
  actionResponse : String → Option ActionResponse
  errorResponse : String → Option ErrorResponse

structure Request where
  path : String
  body : String
  idempotencyKey : Option String

inductive Exchange
  | failed
  | responded (response : Response)

def readChunks (total : Nat) : List (List UInt8) → Except String (List UInt8)
  | [] => .ok []
  | chunk :: chunks =>
    if maxProviderResponseBytes < total + chunk.length then .error "Box response exceeded the byte bound"
    else do
      let rest ← readChunks (total + chunk.length) chunks
      return chunk ++ rest

section Responses

variable (codecs : Codecs) (operation : BoxProviderOperation)

def readBody (body : ResponseBody) : Except String String := do
  let bytes ← readChunks 0 body.chunks
  if body.ended then
    match codecs.utf8 bytes with
    | some text => .ok text
    | none => .error "Box response body was not valid UTF-8"
  else .error "Box response body could not be read"

def responseText (response : Response) : Except BoxProviderError String :=
  let invalid (message : String) : BoxProviderError := ⟨operation, .invalidResponse, message, some response.status, none⟩
  match response.body with
  | none => .ok ""
  | some body =>
    match response.declared with
    | some none => .error (invalid "Box response declared an invalid byte length")
    | some (some declaredBytes) =>
      if maxProviderResponseBytes < declaredBytes then
        .error (invalid "Box response declared an invalid byte length")
      else (readBody codecs body).mapError invalid
    | none => (readBody codecs body).mapError invalid

def decodeResponse {α : Type} (schema : String → Option α) (response : Response) : Except BoxProviderError α := do
  let text ← responseText codecs operation response
  match schema text with
  | some decoded => .ok decoded
  | none =>
    .error ⟨operation, .invalidResponse, "Box response did not match its schema", some response.status, none⟩

def rejected (response : Response) : BoxProviderError :=
  match decodeResponse codecs operation codecs.errorResponse response with
  | .error _ => ⟨operation, .providerRejected, "Box provider rejected the request", some response.status, none⟩
  | .ok error =>
    if error.code = "idempotency_key_reused" then
      ⟨operation, .idempotencyReused, "Box idempotency key was reused with a different request body",
        some response.status, some error.code⟩
    else ⟨operation, .providerRejected, "Box provider rejected the request", some response.status, some error.code⟩

def isRetryableBillableError (error : BoxProviderError) : Bool :=
  error.kind = .transport ||
    (error.kind = .invalidResponse &&
      match error.status with
      | none => true
      | some status => (200 ≤ status && status < 300) || 500 ≤ status) ||
    (match error.status with
      | none => false
      | some status => 500 ≤ status) ||
    (error.status = some 409 && error.code = some "idempotency_in_progress")

def send : Exchange → Except BoxProviderError Response
  | .failed => .error ⟨operation, .transport, "Box request did not receive a response", none, none⟩
  | .responded response => .ok response

/-- What the effect comes to, `none` where the timeout ends it. -/
def withinTimeout (unknownOutcome : Bool) : Option (Except BoxProviderError Box) → Except BoxProviderError Box
  | some outcome => outcome
  | none =>
    if unknownOutcome then
      .error ⟨operation, .outcomeUnknown, "Box provider did not confirm the lifecycle outcome", none, none⟩
    else .error ⟨operation, .transport, "Box request did not receive a complete response", none, none⟩

end Responses

structure BoxHttpProviderOptions where
  retryAttempts : Nat
  retryAttempts_bounds : 1 ≤ retryAttempts ∧ retryAttempts ≤ 8

/-- One attempt's clock reading and what its request meets, `none` where the
timeout comes first. -/
structure Round where
  now : Int
  answer : Option Exchange

structure BillableRequest where
  idempotencyKey : String
  issuedAtMillis : Int
  expiresAtMillis : Int
  body : String

structure ForkRequest extends BillableRequest where
  sourceBoxId : String

structure ActionRequest where
  boxId : String
  body : String

/-- A request as it leaves, and the clock reading that admitted a billable one. -/
structure Sent where
  request : Request
  admittedAt : Option Int := none

structure Ended where
  sent : List Sent
  outcome : Except BoxProviderError Box

section Calls

variable (codecs : Codecs) (options : BoxHttpProviderOptions) (operation : BoxProviderOperation) (path : String)

section

variable (select : String → Option Box) (exchange : Exchange)

def billableExchange : Except BoxProviderError Box := do
  let response ← send operation exchange
  if response.ok then decodeResponse codecs operation select response
  else .error (rejected codecs operation response)

def billableAttempt (request : BillableRequest) (select : String → Option Box) (rounds : Nat → Round)
    (number : Nat) : Ended :=
  if request.expiresAtMillis - request.issuedAtMillis ≠ idempotencyWindowMillis ∨
      (rounds number).now < request.issuedAtMillis then
    ⟨[], .error ⟨operation, .invalidRequest,
      "Box billable request did not carry a currently valid idempotency window", none, none⟩⟩
  else if request.expiresAtMillis ≤ (rounds number).now then
    ⟨[], .error ⟨operation, .idempotencyExpired,
      "Box idempotency window expired; positive reconciliation is required before another billable request",
      none, none⟩⟩
  else
    let sent : Sent := ⟨⟨path, request.body, some request.idempotencyKey⟩, some (rounds number).now⟩
    match withinTimeout operation false ((rounds number).answer.map (billableExchange codecs operation select)) with
    | .ok box => ⟨[sent], .ok box⟩
    | .error error =>
      if ¬ isRetryableBillableError error then ⟨[sent], .error error⟩
      else if options.retryAttempts ≤ number then
        ⟨[sent], .error ⟨operation, .retryExhausted,
          "Box acknowledgement remained unknown after bounded retries", error.status, error.code⟩⟩
      else
        let rest := billableAttempt request select rounds (number + 1)
        ⟨sent :: rest.sent, rest.outcome⟩
termination_by options.retryAttempts - number

def billable (request : BillableRequest) (select : String → Option Box) (rounds : Nat → Round) : Ended :=
  billableAttempt codecs options operation path request select rounds 1

def actionExchange : Except BoxProviderError Box := do
  let response ← send operation exchange
  if response.ok then decodeResponse codecs operation select response
  else if 500 ≤ response.status then
    .error ⟨operation, .outcomeUnknown, "Box provider did not confirm the lifecycle outcome", none, none⟩
  else .error (rejected codecs operation response)

end

def action (body : String) (select : String → Option Box) (answer : Option Exchange) : Ended :=
  ⟨[⟨⟨path, body, none⟩, none⟩],
    (withinTimeout operation true (answer.map (actionExchange codecs operation select))).mapError fun error =>
      if error.kind = .transport ∨ error.kind = .invalidResponse then
        ⟨operation, .outcomeUnknown, "Box provider did not confirm the lifecycle outcome", none, none⟩
      else error⟩

end Calls

def ActionResponse.selected (state : BoxState) (snapshotAvailable : Bool) (decoded : ActionResponse) : Box :=
  decoded.box.getD ⟨decoded.id, state, snapshotAvailable⟩

/-- The requests of a provider, `none` where the input does not match its schema. -/
inductive Call
  | create (input : Option BillableRequest)
  | fork (input : Option ForkRequest)
  | resume (input : Option ActionRequest)
  | stop (input : Option ActionRequest)

def invalidRequest (operation : BoxProviderOperation) : Ended :=
  ⟨[], .error ⟨operation, .invalidRequest, "Box request did not match its schema", none, none⟩⟩

section Service

variable (codecs : Codecs) (options : BoxHttpProviderOptions) (rounds : Nat → Round)

def create : Option BillableRequest → Ended
  | none => invalidRequest .create
  | some request => billable codecs options .create "/boxes" request codecs.createResponse rounds

def fork : Option ForkRequest → Ended
  | none => invalidRequest .fork
  | some request =>
    billable codecs options .fork ("/boxes/" ++ request.sourceBoxId ++ "/fork") request.toBillableRequest
      (fun text => (codecs.actionResponse text).map (ActionResponse.selected .provisioning false)) rounds

def resume : Option ActionRequest → Ended
  | none => invalidRequest .resume
  | some request =>
    action codecs .resume ("/boxes/" ++ request.boxId ++ "/resume") request.body
      (fun text => (codecs.actionResponse text).map (ActionResponse.selected .provisioning true)) (rounds 1).answer

def stop : Option ActionRequest → Ended
  | none => invalidRequest .stop
  | some request =>
    action codecs .stop ("/boxes/" ++ request.boxId ++ "/stop") request.body
      (fun text => (codecs.actionResponse text).map (ActionResponse.selected .archiving false)) (rounds 1).answer

def perform : Call → Ended
  | .create input => create codecs options rounds input
  | .fork input => fork codecs options rounds input
  | .resume input => resume codecs rounds input
  | .stop input => stop codecs rounds input

end Service

def BoxProviderErrorKind.Definite (kind : BoxProviderErrorKind) : Prop :=
  kind ≠ .retryExhausted ∧ kind ≠ .idempotencyExpired ∧ kind ≠ .outcomeUnknown

end Rika.BoxProvider
