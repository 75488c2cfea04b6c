import Rika.Operation
import Rika.Table

namespace Rika.RunnerGateway

def maximumConnections : Nat := 512

/-- A call of `connect` owns a scope; `token` names both. -/
structure Reservation where
  token : Nat
  binding : WorkspaceBinding

structure WorkspaceExecutor where
  token : Nat
  binding : WorkspaceBinding
deriving DecidableEq

structure Registration extends Reservation where
  executor : WorkspaceExecutor

def Reservation.assignmentId (reservation : Reservation) : String := reservation.binding.assignmentId

def Registration.assignmentId (registration : Registration) : String := registration.binding.assignmentId

structure GatewayState where
  closed : Bool
  reservations : Table Reservation.assignmentId
  connections : Table Registration.assignmentId

inductive RunnerConnectionErrorKind
  | unauthorized
  | forbidden
  | unavailable
deriving DecidableEq

inductive GatewayError
  | runner (kind : RunnerConnectionErrorKind) (message : String)
  | executor (error : ExecutorError)
deriving DecidableEq

def unavailableConnection : GatewayError := .executor (.transport .connection "Runner connection is unavailable")

def unavailableRegistration : GatewayError := .runner .unavailable "Runner connection is unavailable"

def conflictingRegistration : GatewayError :=
  .executor (.fence .assignment "Runner assignment already has a connection")

def mismatchedConnection (expected current : WorkspaceBinding) : GatewayError :=
  .executor (.fence ((expected.bindingMismatchReason current).getD .assignment)
    "Runner connection does not match the current assignment")

/-! ### What is done under the lock -/

section

variable (current : GatewayState)

def reserve (reservation : Reservation) : Except GatewayError GatewayState :=
  if current.closed then .error unavailableRegistration
  else if (current.reservations.find reservation.assignmentId).isSome ∨
      (current.connections.find reservation.assignmentId).isSome then
    .error conflictingRegistration
  else if maximumConnections ≤ current.reservations.rows.length + current.connections.rows.length then
    .error unavailableRegistration
  else .ok { current with reservations := current.reservations.set reservation }

def install (registration : Registration) : Option GatewayState :=
  if current.closed ∨
      (current.reservations.find registration.assignmentId).map (·.token) ≠ some registration.token ∨
      (current.connections.find registration.assignmentId).isSome then
    none
  else
    some
      { current with
        reservations := current.reservations.delete fun row => row.assignmentId = registration.assignmentId
        connections := current.connections.set registration }

section

variable (registration : Reservation)

def reservedBy : Bool :=
  (current.reservations.find registration.assignmentId).map (·.token) = some registration.token

def connectedBy : Bool :=
  (current.connections.find registration.assignmentId).map (·.token) = some registration.token

def unregister : Bool × GatewayState :=
  let reservation := reservedBy current registration
  let connection := connectedBy current registration
  (reservation || connection,
    { current with
      reservations := current.reservations.delete fun row => reservation && row.assignmentId = registration.assignmentId
      connections := current.connections.delete fun row => connection && row.assignmentId = registration.assignmentId })

end

def close : List Nat × GatewayState :=
  if current.closed then ([], current)
  else
    (current.reservations.rows.map (·.token) ++ current.connections.rows.map (·.token),
      { closed := true, reservations := .empty, connections := .empty })

def connectionFor (binding : WorkspaceBinding) : Except GatewayError WorkspaceExecutor :=
  if current.closed then .error unavailableConnection
  else
    match current.connections.find binding.assignmentId with
    | none => .error unavailableConnection
    | some registration =>
      if ¬binding.sameBinding registration.binding then .error (mismatchedConnection binding registration.binding)
      else .ok registration.executor

end

/-! ### Fibers -/

/-- Where a call of `connect` is. -/
inductive Stage
  | authorizing
  | refused (error : GatewayError)
  | reserving (binding : WorkspaceBinding)
  | acquiring (binding : WorkspaceBinding)
  | unregistering (binding : WorkspaceBinding) (error : GatewayError)
  | installing (binding : WorkspaceBinding)
  | finalizing (binding : WorkspaceBinding)
  | connected (binding : WorkspaceBinding)
  | closing (error : GatewayError)
  | failed (error : GatewayError)

/-- What the server of a transport knows of its Runner. -/
inductive Enrollment
  | awaiting
  | ready (binding : WorkspaceBinding)
  | closed
deriving DecidableEq

structure Connect where
  stage : Stage
  enrollment : Enrollment

/-- A run of `release`. -/
inductive Release
  | unregistering (registration : Reservation)
  | closing (token : Nat)
  | ended

/-- The calls of `connect` by token, the runs of `release` and of the finalizer, and the scopes that were closed. -/
structure Gateway where
  state : GatewayState
  connects : List Connect
  releases : List Release
  finalizers : List (List Nat)
  closings : List Nat

def makeWorkspaceGateway : Gateway where
  state := ⟨false, .empty, .empty⟩
  connects := []
  releases := []
  finalizers := []
  closings := []

namespace Gateway

variable (gateway : Gateway)

section

variable (token : Nat)

def stage : Option Stage := (gateway.connects[token]?).map (·.stage)

def enrollment : Option Enrollment := (gateway.connects[token]?).map (·.enrollment)

def atStage (stage : Stage) : Gateway :=
  { gateway with connects := gateway.connects.modify token fun call => { call with stage } }

def enrolled (enrollment : Enrollment) : Gateway :=
  { gateway with connects := gateway.connects.modify token fun call => { call with enrollment } }

def closeScope : Gateway :=
  if token ∈ gateway.closings then gateway
  else { gateway.enrolled token .closed with closings := gateway.closings ++ [token] }

def proceed : Stage → Gateway
  | .reserving binding =>
    match reserve gateway.state ⟨token, binding⟩ with
    | .ok state => { gateway.atStage token (.acquiring binding) with state }
    | .error error => gateway.atStage token (.closing error)
  | .unregistering binding error =>
    { gateway.atStage token (.closing error) with state := (unregister gateway.state ⟨token, binding⟩).2 }
  | .installing binding =>
    match install gateway.state ⟨⟨token, binding⟩, ⟨token, binding⟩⟩ with
    | some state => { gateway.atStage token (.finalizing binding) with state }
    | none => gateway.atStage token (.closing unavailableRegistration)
  | .finalizing binding => gateway.atStage token (.connected binding)
  | .closing error => (gateway.closeScope token).atStage token (.failed error)
  | .authorizing | .refused _ | .acquiring _ | .connected _ | .failed _ => gateway

end

def proceedRelease (index : Nat) : Release → Gateway
  | .unregistering registration =>
    let (removed, state) := unregister gateway.state registration
    { gateway with
      state
      releases := gateway.releases.set index (if removed then .closing registration.token else .ended) }
  | .closing token =>
    { gateway.closeScope token with releases := gateway.releases.set index .ended }
  | .ended => gateway

end Gateway

/-- An authorization or a transport fails when its call is interrupted, too; a disconnect or a scope runs `release`. -/
inductive Event
  | connect
  | authorized (token : Nat) (answer : Except GatewayError WorkspaceBinding)
  | acquired (token : Nat) (answer : Except GatewayError Unit)
  | proceed (token : Nat)
  | enroll (token : Nat) (binding : WorkspaceBinding)
  | expire (token : Nat)
  | release (token : Nat)
  | proceedRelease (index : Nat)
  | shutdown
  | proceedShutdown (index : Nat)

def step (gateway : Gateway) : Event → Gateway
  | .connect =>
    if gateway.state.closed then gateway
    else { gateway with connects := gateway.connects ++ [⟨.authorizing, .awaiting⟩] }
  | .authorized token answer =>
    match gateway.stage token, answer with
    | some .authorizing, .ok binding => gateway.atStage token (.reserving binding)
    | some .authorizing, .error error => gateway.atStage token (.refused error)
    | _, _ => gateway
  | .acquired token answer =>
    match gateway.stage token, answer with
    | some (.acquiring binding), .ok () => gateway.atStage token (.installing binding)
    | some (.acquiring binding), .error error => gateway.atStage token (.unregistering binding error)
    | _, _ => gateway
  | .proceed token => (gateway.stage token).elim gateway (gateway.proceed token)
  | .enroll token frame =>
    match gateway.stage token, gateway.enrollment token with
    | some (.connected binding), some .awaiting =>
      gateway.enrolled token (if binding.sameBinding frame then .ready frame else .closed)
    | some (.connected _), some (.ready _) => gateway.enrolled token .closed
    | _, _ => gateway
  | .expire token =>
    match gateway.stage token with
    | some (.installing _) | some (.finalizing _) | some (.connected _) => gateway.enrolled token .closed
    | _ => gateway
  | .release token =>
    match gateway.stage token with
    | some (.connected binding) =>
      { gateway with releases := gateway.releases ++ [.unregistering ⟨token, binding⟩] }
    | _ => gateway
  | .proceedRelease index => (gateway.releases[index]?).elim gateway (gateway.proceedRelease index)
  | .shutdown =>
    let (scopes, state) := close gateway.state
    { gateway with state, finalizers := gateway.finalizers ++ [scopes] }
  | .proceedShutdown index =>
    match gateway.finalizers[index]? with
    | some (token :: rest) =>
      { gateway.closeScope token with finalizers := gateway.finalizers.set index rest }
    | _ => gateway

def run (events : List Event) : Gateway := events.foldl step makeWorkspaceGateway

end Rika.RunnerGateway
