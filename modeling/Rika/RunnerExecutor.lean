import Rika.InsertionMap
import Rika.Operation

namespace Rika

namespace RunnerExecutor

/-- A request of a tool; `parameters` is its JSON text. -/
inductive RunnerToolRequest
  | bash (parameters : String)
  | read (parameters : String)
  | edit (parameters : String)
  | grep (parameters : String)
  | webSearch (parameters : String)
deriving DecidableEq

def requestToolName : RunnerToolRequest → String
  | .bash _ => "bash"
  | .read _ => "read"
  | .edit _ => "edit"
  | .grep _ => "grep"
  | .webSearch _ => "web_search"

/-- A request is identified by its JSON text, its tag included. -/
def requestIdentity : RunnerToolRequest → String × String
  | .bash parameters => ("Bash", parameters)
  | .read parameters => ("Read", parameters)
  | .edit parameters => ("Edit", parameters)
  | .grep parameters => ("Grep", parameters)
  | .webSearch parameters => ("WebSearch", parameters)

inductive SearchFailureKind
  | credentials
  | invalidInput
  | transport
  | rateLimited

inductive GrepFailureKind
  | path
  | notFound
  | operation

inductive RunnerOperationError
  | tool (failure : ToolFailure)
  | search (kind : SearchFailureKind) (message : String)
  | grep (kind : GrepFailureKind) (message : String)

/-- How an execution ends: with the JSON text of its result, with a typed error, or
without either. -/
inductive Exit
  | success (result : String)
  | failure (error : RunnerOperationError)
  | interrupted

def nativeToolFailure (tool message : String) (outcome : OutcomeKnown) : ToolFailure where
  tool
  message
  kind := .operation
  category := if outcome = .unknown then .operation else .dependencyUnavailable
  outcome
  recovery := if outcome = .unknown then .never else .afterChange
  nextAction :=
    if outcome = .unknown then "Inspect workspace and process state before deciding whether another call is safe"
    else "Correct the provider or workspace condition and retry"

def searchFailureCategory : SearchFailureKind → FailureCategory
  | .credentials => .dependencyUnavailable
  | .rateLimited => .rateLimited
  | .invalidInput => .invalidInput
  | .transport => .dependencyUnavailable

def grepFailureCategory : GrepFailureKind → FailureCategory
  | .path => .accessDenied
  | .notFound => .notFound
  | .operation => .operation

def failureValue (tool : String) : RunnerOperationError → ToolFailure
  | .tool failure => failure
  | .search kind message => { nativeToolFailure tool message .known with category := searchFailureCategory kind }
  | .grep kind message => { nativeToolFailure tool message .known with category := grepFailureCategory kind }

def maxOutputBytes : Nat := 16384

def outcomeFromExit (intent : NativeOperationIntent) (tool : String) : Exit → ExecutorEvidence
  | .success result =>
    if result.utf8ByteSize > maxOutputBytes then
      evidenceFor intent (.domainFailure (.tool
        { nativeToolFailure tool s!"{tool} result exceeds the retained output limit" .known with
          category := .operation }))
    else evidenceFor intent (.completed result)
  | .failure error => evidenceFor intent (.domainFailure (.tool (failureValue tool error)))
  | .interrupted =>
    evidenceFor intent (.unknown "Runner operation was interrupted before a canonical result was retained")

structure Registered where
  intent : NativeOperationIntent
  request : RunnerToolRequest
deriving DecidableEq

/-- An operation in flight: `completion` and `fiber` are places in the tables of the executor. -/
structure ActiveOperation where
  completion : Nat
  intent : NativeOperationIntent
  fiber : Nat
deriving DecidableEq

structure Completion where
  operationId : String
  evidence : Option ExecutorEvidence

/-- Where the fiber of an execution stands: it runs, holds the evidence it is to settle,
or has ended. -/
inductive ExecutionPhase
  | running
  | exited (evidence : ExecutorEvidence)
  | ended
deriving DecidableEq

structure ExecutionFiber where
  intent : NativeOperationIntent
  request : RunnerToolRequest
  completion : Nat
  phase : ExecutionPhase
  interrupted : Bool

inductive RunnerExecutorErrorKind
  | duplicate
  | missing
  | closed
deriving DecidableEq

inductive RunnerExecutorError
  | executor (error : ExecutorError)
  | runner (kind : RunnerExecutorErrorKind) (message : String)
deriving DecidableEq

inductive Caller
  | dispatchReceipts (intent : NativeOperationIntent)
  | dispatchRequests (intent : NativeOperationIntent)
  | dispatchStart (intent : NativeOperationIntent) (registered : Registered) (completion : Nat)
  | dispatchAwait (operationId : String) (completion : Nat)
  | dispatched (operationId : String) (evidence : ExecutorEvidence)
  | rejectReceipts (intent : NativeOperationIntent) (failure : FailureValue)
  | rejectSettle (intent : NativeOperationIntent) (evidence : ExecutorEvidence)
  | rejected (evidence : ExecutorEvidence)
  | cancelActive (operationId : String)
  | cancelInterrupt (operationId : String) (inFlight : ActiveOperation)
  | cancelSettle (operationId : String) (inFlight : ActiveOperation)
  | cancelled (operationId : String)
  | cancelReceipts (operationId : String)
  | cancelRequests (operationId : String) (result : ExecutorEvidence)
  | alreadyTerminal (operationId : String) (result : CanonicalResult)
  | failed (error : RunnerExecutorError)
deriving DecidableEq

end RunnerExecutor

open RunnerExecutor

structure RunnerExecutor where
  binding : WorkspaceBinding
  requests : InsertionMap String Registered
  receipts : InsertionMap String ExecutorEvidence
  active : InsertionMap String ActiveOperation
  completions : List Completion
  fibers : List ExecutionFiber
  callers : List Caller

namespace RunnerExecutor

def make (binding : WorkspaceBinding) : RunnerExecutor where
  binding
  requests := .empty
  receipts := .empty
  active := .empty
  completions := []
  fibers := []
  callers := []

variable (executor : RunnerExecutor)

def Completion.succeed (completion : Completion) (evidence : ExecutorEvidence) : Completion :=
  { completion with evidence := completion.evidence.or (some evidence) }

def signal (completion : Option Nat) (evidence : ExecutorEvidence) : List Completion :=
  match completion with
  | none => executor.completions
  | some index => executor.completions.modify index (·.succeed evidence)

/-- Stores the receipt of an operation, unless there is one, and wakes those who wait for
the completion. -/
def settle (operationId : String) (evidence : ExecutorEvidence) (completion : Option Nat) : RunnerExecutor :=
  if executor.receipts.has operationId then executor
  else
    { executor with
      receipts := executor.receipts.set operationId evidence
      active := if executor.active.has operationId then executor.active.delete operationId else executor.active
      completions := executor.signal completion evidence }

section

variable (intent : NativeOperationIntent)

def register (request : RunnerToolRequest) : Except RunnerExecutorError RunnerExecutor :=
  if requestToolName request ≠ intent.tool then
    .error (.runner .duplicate "Runner request tool does not match intent")
  else
    match executor.requests.get intent.operationId with
    | some existing =>
      if existing.intent.inputDigest = intent.inputDigest ∧ requestIdentity existing.request = requestIdentity request then
        .ok executor
      else .error (.runner .duplicate "Runner operation identity was registered with a different request")
    | none => .ok { executor with requests := executor.requests.set intent.operationId ⟨intent, request⟩ }

def enter (caller : Caller) : RunnerExecutor := { executor with callers := executor.callers ++ [caller] }

def goOn (index : Nat) (caller : Caller) : RunnerExecutor := { executor with callers := executor.callers.set index caller }

def fenceFailure (reason : FenceReason) (message : String) : Caller := .failed (.executor (.fence reason message))

def transportFailure (phase : DispatchPhase) (message : String) : Caller := .failed (.executor (.transport phase message))

def dispatch (evidence : HandshakeEvidence) : RunnerExecutor :=
  if ¬executor.binding.sameEvidence evidence then
    executor.enter (fenceFailure .generation "Runner dispatch uses a stale checkout binding")
  else if ¬executor.binding.sameBinding intent.binding then
    executor.enter (fenceFailure .generation "Runner dispatch intent uses a stale checkout binding")
  else executor.enter (.dispatchReceipts intent)

def receiptMatches (cached : ExecutorEvidence) : Bool :=
  cached.inputDigest = intent.inputDigest && intent.binding.sameEvidence cached.binding

end

section

variable (index : Nat) (intent : NativeOperationIntent)

def readReceipts : RunnerExecutor :=
  match executor.receipts.get intent.operationId with
  | some cached =>
    if receiptMatches intent cached then executor.goOn index (.dispatched intent.operationId cached)
    else executor.goOn index (fenceFailure .operation "Runner receipt identity does not match dispatch intent")
  | none => executor.goOn index (.dispatchRequests intent)

def readRequests : RunnerExecutor :=
  match executor.requests.get intent.operationId with
  | none =>
    executor.goOn index (transportFailure .afterDispatch
      "Runner has no request payload for this admitted operation; reconcile instead of redispatching")
  | some registered =>
    if registered.intent.inputDigest ≠ intent.inputDigest ∨ registered.intent.tool ≠ intent.tool then
      executor.goOn index (transportFailure .beforeDispatch "Runner request does not match the admitted operation")
    else
      { executor.goOn index (.dispatchStart intent registered executor.completions.length) with
        completions := executor.completions ++ [⟨intent.operationId, none⟩] }

def start (registered : Registered) (completion : Nat) : RunnerExecutor :=
  match executor.active.get intent.operationId with
  | some inFlight => executor.goOn index (.dispatchAwait intent.operationId inFlight.completion)
  | none =>
    { executor.goOn index (.dispatchAwait intent.operationId completion) with
      fibers := executor.fibers ++ [⟨intent, registered.request, completion, .running, false⟩]
      active := executor.active.set intent.operationId ⟨completion, intent, executor.fibers.length⟩ }

end

section

variable (index : Nat) (operationId : String)

def await (completion : Nat) : RunnerExecutor :=
  match executor.completions[completion]?.bind (·.evidence) with
  | some evidence => executor.goOn index (.dispatched operationId evidence)
  | none => executor

def reject (intent : NativeOperationIntent) (failure : FailureValue) : RunnerExecutor :=
  if ¬executor.binding.sameBinding intent.binding then
    executor.enter (fenceFailure .generation "Runner rejection uses a stale checkout binding")
  else executor.enter (.rejectReceipts intent failure)

def readReceiptsOfReject (index : Nat) (intent : NativeOperationIntent) (failure : FailureValue) : RunnerExecutor :=
  match executor.receipts.get intent.operationId with
  | some cached =>
    if receiptMatches intent cached then executor.goOn index (.rejected cached)
    else executor.goOn index (fenceFailure .operation "Runner receipt identity does not match rejected intent")
  | none => executor.goOn index (.rejectSettle intent (evidenceFor intent (.domainFailure failure)))

def settleReject (index : Nat) (intent : NativeOperationIntent) (evidence : ExecutorEvidence) : RunnerExecutor :=
  (executor.settle intent.operationId evidence none).goOn index (.rejected evidence)

def readActive : RunnerExecutor :=
  match executor.active.get operationId with
  | some inFlight => executor.goOn index (.cancelInterrupt operationId inFlight)
  | none => executor.goOn index (.cancelReceipts operationId)

def interruptFiber (inFlight : ActiveOperation) : RunnerExecutor :=
  { executor.goOn index (.cancelSettle operationId inFlight) with
    fibers := executor.fibers.modify inFlight.fiber ({ · with interrupted := true }) }

def unknownEvidence (intent : NativeOperationIntent) : ExecutorEvidence :=
  evidenceFor intent (.unknown "Runner operation was cancelled before a canonical result was retained")

def settleCancel (inFlight : ActiveOperation) : RunnerExecutor :=
  match executor.fibers[inFlight.fiber]?.map ExecutionFiber.phase with
  | some .ended =>
    (executor.settle operationId (unknownEvidence inFlight.intent) (some inFlight.completion)).goOn index
      (.cancelled operationId)
  | _ => executor

def readReceiptsOfCancel : RunnerExecutor :=
  match executor.receipts.get operationId with
  | some result => executor.goOn index (.cancelRequests operationId result)
  | none => executor.goOn index (.failed (.runner .missing s!"Runner has no active operation {operationId}"))

def originalIntent (operationId : String) (result : ExecutorEvidence) : NativeOperationIntent :=
  ((executor.requests.get operationId).map (·.intent)).getD
    ⟨operationId, "unknown", result.inputDigest, executor.binding⟩

def readRequestsOfCancel (result : ExecutorEvidence) : RunnerExecutor :=
  executor.goOn index
    (.alreadyTerminal operationId (canonicalFromEvidence (executor.originalIntent operationId result) result))

end

def advance (index : Nat) : RunnerExecutor :=
  match executor.callers[index]? with
  | some (.dispatchReceipts intent) => executor.readReceipts index intent
  | some (.dispatchRequests intent) => executor.readRequests index intent
  | some (.dispatchStart intent registered completion) => executor.start index intent registered completion
  | some (.dispatchAwait operationId completion) => executor.await index operationId completion
  | some (.rejectReceipts intent failure) => executor.readReceiptsOfReject index intent failure
  | some (.rejectSettle intent evidence) => executor.settleReject index intent evidence
  | some (.cancelActive operationId) => executor.readActive index operationId
  | some (.cancelInterrupt operationId inFlight) => executor.interruptFiber index operationId inFlight
  | some (.cancelSettle operationId inFlight) => executor.settleCancel index operationId inFlight
  | some (.cancelReceipts operationId) => executor.readReceiptsOfCancel index operationId
  | some (.cancelRequests operationId result) => executor.readRequestsOfCancel index operationId result
  | _ => executor

def setPhase (fiber : Nat) (phase : ExecutionPhase) : RunnerExecutor :=
  { executor with fibers := executor.fibers.modify fiber ({ · with phase }) }

def exitFiber (fiber : Nat) (exit : Exit) : RunnerExecutor :=
  match executor.fibers[fiber]? with
  | some ⟨intent, request, _, .running, _⟩ =>
    executor.setPhase fiber (.exited (outcomeFromExit intent (requestToolName request) exit))
  | _ => executor

def settleFiber (fiber : Nat) : RunnerExecutor :=
  match executor.fibers[fiber]? with
  | some ⟨intent, _, completion, .exited evidence, _⟩ =>
    (executor.settle intent.operationId evidence (some completion)).setPhase fiber .ended
  | _ => executor

def endFiber (fiber : Nat) : RunnerExecutor :=
  match executor.fibers[fiber]? with
  | some execution => if execution.interrupted then executor.setPhase fiber .ended else executor
  | none => executor

inductive Input
  | register (intent : NativeOperationIntent) (request : RunnerToolRequest)
  | dispatch (intent : NativeOperationIntent) (evidence : HandshakeEvidence)
  | reject (intent : NativeOperationIntent) (failure : FailureValue)
  | cancel (operationId : String)
  | advance (caller : Nat)
  | exitFiber (fiber : Nat) (exit : Exit)
  | settleFiber (fiber : Nat)
  | endFiber (fiber : Nat)

def step (executor : RunnerExecutor) : Input → RunnerExecutor
  | .register intent request =>
    match executor.register intent request with
    | .ok registered => registered
    | .error _ => executor
  | .dispatch intent evidence => executor.dispatch intent evidence
  | .reject intent failure => executor.reject intent failure
  | .cancel operationId => executor.enter (.cancelActive operationId)
  | .advance caller => executor.advance caller
  | .exitFiber fiber exit => executor.exitFiber fiber exit
  | .settleFiber fiber => executor.settleFiber fiber
  | .endFiber fiber => executor.endFiber fiber

def run (executor : RunnerExecutor) (inputs : List Input) : RunnerExecutor := inputs.foldl step executor

def started (operationId : String) : Nat := executor.fibers.countP fun fiber => fiber.intent.operationId = operationId

end RunnerExecutor

end Rika
