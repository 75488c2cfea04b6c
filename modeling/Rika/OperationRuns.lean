import Rika.AppendLog
import Rika.OperationFinalization

namespace Rika.ExecutorOperations

open OperationStore AppendLog

inductive Call (Json : Type)
  | upsertOperation (input : OperationIdentity)
  | claimDispatch (input : DispatchInput) (fence : DispatchFence) (sessionDigest : Option String)
  | appendFrame (assignmentId : String) (frame : ToolOperationLifecycleFrame Json)
  | complete (key : OperationKey) (fence : CompletionFence) (response : ToolOperationResponse Json)
      (outcome : ToolOperationTerminalOutcome)
  | finalizeOperation (input : FinalizeOperationInput Json)
  | terminalizeAccepted (key : OperationKey) (response : ToolOperationResponse Json) (outcome : TerminalizeOutcome)
      (onTerminalize : TerminalizedOperation Json → Except HostedExecutionOperationsError Unit)

structure Request (Json : Type) where
  around : Surroundings
  call : Call Json

structure Operation (Json : Type) where
  row : Option (OperationRow Json)
  log : List (ToolOperationLifecycleFrame Json)

variable {Json : Type}

def ToolOperationLifecycleFrame.terminal? (frame : ToolOperationLifecycleFrame Json) :
    Option (ToolOperationTerminalOutcome × ToolOperationResponse Json) :=
  match frame.body with
  | .terminal outcome response => some (outcome, response)
  | _ => none

namespace OperationStore

def operation (store : OperationStore Json) (key : OperationKey) : Operation Json :=
  ⟨store.operations.find key, (store.frames.select fun row => row.operation = key).map (·.frame)⟩

def empty : OperationStore Json := ⟨Table.empty, Table.empty⟩

variable [DecidableEq Json]

section

variable (store : OperationStore Json)

def serve (around : Surroundings) :
    Call Json → Except HostedExecutionOperationsError (OperationStore Json)
  | .upsertOperation input => (store.upsertOperation around input).map Prod.fst
  | .claimDispatch input fence sessionDigest => (store.claimDispatch around input fence sessionDigest).map Prod.fst
  | .appendFrame assignmentId frame => (store.appendFrame around assignmentId frame).map Prod.fst
  | .complete key fence response outcome => (store.complete around key fence response outcome).map Prod.fst
  | .finalizeOperation input => (store.finalizeOperation around input).map Prod.fst
  | .terminalizeAccepted key response outcome onTerminalize =>
    (store.terminalizeAccepted around key response outcome onTerminalize).map Prod.fst

def next (request : Request Json) : OperationStore Json :=
  (store.serve request.around request.call).toOption.getD store

def run (requests : List (Request Json)) : OperationStore Json :=
  requests.foldl next store

end

end OperationStore

namespace Operation

/-- Where the response and the outcome may come from that an operation is settled with. -/
def Settles (call : Call Json) (key : OperationKey) (row : OperationRow Json)
    (log : List (ToolOperationLifecycleFrame Json)) (response : ToolOperationResponse Json)
    (outcome : ToolOperationTerminalOutcome) : Prop :=
  (∃ fence, call = .complete key fence response outcome) ∨ row.state = .accepted ∨
    log.findSome? (·.terminal?) = none ∨ log.findSome? (·.terminal?) = some (outcome, response)

def Cancels (call : Call Json) (key : OperationKey) : Prop :=
  ∃ response outcome onTerminalize, call = .terminalizeAccepted key response outcome onTerminalize

inductive Step (call : Call Json) (key : OperationKey) : Operation Json → Operation Json → Prop
  | same (operation) : Step call key operation operation
  | admitted (around : Surroundings) (ownerId : String) (input : OperationIdentity) (log) :
      Step call key ⟨none, log⟩ ⟨some (acceptedRow around ownerId input), log⟩
  | claimed (row : OperationRow Json) (log) (fence : CompletionFence) (updatedAt) (haccepted : row.state = .accepted) :
      Step call key ⟨some row, log⟩
        ⟨some
          { row with
            state := .dispatched
            dispatchedGeneration := some fence.assignmentGeneration
            dispatchedLeaseEpoch := some fence.leaseEpoch
            dispatchedExecutorInstanceId := some fence.executorInstanceId
            dispatchedProcessIncarnation := some fence.processIncarnation
            updatedAt },
          log⟩
  | renewed (row : OperationRow Json) (log) (leaseEpoch) (updatedAt) (hdispatched : row.state = .dispatched) :
      Step call key ⟨some row, log⟩ ⟨some { row with dispatchedLeaseEpoch := leaseEpoch, updatedAt }, log⟩
  | appended (row : OperationRow Json) (log) (frame) (startedAt) (updatedAt) (hdispatched : row.state = .dispatched)
      (hfollows : frameFollows log frame = true) :
      Step call key ⟨some row, log⟩ ⟨some { row with startedAt, updatedAt }, log ++ [frame]⟩
  | settled (row : OperationRow Json) (log) (around : Surroundings) (state) (response) (outcome)
      (hfrom : row.state = .dispatched ∨ row.state = .accepted ∧ state = .completed ∧ Cancels call key)
      (hcheck : (settled around state response outcome row).outcomeCheck = true)
      (hsettles : Settles call key row log response outcome) :
      Step call key ⟨some row, log⟩ ⟨some (settled around state response outcome row), log⟩

end Operation

def Filed (store : OperationStore Json) : Prop := ∀ row ∈ store.frames.rows, row.cursor = row.frame.cursor

end Rika.ExecutorOperations
