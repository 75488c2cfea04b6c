import Rika.TurnWorker

namespace Rika

/-- A call of the hosted stores or of the turn store, with the clock, the random
tokens and the outside answers it reads. -/
inductive HostedOperation (Snapshot : Type)
  | turnStore (operation : TurnDatabase.Operation)
  | admitCommand (access : Except HostedPersistenceError Unit) (input : HostedDatabase.AdmitInput)
      (expectedVersion : Option Nat)
  | claimNextCommand (claimToken : String) (claimMillis now : Finite)
  | renewCommandClaim (input : HostedDatabase.CommandClaimInput) (claimMillis now : Finite)
  | releaseCommandClaim (input : HostedDatabase.CommandClaimInput)
  | completeCommand (projection : ProcessObservationProjection InteractiveEvent Snapshot)
      (input : HostedDatabase.CompleteInput Snapshot) (now : Finite)
  | applyPrompt (projection : ProcessObservationProjection InteractiveEvent Snapshot) (input : ApplyPromptInput)
      (stage : Except HostedPersistenceError ExecutionLink) (now : Finite)
  | cancelPrompt (access : Except HostedPersistenceError Unit) (input : CancelPromptInput) (now : Finite)
  | claimNext (readyExecutor : String → Bool) (request : ClaimRequest) (now : Finite)
  | renew (claim : TurnClaim) (leaseMillis now : Finite)
  | release (claim : TurnClaim)
  | requestActivation (claim : TurnClaim) (updatedAt now : Finite)
  | completeActivation (claim : TurnClaim) (status : ActivationStatus) (updatedAt now : Finite)

structure CreatedTurn where
  threadId : String
  commandId : String
  turnId : String

/-- The database of a run, with what the run has seen: the turns that prompt
applications inserted, and the claims that workers were given. -/
structure Hosted (Json : Type) where
  db : HostedDatabase Json
  created : List CreatedTurn
  claims : List TurnClaim

namespace Hosted

variable {Json Snapshot : Type}

def insertedTurn (db db' : HostedDatabase Json) (input : ApplyPromptInput) : List CreatedTurn :=
  if (db.turnStore.turns.find input.turnId).isNone && (db'.turnStore.turns.find input.turnId).isSome then
    [⟨input.threadId, input.commandId, input.turnId⟩]
  else []

def commit {ε : Type} (s : Hosted Json) : Except ε (HostedDatabase Json) → Hosted Json
  | .ok db => { s with db }
  | .error _ => s

section

variable (contract : Contract Json InteractiveEvent Snapshot) (collation : Collation) (s : Hosted Json)

/-- One call. A worker only presents claims that it was given. -/
def step : HostedOperation Snapshot → Hosted Json
  | .turnStore operation =>
    { s with db := { s.db with turnStore := TurnDatabase.step collation s.db.turnStore operation } }
  | .admitCommand access input expectedVersion => s.commit ((s.db.admitCommand access input expectedVersion).map Prod.snd)
  | .claimNextCommand claimToken claimMillis now =>
    s.commit ((s.db.claimNextCommand collation claimToken claimMillis now).map Prod.snd)
  | .renewCommandClaim input claimMillis now => s.commit ((s.db.renewCommandClaim input claimMillis now).map Prod.snd)
  | .releaseCommandClaim input => s.commit (s.db.releaseCommandClaim input)
  | .completeCommand projection input now =>
    s.commit ((s.db.completeCommand contract projection input now).map Prod.snd)
  | .applyPrompt projection input stage now =>
    match s.db.applyPrompt contract projection input stage now with
    | .ok (_, db) => { s with db, created := s.created ++ insertedTurn s.db db input }
    | .error _ => s
  | .cancelPrompt access input now => s.commit ((s.db.cancelPrompt access input now).map Prod.snd)
  | .claimNext readyExecutor request now =>
    match s.db.claimNext collation readyExecutor request now with
    | .ok (claim, db) => { s with db, claims := s.claims ++ claim.toList }
    | .error _ => s
  | .renew claim leaseMillis now =>
    if claim ∈ s.claims then s.commit ((s.db.renew claim leaseMillis now).map Prod.snd) else s
  | .release claim => if claim ∈ s.claims then s.commit (s.db.release claim) else s
  | .requestActivation claim updatedAt now =>
    if claim ∈ s.claims then s.commit ((s.db.requestActivation claim updatedAt now).map Prod.snd) else s
  | .completeActivation claim status updatedAt now =>
    if claim ∈ s.claims then s.commit (s.db.completeActivation claim status updatedAt now) else s

def start (hostedThreads : Table (@HostedThread.id Json)) (productThreads : Table ProductThread.id)
    (ownerCounters : Table OwnerCounter.ownerId) : Hosted Json :=
  ⟨⟨hostedThreads, productThreads, ownerCounters, Table.empty, TurnDatabase.empty⟩, [], []⟩

def run (operations : List (HostedOperation Snapshot)) : Hosted Json :=
  operations.foldl (step contract collation) s

end

end Hosted

end Rika
