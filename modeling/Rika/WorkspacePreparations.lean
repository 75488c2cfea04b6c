import Rika.Assignments
import Rika.Projection

namespace Rika.WorkspacePreparations

open Assignments (Access AssignmentRow Clock RepositoryCheckout live)

/-- `rika_hosted_preparation_phase`, in the order of the enumeration. -/
inductive WorkspacePreparationPhase
  | checkout
  | setup
  | resume
  | capabilities
deriving DecidableEq

def WorkspacePreparationPhase.rank : WorkspacePreparationPhase → Nat
  | checkout => 0
  | setup => 1
  | resume => 2
  | capabilities => 3

instance : LE WorkspacePreparationPhase := ⟨fun phase phase' => phase.rank ≤ phase'.rank⟩

instance (phase phase' : WorkspacePreparationPhase) : Decidable (phase ≤ phase') :=
  inferInstanceAs (Decidable (phase.rank ≤ phase'.rank))

inductive HookOutcome
  | missing
  | completed
  | continued
  | failed
deriving DecidableEq

structure HookEvidence where
  digest : Option String
  commitSha : Option String
  buildDigest : String
  environmentDigest : String
  startedAt : Nat
  finishedAt : Nat
  outcome : HookOutcome
deriving DecidableEq

structure WorkspacePreparationEvidence where
  workspaceId : String
  repositoryId : Option String
  commitSha : Option String
  nativeToolRuntimeDigest : String
  setup : HookEvidence
  resume : Option HookEvidence
  capabilities : List String
deriving DecidableEq

inductive PreparationState
  | preparing
  | ready
  | failed
deriving DecidableEq

structure PreparationFailure where
  message : Utf16
  retryable : Bool
deriving DecidableEq

/-- A row of `rika_hosted_workspace_preparations`; times are in milliseconds. -/
structure WorkspacePreparation where
  assignmentId : String
  ownerId : String
  workspaceId : String
  generation : Nat
  leaseEpoch : Nat
  attempt : Nat
  state : PreparationState
  phase : WorkspacePreparationPhase
  evidence : Option WorkspacePreparationEvidence
  failure : Option PreparationFailure
  startedAt : Nat
  updatedAt : Nat
  deadlineAt : Nat

def WorkspacePreparation.key (row : WorkspacePreparation) : String × Nat := (row.assignmentId, row.generation)

abbrev Preparations := Table WorkspacePreparation.key

inductive PreparationErrorReason
  | conflict
  | database
  | invalid
  | notFound
  | staleFence

structure WorkspacePreparationError where
  reason : PreparationErrorReason
  message : String

def failure {α : Type} (reason : PreparationErrorReason) (message : String) : Except WorkspacePreparationError α :=
  .error ⟨reason, message⟩

def databaseError {α : Type} (cause : String) : Except WorkspacePreparationError α :=
  failure .database s!"Workspace preparation database operation failed: {cause}"

/-- What the database makes of the stored JSON: the repository and the commit of a
checkout, and the octets that evidence and failures take. -/
structure StoredJson where
  repositoryId : RepositoryCheckout → Option String
  commitSha : RepositoryCheckout → Option String
  evidenceOctets : WorkspacePreparationEvidence → Nat
  failureOctets : PreparationFailure → Nat

def WorkspacePreparation.violates (json : StoredJson) (row : WorkspacePreparation) : Bool :=
  row.attempt < 1 || row.generation < 1 || row.leaseEpoch < 1 || row.evidence.any (16384 < json.evidenceOctets ·) ||
    row.failure.any (4096 < json.failureOctets ·)

def decode (row : WorkspacePreparation) : Except WorkspacePreparationError WorkspacePreparation :=
  if row.failure.any (·.message = []) then databaseError "Expected a value with a length of at least 1"
  else .ok row

def current (preparations : Preparations) (assignmentId : String) (generation : Nat) :
    Except WorkspacePreparationError WorkspacePreparation :=
  match preparations.find (assignmentId, generation) with
  | none => failure .notFound "Workspace preparation does not exist"
  | some row => decode row

structure World where
  assignments : Table AssignmentRow.id
  clock : Clock

structure AuthenticatedAssignment where
  ownerId : String
  workspaceId : String
  repositoryId : Option String
  commitSha : Option String

def authenticate (json : StoredJson) (world : World) (access : Access) :
    Except WorkspacePreparationError AuthenticatedAssignment :=
  match (world.assignments.find access.assignmentId).filter fun row =>
      row.generation = access.assignmentGeneration && row.lifecycle = .active &&
        row.providerInstanceId = some access.providerInstanceId &&
        row.executorInstanceId = some access.executorInstanceId &&
        row.processIncarnation = some access.processIncarnation && row.leaseEpoch = some access.leaseEpoch &&
        live row.leaseExpiresAt world.clock && row.sessionDigest = some access.presentedSessionCredentialDigest with
  | none => failure .staleFence "Workspace preparation fence is stale"
  | some row =>
    .ok ⟨row.ownerId, row.workspaceId, row.checkout.bind json.repositoryId, row.checkout.bind json.commitSha⟩

structure PreparationAttempt where
  access : Access
  workspaceId : String
  phase : WorkspacePreparationPhase
  attempt : Nat
  now : Nat

def PreparationAttempt.key (input : PreparationAttempt) : String × Nat :=
  (input.access.assignmentId, input.access.assignmentGeneration)

def startedRow (input : PreparationAttempt) (deadlineAt : Nat) (assignment : AuthenticatedAssignment) :
    WorkspacePreparation where
  assignmentId := input.access.assignmentId
  ownerId := assignment.ownerId
  workspaceId := assignment.workspaceId
  generation := input.access.assignmentGeneration
  leaseEpoch := input.access.leaseEpoch
  attempt := input.attempt
  state := .preparing
  phase := input.phase
  evidence := none
  failure := none
  startedAt := input.now
  updatedAt := input.now
  deadlineAt

def WorkspacePreparation.superseded (row excluded : WorkspacePreparation) : Bool :=
  row.leaseEpoch < excluded.leaseEpoch ||
    (row.leaseEpoch = excluded.leaseEpoch &&
      ((row.attempt = excluded.attempt && row.state = .preparing && row.phase ≤ excluded.phase) ||
        (row.attempt < excluded.attempt && row.state = .failed && row.failure.any (·.retryable))))

def WorkspacePreparation.restarted (row excluded : WorkspacePreparation) : WorkspacePreparation :=
  if row.superseded excluded then
    { row with
      leaseEpoch := excluded.leaseEpoch
      attempt := excluded.attempt
      state := .preparing
      phase := excluded.phase
      evidence := none
      failure := none
      updatedAt := excluded.updatedAt
      deadlineAt := excluded.deadlineAt }
  else row

theorem WorkspacePreparation.restarted_key (excluded row : WorkspacePreparation) : (row.restarted excluded).key = row.key := by
  rw [restarted]
  split
  · rfl
  · rfl

/-- The statements of a call that were executed stay when a later one fails. -/
abbrev Answer (α : Type) : Type := Except WorkspacePreparationError α × Preparations

def startedPreparation (preparations : Preparations) (input : PreparationAttempt) :
    Except WorkspacePreparationError WorkspacePreparation :=
  match current preparations input.access.assignmentId input.access.assignmentGeneration with
  | .error error => .error error
  | .ok preparation =>
    if preparation.leaseEpoch ≠ input.access.leaseEpoch ∨ preparation.attempt ≠ input.attempt then
      failure .staleFence "Workspace preparation start fence is stale"
    else .ok preparation

def start (json : StoredJson) (preparations : Preparations) (world : World) (input : PreparationAttempt)
    (deadlineAt : Nat) : Answer WorkspacePreparation :=
  match authenticate json world input.access with
  | .error error => (.error error, preparations)
  | .ok assignment =>
    if assignment.workspaceId ≠ input.workspaceId then
      (failure .invalid "Workspace preparation identity does not match its assignment", preparations)
    else if deadlineAt ≤ input.now then
      (failure .invalid "Workspace preparation deadline must be after its start", preparations)
    else
      let excluded := startedRow input deadlineAt assignment
      if excluded.violates json then (databaseError "a check constraint is violated", preparations)
      else
        let started := preparations.upsert excluded (fun row => row.restarted excluded)
          (WorkspacePreparation.restarted_key excluded)
        (startedPreparation started input, started)

inductive Ending
  | completed (evidence : WorkspacePreparationEvidence)
  | failed (message : Utf16) (retryable : Bool)

def evidenceMatchesAssignment (evidence : WorkspacePreparationEvidence) (assignment : AuthenticatedAssignment) : Bool :=
  evidence.workspaceId = assignment.workspaceId && evidence.repositoryId = assignment.repositoryId &&
    evidence.commitSha = assignment.commitSha && evidence.setup.commitSha = assignment.commitSha &&
    evidence.resume.all fun resume => resume.commitSha = assignment.commitSha

def Ending.state : Ending → PreparationState
  | completed _ => .ready
  | failed _ _ => .failed

def Ending.evidence : Ending → Option WorkspacePreparationEvidence
  | completed evidence => some evidence
  | failed _ _ => none

def Ending.failure : Ending → Option PreparationFailure
  | completed _ => none
  | failed message retryable => some ⟨message.take 2048, retryable⟩

def Ending.matchesAssignment (assignment : AuthenticatedAssignment) : Ending → Bool
  | completed evidence => evidenceMatchesAssignment evidence assignment
  | failed _ _ => true

section

variable (input : PreparationAttempt) (ending : Ending) (row : WorkspacePreparation)

def finishedRow : WorkspacePreparation :=
  { row with
    state := ending.state
    phase := input.phase
    evidence := ending.evidence
    failure := ending.failure
    updatedAt := input.now }

theorem finishedRow_key : (finishedRow input ending row).key = row.key := rfl

end

def WorkspacePreparation.finishable (row : WorkspacePreparation) (input : PreparationAttempt) : Bool :=
  row.key = input.key && row.leaseEpoch = input.access.leaseEpoch && row.attempt = input.attempt &&
    row.state = .preparing && input.now < row.deadlineAt

/-- `completedDuplicate` and `failedDuplicate`. -/
def duplicate (existing : WorkspacePreparation) (input : PreparationAttempt) (ending : Ending) : Bool :=
  existing.state = ending.state && existing.leaseEpoch = input.access.leaseEpoch && existing.attempt = input.attempt &&
    existing.phase = input.phase &&
    match ending with
    | .completed evidence => existing.evidence = some evidence
    | .failed _ _ => existing.failure = ending.failure

section

variable (json : StoredJson) (preparations : Preparations) (world : World) (input : PreparationAttempt)

def finish (ending : Ending) : Answer WorkspacePreparation :=
  match authenticate json world input.access with
  | .error error => (.error error, preparations)
  | .ok assignment =>
    if assignment.workspaceId ≠ input.workspaceId then
      (failure .invalid "Workspace preparation identity does not match its assignment", preparations)
    else if ¬ending.matchesAssignment assignment then
      (failure .invalid "Workspace readiness evidence does not match its assignment checkout", preparations)
    else
      match (preparations.find input.key).filter fun row => row.finishable input with
      | some row =>
        if (finishedRow input ending row).violates json then
          (databaseError "a check constraint is violated", preparations)
        else
          let finished := preparations.update (fun row => row.finishable input) (finishedRow input ending)
            (finishedRow_key input ending)
          (current finished input.access.assignmentId input.access.assignmentGeneration, finished)
      | none =>
        match current preparations input.access.assignmentId input.access.assignmentGeneration with
        | .error error => (.error error, preparations)
        | .ok existing =>
          if ¬duplicate existing input ending then
            (failure .staleFence "Workspace preparation completion fence is stale", preparations)
          else (current preparations input.access.assignmentId input.access.assignmentGeneration, preparations)

def complete (evidence : WorkspacePreparationEvidence) : Answer WorkspacePreparation :=
  finish json preparations world input (.completed evidence)

def fail (message : Utf16) (retryable : Bool) : Answer WorkspacePreparation :=
  finish json preparations world input (.failed message retryable)

end

def expiredFailure : PreparationFailure := ⟨utf16 "Workspace preparation deadline exceeded", true⟩

def WorkspacePreparation.overdue (row : WorkspacePreparation) (now : Nat) : Bool :=
  row.state = .preparing && row.deadlineAt ≤ now

def expiredRow (now : Nat) (row : WorkspacePreparation) : WorkspacePreparation :=
  { row with
    state := .failed
    evidence := none
    failure := some expiredFailure
    updatedAt := now }

theorem expiredRow_key (now : Nat) (row : WorkspacePreparation) : (expiredRow now row).key = row.key := rfl

/-- Fails what is past its deadline, and counts it. -/
def expireOverdue (json : StoredJson) (preparations : Preparations) (now : Nat) : Answer Nat :=
  let overdue := preparations.select (·.overdue now)
  if overdue.any fun row => (expiredRow now row).violates json then
    (databaseError "a check constraint is violated", preparations)
  else (.ok overdue.length, preparations.update (·.overdue now) (expiredRow now) (expiredRow_key now))

inductive Operation
  | start (world : World) (input : PreparationAttempt) (deadlineAt : Nat)
  | complete (world : World) (input : PreparationAttempt) (evidence : WorkspacePreparationEvidence)
  | fail (world : World) (input : PreparationAttempt) (message : Utf16) (retryable : Bool)
  | expireOverdue (now : Nat)

def step (json : StoredJson) (preparations : Preparations) : Operation → Preparations
  | .start world input deadlineAt => (start json preparations world input deadlineAt).2
  | .complete world input evidence => (complete json preparations world input evidence).2
  | .fail world input message retryable => (fail json preparations world input message retryable).2
  | .expireOverdue now => (expireOverdue json preparations now).2

def run (json : StoredJson) (operations : List Operation) : Preparations := operations.foldl (step json) Table.empty

end Rika.WorkspacePreparations
