import Rika.TranscriptStore

namespace Rika.ExecutionWatch

open Selection (Checkpoint ProjectionState)
open ThreadViewFeed (ProjectionChange)
open TranscriptStore.Memory (Projection)

def retryDelayMaxMs : Nat := 5000

def stalledRetryDelayMaxMs : Nat := 30000

structure Cause where
  message : String
  interrupts : Bool := false
  dies : Bool := false

/-- An agent's turn as far as its watch reads it; `included` when a main candidate is
authenticated by account. -/
structure WatchedTurn where
  id : String
  prompt : String
  status : Status
  included : Bool

inductive Pricing | included | metered

structure WatchRequest where
  prompt : String
  pricing : Pricing
  revision : Finite
  checkpoint : Option Checkpoint

/-- An event of the execution stream; a preview comes with the defect of its callback,
if it has one. -/
inductive WatchEvent
  | preview (callback : Option Cause)
  | change (change : ProjectionChange)

inductive Inspection
  | unavailable
  | reported (status : Status) (cursor : String)

/-- What becomes of a commit; `onChange` is the defect of the callback after it, if it
has one. -/
inductive CommitAnswer
  | committed (onChange : Option Cause)
  | stale
  | failed (cause : Cause)

/-- What one attempt meets: the repository's answers, the stream, each commit in turn, and the inspection. -/
structure Attempt where
  projection : Except Cause (Option Projection)
  watchTurn : WatchRequest → List WatchEvent × Option Cause
  commitProjection : Nat → CommitAnswer
  inspectTurn : Except Cause Inspection
  stored : Except Cause (Option Projection)
  progressedAt : Int
  endedAt : Int

/-- What an attempt does with the changes of its turn. -/
inductive Action
  | delivered (change : ProjectionChange)
  | inspected (inspection : Inspection)
  | submitted (change : ProjectionChange)

structure AttemptSignals where
  progressed : Bool := false
  previewed : Bool := false
  callbackCause : Option Cause := none
  latestChange : Option ProjectionChange := none

structure AttemptState where
  signals : AttemptSignals
  pending : List ProjectionChange := []
  trace : List Action := []

def submittedChanges (trace : List Action) : List ProjectionChange :=
  trace.filterMap fun
    | .submitted change => some change
    | .delivered _ | .inspected _ => none

def deliveredChanges (trace : List Action) : List ProjectionChange :=
  trace.filterMap fun
    | .delivered change => some change
    | .submitted _ | .inspected _ => none

abbrev Outcome (α : Type) : Type := Except Cause α × AttemptState

def watchRequest (turn : WatchedTurn) (projection : Option Projection) : WatchRequest where
  prompt := turn.prompt
  pricing := if turn.included then .included else .metered
  revision := (projection.map (·.revision)).getD 0
  checkpoint := projection.bind (·.projectorCheckpoint)

def repositoryError (message : String) : Cause := { message := message }

def terminalInspection : Inspection → Option (Status × String)
  | .unavailable => none
  | .reported status cursor => if status.isTerminalStatus then some (status, cursor) else none

def notify (callback : Option Cause) (s : AttemptState) : Outcome PUnit :=
  match callback with
  | none => (.ok ⟨⟩, s)
  | some cause => (.error cause, { s with signals := { s.signals with callbackCause := some cause } })

def forEach {α : Type} (f : α → AttemptState → Outcome PUnit) : List α → AttemptState → Outcome PUnit
  | [], s => (.ok ⟨⟩, s)
  | a :: rest, s =>
    match f a s with
    | (.error cause, s) => (.error cause, s)
    | (.ok _, s) => forEach f rest s

section Attempts

variable (turnId : String) (commits : Nat → CommitAnswer)

def commit (change : ProjectionChange) (s : AttemptState) : Outcome PUnit :=
  let submitted : AttemptState := { s with trace := s.trace ++ [.submitted change] }
  match commits (submittedChanges s.trace).length with
  | .failed cause => (.error cause, submitted)
  | .stale => (.error (repositoryError ("Turn " ++ turnId ++ " projection revision is stale")), submitted)
  | .committed onChange =>
    notify onChange
      { submitted with signals := { submitted.signals with latestChange := some change, progressed := true } }

def handle (event : WatchEvent) (s : AttemptState) : Outcome PUnit :=
  match event with
  | .preview callback => notify callback { s with signals := { s.signals with previewed := true } }
  | .change change =>
    let s : AttemptState := { s with trace := s.trace ++ [.delivered change] }
    if change.state.status.isTerminalStatus then (.ok ⟨⟩, { s with pending := s.pending ++ [change] })
    else
      match s.pending.getLast? with
      | some last =>
        (.error (repositoryError ("Turn " ++ turnId ++ " projected a nonterminal change after terminal revision " ++
          toString last.revision)), s)
      | none => commit turnId commits change s

def reconcileTerminal (inspection : Inspection) (s : AttemptState) : Outcome PUnit :=
  match s.pending.getLast?, terminalInspection inspection with
  | some last, some (status, cursor) =>
    if s.pending.any (fun change => change.state.status ≠ status) || last.checkpoint.map (·.cursor) ≠ some cursor then
      (.error (repositoryError ("Turn " ++ turnId ++
        " terminal projection does not match Generalist inspection at " ++ cursor)), s)
    else
      match forEach (commit turnId commits) s.pending s with
      | (.error cause, s) => (.error cause, s)
      | (.ok _, s) => (.ok ⟨⟩, { s with pending := [] })
  | _, _ => (.ok ⟨⟩, s)

end Attempts

structure Attempted where
  stored : Option Projection
  inspection : Inspection
  hasUncommittedTerminal : Bool

/-- The inspection, the settlement and the look at the stored projection that follow
the stream. -/
def settle (turnId : String) (attempt : Attempt) (s : AttemptState) : Outcome Attempted :=
  match attempt.inspectTurn with
  | .error cause => (.error cause, s)
  | .ok inspection =>
    match reconcileTerminal turnId attempt.commitProjection inspection
        { s with trace := s.trace ++ [.inspected inspection] } with
    | (.error cause, s) => (.error cause, s)
    | (.ok _, s) =>
      match attempt.stored with
      | .error cause => (.error cause, s)
      | .ok stored =>
        match terminalInspection inspection with
        | none => (.ok ⟨stored, inspection, !s.pending.isEmpty⟩, s)
        | some (_, cursor) =>
          if (stored.bind (·.projectorCheckpoint)).map (·.cursor) ≠ some cursor then
            (.error (repositoryError ("Turn " ++ turnId ++
              " projection cursor does not match terminal Generalist inspection at " ++ cursor)), s)
          else (.ok ⟨stored, inspection, !s.pending.isEmpty⟩, s)

def runAttempt (turn : WatchedTurn) (attempt : Attempt) (signals : AttemptSignals) : Outcome Attempted :=
  let s : AttemptState := { signals := signals }
  match attempt.projection with
  | .error cause => (.error cause, s)
  | .ok projection =>
    let stream := attempt.watchTurn (watchRequest turn projection)
    match forEach (handle turn.id attempt.commitProjection) stream.1 s, stream.2 with
    | (.error cause, s), _ => (.error cause, s)
    | (.ok _, s), some cause => (.error cause, s)
    | (.ok _, s), none => settle turn.id attempt s

structure Result where
  turnId : String
  status : Status
  state : ProjectionState
  units : List TranscriptUnit.Unit
  checkpoint : Option Checkpoint

/-- The checkpoint and state of the newer of the stored and the last committed
projection. -/
def projectedSelection (stored : Option Projection) (latestChange : Option ProjectionChange) :
    Option Checkpoint × Option ProjectionState :=
  match stored, latestChange with
  | some stored, some latestChange =>
    if latestChange.revision ≤ stored.revision then (stored.projectorCheckpoint, some stored.state)
    else (latestChange.checkpoint, some latestChange.state)
  | some stored, none => (stored.projectorCheckpoint, some stored.state)
  | none, latestChange => (latestChange.bind (·.checkpoint), latestChange.map (·.state))

def statusFromInspection (inspection : Inspection) : Option Status :=
  match terminalInspection inspection, inspection with
  | some (status, _), _ => some status
  | none, .reported .waiting _ => some .waiting
  | none, .reported .cancelling _ => some .cancelling
  | none, _ => none

def fallbackStatus : Status → Status
  | .waiting => .waiting
  | .cancelling => .cancelling
  | .accepted | .queued | .running | .completed | .failed | .cancelled => .running

def resultFrom (turn : WatchedTurn) (inspection : Inspection) (stored : Option Projection)
    (latestChange : Option ProjectionChange) : Result :=
  let (checkpoint, projectedState) := projectedSelection stored latestChange
  let projectedStatus :=
    match projectedState with
    | none => fallbackStatus turn.status
    | some state => if state.status.isTerminalStatus then fallbackStatus turn.status else state.status
  let status := (statusFromInspection inspection).getD projectedStatus
  { turnId := turn.id
    status := status
    state :=
      match projectedState with
      | none => ⟨status, none, Usage.emptyUsageState, ⟨none, none⟩⟩
      | some state => { state with status := status }
    units := (stored.map (·.units)).getD []
    checkpoint := checkpoint }

def Inspection.isRunning : Inspection → Bool
  | .reported .running _ => true
  | _ => false

structure WatchState where
  latestChange : Option ProjectionChange := none
  retryDelay : Nat := 100
  consecutiveDefects : Nat := 0
  lastProgressAt : Int
  traces : List (List Action) := []
  answer : Option (Except Cause Result) := none

/-- The defects in a row and the next delay after a failed attempt that is tried again. -/
def recoverFailure (cause : Cause) (callbackCause : Option Cause) (consecutiveDefects : Nat) (lastProgressAt now : Int)
    (progressed : Bool) (retryDelay : Nat) (stallSilenceMs : Int) : Except Cause (Nat × Nat) :=
  match callbackCause with
  | some callbackCause => .error callbackCause
  | none =>
    if cause.interrupts then .error cause
    else
      let stalled := stallSilenceMs ≤ now - lastProgressAt
      let delay := if progressed then 100 else retryDelay
      .ok (if cause.dies then consecutiveDefects + 1 else 0,
        min (delay * 2) (if stalled then stalledRetryDelayMaxMs else retryDelayMaxMs))

/-- One turn of the loop of `watchLinked`. -/
def watchAttempt (turn : WatchedTurn) (stallSilenceMs : Int) (watch : WatchState) (attempt : Attempt) : WatchState :=
  if watch.answer.isSome then watch
  else
    let (exit, s) := runAttempt turn attempt { latestChange := watch.latestChange }
    let lastProgressAt :=
      if s.signals.progressed || s.signals.previewed then attempt.progressedAt else watch.lastProgressAt
    let watch :=
      { watch with
        latestChange := s.signals.latestChange
        lastProgressAt := lastProgressAt
        traces := watch.traces ++ [s.trace] }
    match exit with
    | .error cause =>
      match recoverFailure cause s.signals.callbackCause watch.consecutiveDefects lastProgressAt attempt.endedAt
          s.signals.progressed watch.retryDelay stallSilenceMs with
      | .error cause => { watch with answer := some (.error cause) }
      | .ok (consecutiveDefects, retryDelay) =>
        { watch with consecutiveDefects := consecutiveDefects, retryDelay := retryDelay }
    | .ok attempted =>
      if attempted.hasUncommittedTerminal || attempted.inspection.isRunning then
        { watch with
          consecutiveDefects := 0
          retryDelay := min ((if s.signals.progressed then 100 else watch.retryDelay) * 2) retryDelayMaxMs }
      else
        { watch with
          consecutiveDefects := 0
          answer := some (.ok (resultFrom turn attempted.inspection attempted.stored s.signals.latestChange)) }

def watchLinked (turn : WatchedTurn) (stallSilenceMs startedAt : Int) (attempts : List Attempt) : WatchState :=
  attempts.foldl (watchAttempt turn stallSilenceMs) { lastProgressAt := startedAt }

end Rika.ExecutionWatch
