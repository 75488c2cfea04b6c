import Rika.ThreadCommands

namespace Rika

structure ApplyPromptInput where
  ownerId : String
  threadId : String
  commandId : String
  claimToken : Option String
  turnId : String
  actor : String
  prompt : String
  promptParts : Option String
  executionRoute : String
  prepared : PreparedTurn
  submissionId : String
  completedAt : Timestamp
  queueCapacity : Finite
  readinessProof : Bool

inductive PromptApplication
  | admitted (command : CommandRow) (turnId : String) (status : AdmissionStatus) (link : ExecutionLink)
  | cancelled (command : CommandRow)

structure CancelPromptInput where
  ownerId : String
  threadId : String
  cancelCommandId : String
  targetCommandId : String
  actor : String
  cancelledAt : Timestamp
  claimToken : Option String

inductive PromptCancellation
  | pending (targetCommandId : String)
  | turn (targetCommandId turnId : String)
deriving DecidableEq

namespace HostedDatabase

variable {Json Snapshot : Type}

/-- What is checked before the transaction starts: the capacity and the time of
the admission come out of it. -/
def promptPreconditions (input : ApplyPromptInput) : Except HostedPersistenceError (Int × Finite) :=
  if input.prompt.isEmpty then .error (failure .conflict "Prompt cannot be empty")
  else if input.prepared.threadId ≠ input.threadId ∨ input.prepared.turnId ≠ input.turnId then
    .error (failure .conflict "Prepared Runtime admission identifies a different Turn")
  else if trunc input.queueCapacity < 1 then
    .error (failure .conflict "Prompt queue capacity must be positive")
  else
    match input.completedAt.millis with
    | none => .error (failure .conflict "Prompt admission timestamp is invalid")
    | some millis => .ok (trunc input.queueCapacity, millis)

def completedApplication (db : HostedDatabase Json) (input : ApplyPromptInput) (current : CommandRow) :
    Except HostedPersistenceError PromptApplication :=
  if current.cancelledByCommandId ≠ none then .ok (.cancelled current)
  else
    match ((db.turnStore.turns.find input.turnId).filter fun row => row.threadId = input.threadId).bind (·.executionLink),
      current.admissionStatus with
    | some link, some status => .ok (.admitted current input.turnId status link)
    | _, _ => .error (failure .conflict "Completed prompt command has no durable Runtime admission")

/-- A cancellation of the command that stands: it is admitted, or was applied. -/
def CancellationStands (row : CommandRow) : Prop :=
  row.state = .admitted ∨ row.state = .completed ∧ row.result = some .applied

instance (row : CommandRow) : Decidable (CancellationStands row) := inferInstanceAs (Decidable (_ ∨ _))

def cancellation (db : HostedDatabase Json) (ownerId threadId commandId : String) : Option CommandRow :=
  (StableSort.toSorted (fun left right => compare left.threadVersion right.threadVersion)
    (db.commands.select fun row => row.ownerId = ownerId && row.threadId = threadId &&
      row.command.cancels commandId && decide (CancellationStands row))).head?

def renameProvisionalTitle (db : HostedDatabase Json) (input : ApplyPromptInput) (admittedAt : Finite) :
    Option String × HostedDatabase Json :=
  match input.prepared.titleExpected with
  | none => (none, db)
  | some title =>
    if title = "New thread" then (none, db)
    else
      match (db.productThreads.find input.threadId).filter fun thread =>
          thread.ownerId = input.ownerId && thread.title = "New thread" &&
            !db.turnStore.turns.rows.any fun row => row.threadId = input.threadId with
      | none => (none, db)
      | some _ =>
        (some title,
          { db with
            productThreads := db.productThreads.update (fun thread => thread.id = input.threadId)
              fun thread => { thread with title, updatedAt := admittedAt } })

def promptTurn (input : ApplyPromptInput) (status : AdmissionStatus) (admittedAt : Finite) : TurnRow where
  id := input.turnId
  threadId := input.threadId
  turnKind := .agentExecution input.executionRoute
  prompt := input.prompt
  promptParts := input.promptParts
  status := status.status
  executionLink := none
  author := .human
  lineage := .original
  queueClaimToken := none
  createdAt := admittedAt
  updatedAt := admittedAt

section

variable (store : TurnDatabase)

/-- Takes a queue entry for a prompt, while the queue is shorter than the
capacity. -/
def takeQueueEntry (threadId : String) (queueCapacity : Int) :
    Except HostedPersistenceError TurnDatabase :=
  if (store.queueState threadId).queuedCount < queueCapacity then
    (ofTurnStore (store.updateQueueState threadId .added QueueState.added_threadId)).map Prod.snd
  else .error (failure .conflict "Thread prompt queue is full")

def admissionStatus (threadId : String) : AdmissionStatus :=
  if store.busy threadId then .queued else .accepted

def admitTurn (input : ApplyPromptInput) (queueCapacity : Int) (admittedAt : Finite) :
    Except HostedPersistenceError (AdmissionStatus × TurnDatabase) := do
  let status := admissionStatus store input.threadId
  let (_, inserted) ← ofTurnStore (store.insertTurn (promptTurn input status admittedAt))
  let initialized := { inserted with queueStates := inserted.queueStates.upsert (.empty input.threadId) id QueueState.id_threadId }
  match status with
  | .accepted => .ok (status, initialized)
  | .queued => do
    let queued ← takeQueueEntry initialized input.threadId queueCapacity
    .ok (status, queued)

/-- `UPDATE rika_turns SET execution_link_json` of one turn. -/
def setExecutionLink (turnId : String) (link : ExecutionLink) : TurnDatabase :=
  { store with
    turns := store.turns.update (fun row => row.id = turnId) fun row => { row with executionLink := some link } }

end

def promptEvents (input : ApplyPromptInput) (status : AdmissionStatus) (renamedTitle : Option String) :
    List InteractiveEvent :=
  let submission := InteractiveEvent.submissionAdmitted input.threadId input.turnId (status = .accepted) input.submissionId
  match renamedTitle with
  | none => [submission]
  | some title => [.threadTitled input.threadId title, submission]

def cancelledBy (state : ProtocolState) (completedAt : Timestamp) (cancelCommandId : String) (row : CommandRow) :
    CommandRow :=
  { row with
    state := .completed
    result := some .applied
    eventCursor := some state.eventCursor
    completedAt := some completedAt
    cancelledByCommandId := some cancelCommandId
    claim := none }

def promptAdmitted (input : ApplyPromptInput) (status : AdmissionStatus) (cursor : Nat) (row : CommandRow) :
    CommandRow :=
  { row with
    state := .completed
    result := some (.promptAdmitted status)
    eventCursor := some cursor
    completedAt := some input.completedAt
    turnId := some input.turnId
    admissionStatus := some status
    workState := some .turnActivationPending
    preparedTurn := some input.prepared
    claim := none }

def applicableCommand (db : HostedDatabase Json) (input : ApplyPromptInput) (now : Finite) :
    Except HostedPersistenceError CommandRow :=
  match db.findCommand input.ownerId input.threadId input.commandId with
  | none => .error (failure .notFound "Command is unavailable")
  | some current =>
    if current.actor ≠ input.actor then
      .error (failure .conflict "Command actor does not match its durable admission")
    else if current.turnId.any fun turnId => turnId ≠ input.turnId then
      .error (failure .conflict "Command identifies a different Turn")
    else if current.state = .completed then .ok current
    else if input.claimToken.any fun token => current.claimedBy token now = false then
      .error (failure .staleFence "Command application claim is expired or fenced")
    else if current.command.isSubmitPrompt = false then
      .error (failure .conflict "Command is not a prompt submission")
    else .ok current

section

variable (contract : Contract Json InteractiveEvent Snapshot) (projection : ProcessObservationProjection InteractiveEvent Snapshot) (db : HostedDatabase Json) (input : ApplyPromptInput) (stage : Except HostedPersistenceError ExecutionLink)

/-- Stages a prompt that nothing cancels: its turn, the events and the completed
command. -/
def stagePrompt (log : ThreadLog Json)
    (state : ProtocolState) (current : CommandRow) (queueCapacity : Int) (admittedAt : Finite) :
    Except HostedPersistenceError (PromptApplication × HostedDatabase Json) :=
  if !input.readinessProof then .error (failure .database "Prompt admission workers are unavailable")
  else if ((db.productThreads.find input.threadId).filter fun thread => thread.ownerId = input.ownerId).isNone then
    .error (failure .invalidAuthority "Thread has no product state for the owner")
  else
    let (renamedTitle, renamed) := db.renameProvisionalTitle input admittedAt
    if (db.turnStore.turns.find input.turnId).isSome then
      .error (failure .conflict "Turn identity is already in use")
    else do
      let (status, turnStore) ← admitTurn renamed.turnStore input queueCapacity admittedAt
      let link ← stage
      if link.turnId ≠ input.turnId ∨ link.threadId ≠ input.threadId then
        .error (failure .conflict "Runtime admission identifies a different Turn")
      else do
        let (events, log) ← log.writeEvents contract projection state.version (state.eventCursor + 1)
          (promptEvents input status renamedTitle) input.completedAt.text
        let cursor := (events.getLast?.map (·.cursor)).getD state.eventCursor
        let staged := { renamed with turnStore := setExecutionLink turnStore input.turnId link }
        let completed ← (staged.setLog input.threadId { log with state := some { state with eventCursor := cursor } }).updateCommand
          input.threadId input.commandId (promptAdmitted input status cursor)
        .ok (.admitted (promptAdmitted input status cursor current) input.turnId status link, completed)

def applyPrompt (now : Finite) :
    Except HostedPersistenceError (PromptApplication × HostedDatabase Json) := do
  let (queueCapacity, admittedAt) ← promptPreconditions input
  match db.state input.ownerId input.threadId with
  | none => .error (failure .notFound "Thread protocol state is unavailable")
  | some (log, state) => do
    let current ← db.applicableCommand input now
    if current.state = .completed then do
      let application ← db.completedApplication input current
      .ok (application, db)
    else
      match db.cancellation input.ownerId input.threadId input.commandId with
      | some cancel => do
        let cancelled ← db.updateCommand input.threadId input.commandId
          (cancelledBy state input.completedAt cancel.commandId)
        .ok (.cancelled (cancelledBy state input.completedAt cancel.commandId current), cancelled)
      | none => db.stagePrompt contract projection input stage log state current queueCapacity admittedAt

end

section

variable (db : HostedDatabase Json) (input : CancelPromptInput)

def applicableCancellation (now : Finite) : Except HostedPersistenceError CommandRow :=
  match (db.commands.find (input.threadId, input.cancelCommandId)).filter fun row =>
      row.command.cancels input.targetCommandId with
  | none => .error (failure .conflict "Cancellation command does not identify the target")
  | some cancel =>
    if cancel.actor ≠ input.actor then
      .error (failure .conflict "Cancellation actor does not match its durable admission")
    else if cancel.state = .completed ∧ cancel.result ≠ some .applied then
      .error (failure .conflict "Rejected cancellation cannot be applied")
    else if input.claimToken.any fun token => cancel.claimedBy token now = false then
      .error (failure .staleFence "Cancellation command claim is expired or fenced")
    else .ok cancel

def applyCancellation (state : ProtocolState)
    (cancel : CommandRow) : Except HostedPersistenceError (HostedDatabase Json) :=
  if input.claimToken.isNone ∧ cancel.state = .admitted then
    db.updateCommand input.threadId input.cancelCommandId fun row =>
      { row with
        state := .completed
        result := some .applied
        eventCursor := some state.eventCursor
        completedAt := some input.cancelledAt }
  else .ok db

def cancelSubmission (state : ProtocolState)
    (target : CommandRow) : Except HostedPersistenceError (HostedDatabase Json) :=
  if target.state = .admitted then
    db.updateCommand input.threadId input.targetCommandId (cancelledBy state input.cancelledAt input.cancelCommandId)
  else .ok db

/-- Cancels the prompt, unless it is completed, and says what became of it. -/
def cancelTarget (state : ProtocolState) :
    Except HostedPersistenceError (PromptCancellation × HostedDatabase Json) :=
  match db.commands.find (input.threadId, input.targetCommandId) with
  | none => .ok (.pending input.targetCommandId, db)
  | some target =>
    if target.command.isSubmitPrompt = false then
      .error (failure .conflict "Cancellation target is not a prompt submission")
    else do
      let cancelled ← db.cancelSubmission input state target
      match target.turnId, target.state, target.admissionStatus with
      | some turnId, .completed, some _ => .ok (.turn input.targetCommandId turnId, cancelled)
      | _, _, _ => .ok (.pending input.targetCommandId, cancelled)

end

def cancelPrompt (access : Except HostedPersistenceError Unit) (db : HostedDatabase Json) (input : CancelPromptInput)
    (now : Finite) : Except HostedPersistenceError (PromptCancellation × HostedDatabase Json) := do
  access
  match db.state input.ownerId input.threadId with
  | none => .error (failure .notFound "Thread protocol state is unavailable")
  | some (_, state) => do
    let cancel ← db.applicableCancellation input now
    let applied ← db.applyCancellation input state cancel
    applied.cancelTarget input state

end HostedDatabase

end Rika
