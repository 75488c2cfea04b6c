import Rika.TurnTables

namespace Rika

structure CreateInput where
  id : String
  threadId : String
  prompt : String
  promptParts : Option String
  executionRoute : String
  author : Option TurnAuthor
  lineage : Option TurnLineage
  queueCapacity : Int
  now : Finite

abbrev Submission := AgentExecutionTurn × Option QueueItemChange

structure RecordedShellTurn where
  id : String
  threadId : String
  prompt : String
  command : String
  status : Status
  createdAt : Finite
  updatedAt : Finite

def AgentExecutionTurn.row (turn : AgentExecutionTurn) : TurnRow where
  id := turn.id
  threadId := turn.threadId
  turnKind := .agentExecution turn.executionRoute
  prompt := turn.prompt
  promptParts := turn.promptParts
  status := turn.status
  executionLink := turn.executionLink
  author := turn.author
  lineage := turn.lineage
  queueClaimToken := none
  createdAt := turn.createdAt
  updatedAt := turn.updatedAt

def RecordedShellTurn.row (turn : RecordedShellTurn) : TurnRow where
  id := turn.id
  threadId := turn.threadId
  turnKind := .recordedShell turn.command
  prompt := turn.prompt
  promptParts := none
  status := turn.status
  executionLink := none
  author := .human
  lineage := .original
  queueClaimToken := none
  createdAt := turn.createdAt
  updatedAt := turn.updatedAt

namespace TurnDatabase

section

variable (db : TurnDatabase)

def busy (threadId : String) : Bool :=
  db.turns.rows.any fun row => row.threadId = threadId && row.isOpen

def submittedRow (input : CreateInput) : TurnRow where
  id := input.id
  threadId := input.threadId
  turnKind := .agentExecution input.executionRoute
  prompt := input.prompt
  promptParts := input.promptParts
  status := if db.busy input.threadId then .queued else .accepted
  executionLink := none
  author := input.author.getD .human
  lineage := input.lineage.getD .original
  queueClaimToken := none
  createdAt := input.now
  updatedAt := input.now

def createForSubmission (input : CreateInput) : Except TurnError (Submission × TurnDatabase) := do
  let (row, db) ← db.insertTurn (db.submittedRow input)
  let turn ← row.decodeAgent
  if turn.status ≠ .queued then .ok ((turn, none), db)
  else
    let (state, db) ← db.reserveQueueEntry input.threadId input.queueCapacity
    .ok ((turn, some (state.itemChange input.threadId (state.queuedCount = 1) (.added turn none))), db)

def copy (turn : AgentExecutionTurn) (queueCapacity : Int) :
    Except TurnError (Submission × TurnDatabase) := do
  let (_, db) ← db.insertTurn turn.row
  if turn.status ≠ .queued then .ok ((turn, none), db)
  else
    let (state, db) ← db.reserveQueueEntry turn.threadId queueCapacity
    .ok ((turn, some (state.itemChange turn.threadId (state.queuedCount = 1) (.added turn none))), db)

def insertRecordedShell (turn : RecordedShellTurn) : Except TurnError TurnDatabase := do
  let (_, db) ← db.insertTurn turn.row
  .ok db

def createRecordedShell (turn : RecordedShellTurn) : Except TurnError TurnDatabase :=
  if turn.status = .running then db.insertRecordedShell turn
  else repositoryError s!"Turn {turn.id} is not a running recorded shell"

def copyRecordedShell (turn : RecordedShellTurn) : Except TurnError TurnDatabase :=
  if turn.status.isTerminalStatus then db.insertRecordedShell turn
  else repositoryError s!"Turn {turn.id} is not a terminal recorded shell"

def settleRecordedShell (expected : RecordedShellTurn) (status : TerminalStatus)
    (updatedAt : Finite) : Except TurnError (Bool × TurnDatabase) := do
  let (settled, db) ← db.updateTurn expected.id
    (fun row => row.threadId = expected.threadId && row.turnKind = .recordedShell expected.command &&
      row.status = .running && row.prompt = expected.prompt)
    fun row => { row with status := status.status, updatedAt }
  .ok (settled.isSome, db)

section

variable (id : String)

def setStatus (status : Status) (now : Finite) :
    Except TurnError (AgentExecutionTurn × TurnDatabase) :=
  if status = .queued then repositoryError s!"Turn {id} cannot transition into 'queued' via setStatus"
  else
    match (db.turns.find id).filter TurnRow.isAgent with
    | none => missing id
    | some before => do
      let existing ← before.decodeAgent
      if existing.status = .queued then
        repositoryError s!"Turn {id} cannot transition into or out of 'queued' via setStatus"
      else
        let (moved, db) ← db.updateTurn id (fun row => row.isAgent && !row.status.isTerminalStatus)
          fun row => { row with status, updatedAt := now }
        match moved with
        | none => .ok (existing, db)
        | some row => do
          let turn ← row.decodeAgent
          .ok (turn, db)

def startAccepted (now : Finite) : Except TurnError (Bool × TurnDatabase) := do
  let (started, db) ← db.updateTurn id (fun row => row.isAgent && row.status = .accepted)
    fun row => { row with status := .running, updatedAt := now }
  .ok (started.isSome, db)

def cancelUnlinked (now : Finite) : Except TurnError (Bool × TurnDatabase) := do
  let (cancelled, db) ← db.updateTurn id
    (fun row => row.isAgent && (row.status = .accepted || row.status = .running) && row.executionLink.isNone)
    fun row => { row with status := .cancelled, updatedAt := now }
  .ok (cancelled.isSome, db)

def prepareExecutionAdmission (prepared : StartTurn) (now : Finite) :
    Except TurnError (StartTurn × TurnDatabase) :=
  let inserted :=
    ((db.turns.find prepared.turnId).filter fun row => row.threadId = prepared.threadId && row.isAgent).bind
      fun _ => db.executionAdmissions.insert ⟨prepared.turnId, prepared, now⟩
  let executionAdmissions := inserted.getD db.executionAdmissions
  match executionAdmissions.find prepared.turnId with
  | none => missing prepared.turnId
  | some persisted =>
    if persisted.startInput = prepared then .ok (persisted.startInput, { db with executionAdmissions })
    else repositoryError s!"Turn {prepared.turnId} already has different prepared execution admission"

def dropExecutionAdmission : TurnDatabase :=
  { db with executionAdmissions := db.executionAdmissions.delete fun row => row.turnId = id }

def attachExecutionLink (link : ExecutionLink) (now : Finite) :
    Except TurnError (AgentExecutionTurn × TurnDatabase) :=
  match (db.turns.find id).filter TurnRow.isAgent with
  | none => missing id
  | some row => do
    let existing ← row.decodeAgent
    match existing.executionLink with
    | some attached =>
      if attached.runId ≠ link.runId ∨ attached.turnId ≠ link.turnId ∨ attached.threadId ≠ link.threadId then
        repositoryError s!"Turn {id} already has a different execution link"
      else .ok (existing, db.dropExecutionAdmission id)
    | none =>
      match db.executionAdmissions.find id with
      | none => repositoryError s!"Turn {id} has no prepared execution admission"
      | some admission =>
        if link.turnId ≠ admission.startInput.turnId ∨ link.threadId ≠ admission.startInput.threadId then
          repositoryError s!"Execution link does not identify prepared admission for Turn {id}"
        else do
          let (attached, db) ← db.updateTurn id (fun row => row.isAgent && row.executionLink.isNone)
            fun row => { row with executionLink := some link, updatedAt := now }
          match attached with
          | none => repositoryError s!"Turn {id} execution link changed while attaching"
          | some row => do
            let turn ← row.decodeAgent
            .ok (turn, db.dropExecutionAdmission id)

end

end

end TurnDatabase

end Rika
