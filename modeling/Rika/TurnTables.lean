import Rika.Fold
import Rika.Table
import Rika.Turn

namespace Rika

inductive TurnError
  | repositoryError (message : String)
  | queueFull (threadId : String) (capacity count : Int)
  | queuedTurnUnavailable (turnId message : String)

def repositoryError {α : Type} (message : String) : Except TurnError α := .error (.repositoryError message)

def missing {α : Type} (id : String) : Except TurnError α := repositoryError s!"Turn {id} does not exist"

def queuedTurnUnavailable {α : Type} (id : String) : Except TurnError α :=
  .error (.queuedTurnUnavailable id s!"Turn {id} is not queued")

def sqlError {α : Type} (index : String) : Except TurnError α :=
  repositoryError s!"duplicate key value violates unique constraint {index}"

structure ExecutionLink where
  runId : String
  titleRunId : Option String
  titleExpected : Option String
  turnId : String
  threadId : String
deriving DecidableEq

inductive RowKind
  | agentExecution (executionRoute : String)
  | recordedShell (command : String)
deriving DecidableEq

/-- A row of `rika_turns`. Prompt parts and routes stay in their stored text. -/
structure TurnRow where
  id : String
  threadId : String
  turnKind : RowKind
  prompt : String
  promptParts : Option String
  status : Status
  executionLink : Option ExecutionLink
  author : TurnAuthor
  lineage : TurnLineage
  queueClaimToken : Option String
  createdAt : Finite
  updatedAt : Finite
deriving DecidableEq

structure AgentExecutionTurn where
  id : String
  threadId : String
  prompt : String
  promptParts : Option String
  status : Status
  executionRoute : String
  executionLink : Option ExecutionLink
  author : TurnAuthor
  lineage : TurnLineage
  createdAt : Finite
  updatedAt : Finite
deriving DecidableEq

structure QueueState where
  threadId : String
  revision : Nat
  queuedCount : Int

inductive QueueChange
  | added (turn : AgentExecutionTurn) (position : Option Nat)
  | updated (turn : AgentExecutionTurn)
  | removed (turnId : String)
deriving DecidableEq

structure QueueItemChange where
  threadId : String
  revision : Nat
  queuedCount : Int
  becameNonempty : Bool
  change : QueueChange
deriving DecidableEq

structure StartTurn where
  threadId : String
  turnId : String
  workspaceId : String
  prompt : String
  promptParts : Option String
  executionRoute : String
  expectedTitle : Option String
  reviewIntent : Option String
deriving DecidableEq

structure ExecutionAdmissionRow where
  turnId : String
  startInput : StartTurn
  preparedAt : Finite

structure SteeringInput where
  text : String
  idempotencyKey : String
deriving DecidableEq

structure SteeringReceipt where
  entryId : String
  sequence : Nat
deriving DecidableEq

inductive SteeringFailureKind
  | rejected
  | unknown
deriving DecidableEq

structure SteeringFailure where
  kind : SteeringFailureKind
  message : String
deriving DecidableEq

inductive SteeringOutcome
  | pending
  | accepted (receipt : SteeringReceipt)
  | rejected (failure : SteeringFailure) (queue : Option QueueItemChange)
deriving DecidableEq

inductive SteeringStatus
  | pending
  | accepted
  | rejected
deriving DecidableEq

def SteeringOutcome.status : SteeringOutcome → SteeringStatus
  | pending => .pending
  | accepted _ => .accepted
  | rejected _ _ => .rejected

structure SteeringAdmission where
  target : ExecutionLink
  input : SteeringInput
  source : Option AgentExecutionTurn
  sourceWithdrawn : Bool
  preparedAt : Finite
  outcome : SteeringOutcome
deriving DecidableEq

/-- A row of `rika_turn_steering_outbox`: an admission, and the columns that
are written from it. -/
structure SteeringRow where
  requestId : String
  targetTurnId : String
  sourceTurnId : Option String
  threadId : String
  admission : SteeringAdmission
  sourceWithdrawn : Bool
  status : SteeringStatus
  preparedAt : Finite
  consistent : requestId = admission.input.idempotencyKey ∧ targetTurnId = admission.target.turnId ∧
    sourceTurnId = admission.source.map (·.id) ∧ sourceWithdrawn = admission.sourceWithdrawn ∧
      status = admission.outcome.status
deriving DecidableEq

namespace TurnRow

section

variable (row : TurnRow)

def isAgent : Bool :=
  match row.turnKind with
  | .agentExecution _ => true
  | .recordedShell _ => false

def isExecuting : Bool := row.isAgent && row.status.isActiveStatus

def isOpen : Bool := row.isAgent && !row.status.isTerminalStatus

def decodeAgent : Except TurnError AgentExecutionTurn :=
  match row.turnKind with
  | .agentExecution executionRoute =>
    .ok
      { id := row.id
        threadId := row.threadId
        prompt := row.prompt
        promptParts := row.promptParts
        status := row.status
        executionRoute
        executionLink := row.executionLink
        author := row.author
        lineage := row.lineage
        createdAt := row.createdAt
        updatedAt := row.updatedAt }
  | .recordedShell _ => repositoryError "Expected an AgentExecution turn"

theorem unclaimed_id : { row with queueClaimToken := none }.id = row.id := rfl

end

def queueOrder (collation : Collation) (left right : TurnRow) : Ordering :=
  (compare left.createdAt right.createdAt).then (collation.compare left.id right.id)

end TurnRow

namespace QueueState

def empty (threadId : String) : QueueState := ⟨threadId, 0, 0⟩

section

variable (state : QueueState)

def touched : QueueState := { state with revision := state.revision + 1 }

def added : QueueState :=
  { state with revision := state.revision + 1, queuedCount := state.queuedCount + 1 }

def removed : QueueState :=
  { state with
    revision := state.revision + 1
    queuedCount := if state.queuedCount > 0 then state.queuedCount - 1 else 0 }

theorem added_threadId : state.added.threadId = state.threadId := rfl

theorem removed_threadId : state.removed.threadId = state.threadId := rfl

theorem id_threadId : (id state).threadId = state.threadId := rfl

def itemChange (threadId : String) (becameNonempty : Bool) (change : QueueChange) :
    QueueItemChange := ⟨threadId, state.revision, state.queuedCount, becameNonempty, change⟩

end

end QueueState

structure TurnDatabase where
  turns : Table TurnRow.id
  queueStates : Table QueueState.threadId
  steering : Table SteeringRow.requestId
  executionAdmissions : Table ExecutionAdmissionRow.turnId

namespace TurnDatabase

def empty : TurnDatabase := ⟨Table.empty, Table.empty, Table.empty, Table.empty⟩

section

variable (db : TurnDatabase)

def queueState (threadId : String) : QueueState :=
  (db.queueStates.find threadId).getD (.empty threadId)

/-- A queued turn is hidden while a steering admission that is not rejected
has it as its source. -/
def hidden (turnId : String) : Bool :=
  db.steering.rows.any fun row => row.sourceTurnId = some turnId && row.status ≠ .rejected

def eligibleQueued (row : TurnRow) : Bool :=
  row.isAgent && row.status = .queued && !db.hidden row.id

def visible (threadId : String) (row : TurnRow) : Bool :=
  row.threadId = threadId && db.eligibleQueued row

end

def visibleQueue (collation : Collation) (db : TurnDatabase) (threadId : String) : List TurnRow :=
  StableSort.toSorted (TurnRow.queueOrder collation) (db.turns.select (db.visible threadId))

def reserved (db : TurnDatabase) (threadId : String) : Nat :=
  db.steering.rows.countP fun row =>
    row.threadId = threadId && row.sourceTurnId.isSome && row.status ≠ .rejected && row.sourceWithdrawn

/-- The unique indexes of `rika_turns`: one executing turn and one claimed turn
in a thread. -/
def UniqueLane (turns : Table TurnRow.id) : Prop :=
  (∀ row ∈ turns.rows, ∀ other ∈ turns.rows, row.isExecuting = true → other.isExecuting = true →
    row.threadId = other.threadId → row.id = other.id) ∧
    ∀ row ∈ turns.rows, ∀ other ∈ turns.rows, row.queueClaimToken ≠ none → other.queueClaimToken ≠ none →
      row.threadId = other.threadId → row.id = other.id

instance (turns : Table TurnRow.id) : Decidable (UniqueLane turns) := inferInstanceAs (Decidable (_ ∧ _))

section

variable (db : TurnDatabase)

def writeTurns (turns : Table TurnRow.id) : Except TurnError TurnDatabase :=
  if UniqueLane turns then .ok { db with turns } else sqlError "rika_turns_one_active or rika_turns_queue_claim"

/-- `UPDATE rika_turns SET f WHERE id AND p RETURNING ..`. -/
def updateTurn (id : String) (p : TurnRow → Bool) (f : TurnRow → TurnRow)
    (hf : ∀ row, (f row).id = row.id := by intro _; rfl) : Except TurnError (Option TurnRow × TurnDatabase) :=
  match (db.turns.find id).filter p with
  | none => .ok (none, db)
  | some row => do
    let db ← db.writeTurns (db.turns.update (fun row => row.id = id) f hf)
    .ok (some (f row), db)

/-- What the trigger makes of an inserted row: an accepted turn of a busy
thread is queued. -/
def admitted (row : TurnRow) : TurnRow :=
  if row.isAgent && row.status = .accepted &&
      db.turns.rows.any fun other => other.threadId = row.threadId && other.isOpen then
    { row with status := .queued }
  else row

def insertTurn (row : TurnRow) : Except TurnError (TurnRow × TurnDatabase) :=
  let inserted := db.admitted row
  match db.turns.insert inserted with
  | none => sqlError "rika_turns_pkey"
  | some turns => do
    let db ← db.writeTurns turns
    .ok (inserted, db)

/-- `DELETE FROM rika_turns`, with the rows that reference the turn. -/
def deleteTurn (id : String) : TurnDatabase :=
  { db with
    turns := db.turns.delete fun row => row.id = id
    steering := db.steering.delete fun row => row.targetTurnId = id || row.sourceTurnId = some id
    executionAdmissions := db.executionAdmissions.delete fun row => row.turnId = id }

/-- `UPDATE rika_thread_queue_state SET f RETURNING ..`. -/
def updateQueueState (threadId : String) (f : QueueState → QueueState)
    (hf : ∀ state, (f state).threadId = state.threadId := by intro _; rfl) :
    Except TurnError (QueueState × TurnDatabase) :=
  match db.queueStates.find threadId with
  | none => repositoryError s!"Queue state {threadId} does not exist"
  | some state =>
    .ok (f state, { db with queueStates := db.queueStates.update (fun state => state.threadId = threadId) f hf })

/-- Takes a queue entry when the queue and the slots kept for withdrawn turns
leave room for it. -/
def reserveQueueEntry (threadId : String) (capacity : Int) :
    Except TurnError (QueueState × TurnDatabase) :=
  let db := { db with queueStates := db.queueStates.upsert (.empty threadId) id QueueState.id_threadId }
  let count : Int := (db.queueState threadId).queuedCount + db.reserved threadId
  if count < capacity then db.updateQueueState threadId .added QueueState.added_threadId else .error (.queueFull threadId capacity count)

end

end TurnDatabase

end Rika
