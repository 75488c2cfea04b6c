import Rika.InsertionMap
import Rika.TurnTables

namespace Rika.ThreadSummaries

open StableSort (toSorted)

inductive ThreadState
  | idle
  | error
  | queued
  | running
deriving DecidableEq

structure EditTotals where
  added : Int
  modified : Int
  removed : Int
deriving DecidableEq

structure ThreadSummary where
  id : String
  workspace : String
  title : String
  pinned : Bool
  archived : Bool
  status : ThreadState
  unread : Bool
  lastActivityAt : Finite
  turnCount : Int
  editTotals : Option EditTotals
deriving DecidableEq

structure RepairCandidate where
  turnId : String
  threadId : String
  status : Status
deriving DecidableEq

structure ListInput where
  projectId : Option String
  includeArchived : Bool
  limit : Option Int

structure TurnActivityInput where
  turnId : String
  threadId : String
  projectedCursor : Option String
  complete : Bool
  editTotals : EditTotals
  lastEventAt : Option Finite
  now : Finite

def statusRank : Status → Nat
  | .accepted | .running | .waiting | .cancelling => 2
  | .queued => 1
  | .completed | .failed | .cancelled => 0

def threadStateFromRank (rank : Nat) (lastStatus : Option Status) : ThreadState :=
  if rank = 2 then .running else if rank = 1 then .queued else if lastStatus = some .failed then .error else .idle

def threadState (statuses : List Status) : ThreadState :=
  threadStateFromRank (statuses.foldl (fun highest status => max highest (statusRank status)) 0) statuses.getLast?

def listLimit (value : Option Int) : Nat := (min (max (value.getD 100) 1) 100).toNat

section Database

/-- A row of `rika_threads`. -/
structure ThreadRow extends Thread where
  ownerId : String

def ThreadRow.key (row : ThreadRow) : String := row.id

/-- A row of `rika_thread_turn_activity`. -/
structure ActivityRow where
  turnId : String
  threadId : String
  projectedCursor : Option String
  complete : Bool
  added : Int
  modified : Int
  removed : Int
  lastEventAt : Option Finite
  updatedAt : Finite

/-- A row of `rika_thread_read_state`. -/
structure ReadStateRow where
  threadId : String
  lastReadAt : Finite

/-- A row of `rika_hosted_threads` that has a Project. -/
structure HostedProject where
  threadId : String
  ownerId : String
  projectId : String

structure Database where
  threads : Table ThreadRow.key
  turns : Table TurnRow.id
  activity : Table ActivityRow.turnId
  readState : Table ReadStateRow.threadId
  hostedProjects : List HostedProject
  deletionOutbox : List String

def Database.empty : Database := ⟨.empty, .empty, .empty, .empty, [], []⟩

inductive SqlError
  | integerOutOfRange
  | checkViolation
  | foreignKeyViolation

variable (collation : Collation) (db : Database) (ownerId : String)

def compareThreads (left right : ThreadRow) : Ordering :=
  (compare right.pinned left.pinned).then
    ((compare right.updatedAt left.updatedAt).then (collation.compare left.id right.id))

def listThreads (includeArchived : Bool) (limit : Option Int) : List ThreadRow :=
  let rows := db.threads.rows.filter fun row =>
    row.ownerId = ownerId && !db.deletionOutbox.contains row.id && (includeArchived || !row.archived)
  (toSorted (compareThreads collation) rows).take (min (max (limit.getD 50) 1) 100).toNat

def compareTurns (left right : TurnRow) : Ordering :=
  (compare left.createdAt right.createdAt).then (collation.compare left.id right.id)

def listTurns (threadId : String) : List TurnRow :=
  toSorted (compareTurns collation) (db.turns.rows.filter fun turn => turn.threadId = threadId)

/-- `::INTEGER`. -/
def toInteger (value : Int) : Except SqlError Int :=
  if -2147483648 ≤ value && value ≤ 2147483647 then .ok value else .error .integerOutOfRange

/-- A row of `rika_thread_picker_summary`. -/
structure PickerRow where
  threadId : String
  workspace : String
  title : String
  pinned : Bool
  archived : Bool
  statusRank : Nat
  lastStatus : Option Status
  lastActivityAt : Finite
  turnCount : Int
  currentActivityCount : Int
  added : Int
  modified : Int
  removed : Int

/-- `coalesce(max(..), 0)`. -/
def coalesceMax (values : List Finite) : Finite := values.max?.getD 0

/-- The status of a turn that `FILTER`s count as active. -/
def isActive (status : Status) : Bool := status ∈ [.accepted, .running, .waiting, .cancelling]

def isCurrent (turn : TurnRow) (activity : Option ActivityRow) : Bool :=
  activity.any fun activity => turn.status ∉ [.completed, .failed, .cancelled] || activity.complete

def pickerSummary (thread : ThreadRow) : Except SqlError PickerRow := do
  let turns := db.turns.rows.filter fun turn => turn.threadId = thread.id
  let activities := turns.filterMap fun turn => db.activity.find turn.id
  let turnCount ← toInteger turns.length
  let currentActivityCount ← toInteger (turns.countP fun turn => isCurrent turn (db.activity.find turn.id))
  let added ← toInteger (activities.map (·.added)).sum
  let modified ← toInteger (activities.map (·.modified)).sum
  let removed ← toInteger (activities.map (·.removed)).sum
  .ok
    { threadId := thread.id
      workspace := thread.workspace
      title := thread.title
      pinned := thread.pinned
      archived := thread.archived
      statusRank :=
        if 0 < turns.countP (fun turn => isActive turn.status) then 2
        else if 0 < turns.countP (fun turn => turn.status = .queued) then 1
        else 0
      lastStatus :=
        ((toSorted (fun left right => compareTurns collation right left) turns).head?).map (·.status)
      lastActivityAt :=
        max thread.createdAt
          (max (coalesceMax (turns.map (·.updatedAt))) (coalesceMax (activities.filterMap (·.lastEventAt))))
      turnCount
      currentActivityCount
      added
      modified
      removed }

def decodeSummary (row : PickerRow) (lastReadAt : Option Finite) : ThreadSummary where
  id := row.threadId
  workspace := row.workspace
  title := row.title
  pinned := row.pinned
  archived := row.archived
  status := threadStateFromRank row.statusRank row.lastStatus
  unread := lastReadAt.getD 0 < row.lastActivityAt
  lastActivityAt := row.lastActivityAt
  turnCount := max 0 row.turnCount
  editTotals :=
    if 0 < row.turnCount && row.turnCount = row.currentActivityCount then
      some ⟨max 0 row.added, max 0 row.modified, max 0 row.removed⟩
    else none

def compareRows (left right : PickerRow) : Ordering :=
  (compare right.pinned left.pinned).then
    ((compare right.lastActivityAt left.lastActivityAt).then (collation.compare left.threadId right.threadId))

def inProject (projectId : Option String) (thread : ThreadRow) : Bool :=
  projectId.all fun projectId =>
    db.hostedProjects.any fun hosted =>
      hosted.threadId = thread.id && hosted.ownerId = ownerId && hosted.projectId = projectId

/-- `list` of the repository in the database. -/
def list (input : ListInput) : Except SqlError (List ThreadSummary) := do
  let threads := db.threads.rows.filter fun thread =>
    thread.ownerId = ownerId && !db.deletionOutbox.contains thread.id && inProject db ownerId input.projectId thread &&
      (input.includeArchived || !thread.archived)
  let rows ← threads.mapM (pickerSummary collation db)
  let page := (toSorted (compareRows collation) rows).take (listLimit input.limit)
  return page.map fun row => decodeSummary row ((db.readState.find row.threadId).map (·.lastReadAt))

def needsRepair (turn : TurnRow) (activity : Option ActivityRow) : Bool :=
  match activity with
  | none => true
  | some activity => turn.status ∈ [.completed, .failed, .cancelled] && !activity.complete

def repairCandidate (turn : TurnRow) : RepairCandidate := ⟨turn.id, turn.threadId, turn.status⟩

def candidates : List TurnRow :=
  toSorted (compareTurns collation) <|
    db.turns.rows.filter fun turn =>
      (db.threads.find turn.threadId).any (fun thread => thread.ownerId = ownerId) &&
        !db.deletionOutbox.contains turn.threadId && turn.isAgent && needsRepair turn (db.activity.find turn.id)

/-- `listRepairCandidates` of the repository in the database. -/
def listRepairCandidates (limit : Option Int) : List RepairCandidate :=
  ((candidates collation db ownerId).take (listLimit (some (limit.getD 25)))).map repairCandidate

end Database

section Memory

structure Activity where
  turnId : String
  threadId : String
  projectedCursor : Option String
  complete : Bool
  editTotals : EditTotals
  lastEventAt : Option Finite
  updatedAt : Finite

structure Memory where
  activities : InsertionMap String Activity
  readAt : InsertionMap String Finite

def Memory.empty : Memory := ⟨.empty, .empty⟩

variable (collation : Collation) (db : Database) (ownerId : String) (memory : Memory)

def EditTotals.add (total : EditTotals) (totals : EditTotals) : EditTotals :=
  ⟨total.added + totals.added, total.modified + totals.modified, total.removed + totals.removed⟩

def summarize (thread : ThreadRow) (history : List TurnRow) : ThreadSummary :=
  let projected := history.filterMap fun turn => memory.activities.get turn.id
  let currentProjected := history.filterMap fun turn =>
    (memory.activities.get turn.id).filter fun activity => !turn.status.isTerminalStatus || activity.complete
  let lastActivityAt :=
    (history.map (·.updatedAt) ++ projected.filterMap (·.lastEventAt)).foldl max thread.createdAt
  { id := thread.id
    workspace := thread.workspace
    title := thread.title
    pinned := thread.pinned
    archived := thread.archived
    status := threadState (history.map (·.status))
    unread := (memory.readAt.get thread.id).getD 0 < lastActivityAt
    lastActivityAt
    turnCount := history.length
    editTotals :=
      if 0 < history.length && currentProjected.length = history.length then
        some ((currentProjected.map (·.editTotals)).foldl EditTotals.add ⟨0, 0, 0⟩)
      else none }

def compareSummaries (left right : ThreadSummary) : Ordering :=
  (compare right.pinned left.pinned).then
    ((compare right.lastActivityAt left.lastActivityAt).then (collation.compare left.id right.id))

/-- `list` of the repository in memory. -/
def Memory.list (input : ListInput) : List ThreadSummary :=
  if input.projectId.isSome then []
  else
    let summaries := (listThreads collation db ownerId true (some 100)).map fun thread =>
      summarize memory thread (listTurns collation db thread.id)
    (toSorted (compareSummaries collation)
      (summaries.filter fun summary => input.includeArchived || !summary.archived)).take (listLimit input.limit)

def Memory.needsRepair (turn : TurnRow) : Bool :=
  match memory.activities.get turn.id with
  | none => true
  | some activity => turn.status.isTerminalStatus && !activity.complete

def Memory.candidates : List TurnRow :=
  ((listThreads collation db ownerId true (some 100)).flatMap fun thread => listTurns collation db thread.id).filter
    fun turn => turn.isAgent && memory.needsRepair turn

/-- `listRepairCandidates` of the repository in memory. -/
def Memory.listRepairCandidates (limit : Option Int) : List RepairCandidate :=
  ((memory.candidates collation db ownerId).take (listLimit (some (limit.getD 25)))).map repairCandidate

end Memory

/-- The operations, while no thread is deleted; those of the repositories are what they do to a row. -/
inductive Operation
  | putThread (row : ThreadRow)
  | putTurn (row : TurnRow)
  | dequeueTurn (turnId : String)
  | ensureTurn (turnId threadId : String) (now : Finite)
  | replaceTurn (input : TurnActivityInput)
  | markRead (threadId : String) (now : Finite)

section Operations

def activityRow (input : TurnActivityInput) : ActivityRow where
  turnId := input.turnId
  threadId := input.threadId
  projectedCursor := input.projectedCursor
  complete := input.complete
  added := input.editTotals.added
  modified := input.editTotals.modified
  removed := input.editTotals.removed
  lastEventAt := input.lastEventAt
  updatedAt := input.now

def newActivity (turnId threadId : String) (now : Finite) : TurnActivityInput :=
  ⟨turnId, threadId, none, false, ⟨0, 0, 0⟩, none, now⟩

def referenced (db : Database) (turnId threadId : String) : Bool :=
  (db.turns.find turnId).isSome && (db.threads.find threadId).isSome

/-- The column is an integer that is not negative. -/
def checkTotal (value : Int) : Except SqlError Unit :=
  if 2147483647 < value || value < -2147483648 then .error .integerOutOfRange
  else if value < 0 then .error .checkViolation
  else .ok ()

section

variable (db : Database)

def ensureTurn (turnId threadId : String) (now : Finite) : Except SqlError Database :=
  match db.activity.find turnId with
  | some _ => .ok db
  | none =>
    if referenced db turnId threadId then
      .ok { db with activity := db.activity.set (activityRow (newActivity turnId threadId now)) }
    else .error .foreignKeyViolation

def replaceTurn (input : TurnActivityInput) : Except SqlError Database := do
  checkTotal input.editTotals.added
  checkTotal input.editTotals.modified
  checkTotal input.editTotals.removed
  if (db.activity.find input.turnId).any fun row => input.now < row.updatedAt then .ok db
  else if referenced db input.turnId input.threadId then
    .ok { db with activity := db.activity.set (activityRow input) }
  else .error .foreignKeyViolation

def markRead (threadId : String) (now : Finite) : Except SqlError Database :=
  if (db.threads.find threadId).isSome then
    let lastReadAt := ((db.readState.find threadId).map (·.lastReadAt)).elim now fun lastReadAt => max lastReadAt now
    .ok { db with readState := db.readState.set ⟨threadId, lastReadAt⟩ }
  else .error .foreignKeyViolation

def dequeueTurn (turnId : String) : Database :=
  { db with
    turns := db.turns.delete fun turn => turn.id = turnId
    activity := db.activity.delete fun row => row.turnId = turnId }

def Database.apply : Operation → Except SqlError Database
  | .putThread row => .ok { db with threads := db.threads.set row }
  | .putTurn row =>
    if (db.threads.find row.threadId).isSome then .ok { db with turns := db.turns.set row }
    else .error .foreignKeyViolation
  | .dequeueTurn turnId => .ok (dequeueTurn db turnId)
  | .ensureTurn turnId threadId now => ensureTurn db turnId threadId now
  | .replaceTurn input => replaceTurn db input
  | .markRead threadId now => markRead db threadId now

end

def activityOf (input : TurnActivityInput) : Activity :=
  ⟨input.turnId, input.threadId, input.projectedCursor, input.complete, input.editTotals, input.lastEventAt, input.now⟩

def Memory.apply (memory : Memory) : Operation → Memory
  | .ensureTurn turnId threadId now =>
    if memory.activities.has turnId then memory
    else { memory with activities := memory.activities.set turnId (activityOf (newActivity turnId threadId now)) }
  | .replaceTurn input =>
    if (memory.activities.get input.turnId).any fun activity => input.now < activity.updatedAt then memory
    else { memory with activities := memory.activities.set input.turnId (activityOf input) }
  | .markRead threadId now =>
    { memory with readAt := memory.readAt.set threadId (max ((memory.readAt.get threadId).getD 0) now) }
  | .putThread _ | .putTurn _ | .dequeueTurn _ => memory

def Database.run (operations : List Operation) : Except SqlError Database := operations.foldlM Database.apply .empty

def Memory.run (operations : List Operation) : Memory := operations.foldl Memory.apply .empty

end Operations

end Rika.ThreadSummaries
