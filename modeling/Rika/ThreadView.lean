import Rika.InsertionMap
import Rika.Turn

namespace Rika.ThreadView

open Usage (UsageState ThreadViewUsage)

namespace limits

def pending : Nat := 64

end limits

structure ThreadViewPendingTurn where
  id : String
  prompt : String
  createdAt : Finite

inductive ThreadViewTurnKind
  | agent
  | shell (command : String) (result : Option RecordedShellResult)

structure ThreadViewTurnRecord where
  id : String
  threadId : String
  prompt : String
  status : Status
  author : TurnAuthor
  lineage : TurnLineage
  createdAt : Finite
  updatedAt : Finite
  kind : ThreadViewTurnKind

def turnRecord (turn : Turn) : ThreadViewTurnRecord where
  id := turn.id
  threadId := turn.threadId
  prompt := turn.prompt
  status := turn.status
  author := turn.author
  lineage := turn.lineage
  createdAt := turn.createdAt
  updatedAt := turn.updatedAt
  kind :=
    match turn.kind with
    | .agentExecution _ _ => .agent
    | .recordedShell command .running => .shell command none
    | .recordedShell command (.settled _ result) => .shell command (some result)

structure PendingSteering where
  runId : String
  entryId : String
  requestId : String
  sequence : Nat
  text : String
deriving DecidableEq

inductive SteeringOutcome
  | consumed
  | discarded
deriving DecidableEq

structure SteeringDisposition where
  runId : String
  entryId : String
  requestId : String
  sequence : Nat
  outcome : SteeringOutcome
deriving DecidableEq

structure ThreadViewTurnState where
  turn : ThreadViewTurnRecord
  projectionRevision : Finite
  usage : UsageState
  needsResolution : Option Bool
  pendingSteering : Option (List PendingSteering)
  settledSteering : Option (List SteeringDisposition)

structure ThreadViewTurn extends ThreadViewTurnState where
  units : List TranscriptUnit.Unit

structure PageCursor where
  createdAt : Finite
  turnId : String
  orderKey : String
deriving DecidableEq

structure ThreadViewSource where
  projectionVersion : Nat
  oldestCursor : Option PageCursor
  newestCursor : Option PageCursor

structure ThreadViewHeader where
  thread : Thread
  source : ThreadViewSource
  pending : List ThreadViewPendingTurn
  hasOlder : Bool
  hasNewer : Bool
  usage : ThreadViewUsage

structure ThreadViewSnapshot extends ThreadViewHeader where
  revision : Nat
  turns : List ThreadViewTurn

inductive ThreadViewTurnChange
  | upsertTurn (state : ThreadViewTurnState)
  | removeTurn (turnId : String)

def ThreadViewTurnChange.key : ThreadViewTurnChange → String
  | upsertTurn state => state.turn.id
  | removeTurn turnId => turnId

structure ThreadViewPatch where
  threadId : String
  baseRevision : Nat
  revision : Nat
  upsert : List TranscriptUnit.Unit
  remove : List String
  turnChanges : List ThreadViewTurnChange
  header : Option ThreadViewHeader

structure ResyncRequired where
  threadId : String
  expectedRevision : Nat
  receivedBaseRevision : Nat
  currentRevision : Nat

inductive ItemCollection
  | snapshotTurns
  | snapshotUnits
  | pending
  | upsert
  | remove
  | turnChanges

inductive InvalidReason
  | conflictingItemChange
  | missingItem
  | missingTurn
  | unitTurnMismatch
  | unitRevisionRegressed
  | turnThreadMismatch
  | projectionRevisionRegressed
  | boundsExceeded
  | invalidHeader

inductive ThreadViewApplyError
  | resyncRequired (error : ResyncRequired)
  | foreignThread (expectedThreadId receivedThreadId : String)
  | nonMonotonicRevision (threadId : String) (baseRevision revision : Nat)
  | duplicateItem (threadId : String) (collection : ItemCollection) (key : String)
  | invalidPatch (threadId : String) (reason : InvalidReason) (key : Option String)

def duplicateKey (values : List String) : Option String :=
  go [] values
where
  go (seen : List String) : List String → Option String
    | [] => none
    | value :: values => if value ∈ seen then some value else go (value :: seen) values

theorem duplicateKey_go_eq_none (seen values : List String) :
    duplicateKey.go seen values = none ↔ values.Nodup ∧ ∀ value ∈ values, value ∉ seen := by
  induction values generalizing seen with
  | nil => simp [duplicateKey.go]
  | cons value values ih =>
    by_cases hv : value ∈ seen
    · simp [duplicateKey.go, hv]
    · simp only [duplicateKey.go, if_neg hv, ih, List.nodup_cons, List.mem_cons, forall_eq_or_imp,
        not_or]
      constructor
      · rintro ⟨hn, hs⟩
        exact ⟨⟨fun h => (hs value h).1 rfl, hn⟩, hv, fun w hw => (hs w hw).2⟩
      · rintro ⟨⟨hnv, hn⟩, -, hs⟩
        exact ⟨hn, fun w hw => ⟨fun he => hnv (he ▸ hw), hs w hw⟩⟩

theorem duplicateKey_eq_none {values : List String} : duplicateKey values = none ↔ values.Nodup := by
  simp [duplicateKey, duplicateKey_go_eq_none]

section

variable (entry : ThreadViewTurnState)

def turnState : ThreadViewTurnState :=
  { entry with
    needsResolution := some (entry.needsResolution.getD false)
    pendingSteering := some (entry.pendingSteering.getD [])
    settledSteering := some (entry.settledSteering.getD []) }

@[simp] theorem turnState_turn : (turnState entry).turn = entry.turn := rfl

@[simp] theorem turnState_projectionRevision :
    (turnState entry).projectionRevision = entry.projectionRevision := rfl

@[simp] theorem turnState_turnState :
    turnState (turnState entry) = turnState entry := rfl

end

def compareTurns (collation : Collation) : ThreadViewTurnState → ThreadViewTurnState → Ordering :=
  compareLex (fun left right => compare left.turn.createdAt right.turn.createdAt)
    (fun left right => collation.compare left.turn.id right.turn.id)

instance (collation : Collation) : Std.TransCmp (compareTurns collation) :=
  inferInstanceAs (Std.TransCmp (compareLex _ _))

def promptKey (id : String) : String := TranscriptUnit.identityKey "turn" [id, "user"]

theorem promptKey_ne (id : String) : promptKey id ≠ "" := by
  simp [promptKey, TranscriptUnit.identityKey]

/-- Prompt units open a turn: they carry the prompt and come before every
unit the execution produces. -/
def promptUnit (id prompt : String) : TranscriptUnit.Unit :=
  { key := promptKey id
    turnId := id
    parentId := none
    modelResponseId := none
    order := ⟨[⟨-1, 0, promptKey id, by decide, by decide, by decide, promptKey_ne id⟩], by simp⟩
    revision := 0
    executionOutcome := none
    content := .entry .user prompt }

end Rika.ThreadView
