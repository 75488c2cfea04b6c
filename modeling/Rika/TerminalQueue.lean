import Rika.ComposerModel

namespace Rika.TerminalQueue

open Composer (ComposerAttachment ComposerDraft SubmittedDraft)
open WideText (Units)

structure QueueItem where
  id : String
  prompt : String
  attachments : Option (List String)
  provisional : Bool
deriving DecidableEq

inductive QueueChange
  | added (item : QueueItem) (position : Option Nat)
  | updated (item : QueueItem)
  | removed (turnId : String)

inductive Role
  | user
  | assistant
  | notice
deriving DecidableEq

structure Entry where
  role : Role
  text : String
  turnId : Option String

structure EntryItem where
  index : Nat
  id : Option String
  turnId : Option String
  submissionId : Option String
  provisional : Bool

inductive TranscriptItem
  | entry (item : EntryItem)
  | block (index : Nat) (id : Option String)

structure Model (Activity : Type) where
  entries : List Entry
  items : List TranscriptItem
  input : Units
  cursor : Nat
  pastedText : List ComposerAttachment
  submittedDrafts : List SubmittedDraft
  busy : Bool
  activity : Option Activity
  queueSelection : Option String
  queue : List QueueItem
  queueThreadId : Option String
  queueRevision : Option Nat
  currentThreadId : Option String
  editingTurnId : Option String
  editReturn : Option ComposerDraft

variable {Activity : Type} (model : Model Activity)

def Model.initial : Model Activity :=
  ⟨[], [], [], 0, [], [], false, none, none, [], none, none, none, none, none⟩

def holds (queue : List QueueItem) (id : String) : Bool := queue.any fun item => item.id = id

def validQueueSelection (current : Option String) (queue : List QueueItem) : Option String := current.filter (holds queue)

def exitEditWhenRemoved (queue : List QueueItem) : Model Activity :=
  match model.editingTurnId with
  | none => model
  | some editingTurnId =>
    if holds queue editingTurnId then model
    else
      let restore := model.editReturn.getD ⟨[], []⟩
      { model with
        editingTurnId := none
        editReturn := none
        input := restore.input
        cursor := restore.input.length
        pastedText := restore.attachments }

def resetQueue (threadId : String) (revision : Nat) (queue : List QueueItem) : Model Activity :=
  { exitEditWhenRemoved model queue with
    queue
    queueThreadId := some threadId
    queueRevision := some revision
    queueSelection := validQueueSelection model.queueSelection queue }

structure AppliedChange where
  queue : List QueueItem
  selection : Option String
  resync : Bool

def splice (queue : List QueueItem) (position : Nat) (item : QueueItem) : List QueueItem :=
  queue.take position ++ item :: queue.drop position

def applyAdded (item : QueueItem) (position : Option Nat) : AppliedChange :=
  match model.queue.findIdx? fun other => other.id = item.id with
  | some existing =>
    if model.queue[existing]?.all fun other => !other.provisional then ⟨model.queue, model.queueSelection, true⟩
    else ⟨model.queue.set existing item, model.queueSelection, false⟩
  | none =>
    ⟨splice model.queue (min (position.getD model.queue.length) model.queue.length) item, model.queueSelection, false⟩

def applyUpdated (item : QueueItem) : AppliedChange :=
  match model.queue.findIdx? fun other => other.id = item.id with
  | none => ⟨model.queue, model.queueSelection, true⟩
  | some index => ⟨model.queue.set index item, model.queueSelection, false⟩

def applyRemoved (turnId : String) : AppliedChange :=
  match model.queue.findIdx? fun other => other.id = turnId with
  | none => ⟨model.queue, model.queueSelection, true⟩
  | some index =>
    let queue := model.queue.eraseIdx index
    let selection :=
      if model.queueSelection = some turnId then queue[min index (queue.length - 1)]?.map (·.id) else model.queueSelection
    ⟨queue, selection, false⟩

def applyChange : QueueChange → AppliedChange
  | .added item position => applyAdded model item position
  | .updated item => applyUpdated model item
  | .removed turnId => applyRemoved model turnId

structure QueueDeltaResult (Activity : Type) where
  model : Model Activity
  resync : Bool

def applyQueueDelta (threadId : String) (revision : Nat) (change : QueueChange) (queuedCount : Option Nat) :
    QueueDeltaResult Activity :=
  if model.currentThreadId.any fun current => current ≠ threadId then ⟨model, false⟩
  else
    match model.queueThreadId, model.queueRevision with
    | some queueThreadId, some queueRevision =>
      if queueThreadId ≠ threadId then ⟨model, true⟩
      else if revision ≤ queueRevision then ⟨model, false⟩
      else if revision ≠ queueRevision + 1 then ⟨model, true⟩
      else
        let applied := applyChange model change
        if applied.resync then ⟨model, true⟩
        else
          ⟨{ exitEditWhenRemoved model applied.queue with
              queue := applied.queue
              queueRevision := some revision
              queueSelection := validQueueSelection applied.selection applied.queue },
            queuedCount.any fun count => count ≠ applied.queue.length⟩
    | _, _ => ⟨model, true⟩

def submitQueued (submissionId prompt : String) : Model Activity :=
  { model with queue := model.queue ++ [⟨submissionId, prompt, none, true⟩] }

inductive AdmissionStatus
  | active
  | queued
deriving DecidableEq

section

variable (submissionId : Option String) (turnId : String) (status : Option AdmissionStatus)

def admittedQueueItem (item : QueueItem) : List QueueItem :=
  if (some item.id ≠ submissionId && item.id ≠ turnId) || !item.provisional then [item]
  else if status = some .queued then [{ item with id := turnId }]
  else []

def admittedQueue (prompt : Option String) : List QueueItem :=
  let queue := model.queue.flatMap (admittedQueueItem submissionId turnId status)
  match prompt with
  | none => queue
  | some prompt =>
    if status ≠ some .queued || holds queue turnId then queue else queue ++ [⟨turnId, prompt, none, true⟩]

def promptAdmitted (prompt : Option String) : Model Activity :=
  let queue := admittedQueue model submissionId turnId status prompt
  { model with queue, queueSelection := validQueueSelection model.queueSelection queue }

end

def dropProvisionalQueueItem (submissionId : Option String) : Model Activity :=
  match submissionId with
  | none => model
  | some submissionId =>
    let queue := model.queue.filter fun item => item.id ≠ submissionId || !item.provisional
    { model with queue, queueSelection := validQueueSelection model.queueSelection queue }

def itemMatches (item reference : EntryItem) : Bool :=
  (reference.submissionId.isSome && item.submissionId = reference.submissionId) ||
    (reference.turnId.isSome && item.turnId = reference.turnId) ||
      (reference.submissionId.isNone && item.provisional && item.turnId.isNone)

def sameText (entry other : Entry) : Bool := other.role = entry.role && other.text = entry.text

structure OverlaidTranscript where
  entries : List Entry
  items : List TranscriptItem

def isMatched (items : List TranscriptItem) (reference : EntryItem) : Bool :=
  items.any fun candidate =>
    match candidate with
    | .entry candidate => itemMatches candidate reference
    | .block _ _ => false

def overlayItem (previous : Model Activity) (transcript : OverlaidTranscript) (item : TranscriptItem) : OverlaidTranscript :=
  match item with
  | .block _ _ => transcript
  | .entry item =>
    if !item.provisional || isMatched transcript.items item then transcript
    else
      match previous.entries[item.index]? with
      | none => transcript
      | some entry =>
        if previous.entries.countP (sameText entry) ≤ transcript.entries.countP (sameText entry) then transcript
        else
          ⟨transcript.entries ++ [entry], transcript.items ++ [.entry { item with index := transcript.entries.length }]⟩

def overlayProvisionalTranscript (previous : Model Activity) : OverlaidTranscript :=
  previous.items.foldl (overlayItem previous) ⟨model.entries, model.items⟩

def overlayPendingSubmissions (sending : Activity) (previous : Model Activity) : Model Activity :=
  let transcript := overlayProvisionalTranscript model previous
  let missingQueue := previous.queue.filter fun item => item.provisional && !holds model.queue item.id
  let queue := model.queue ++ missingQueue
  let restoreSending := previous.busy && !model.busy && previous.submittedDrafts.any fun draft => draft.turnId.isNone
  let queueSelection :=
    if model.queueSelection.any (holds queue) then model.queueSelection else queue.getLast?.map (·.id)
  let overlaid := { model with entries := transcript.entries, items := transcript.items, queue, queueSelection }
  if restoreSending then { overlaid with busy := true, activity := some (previous.activity.getD sending) } else overlaid

end Rika.TerminalQueue
