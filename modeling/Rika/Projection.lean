import Rika.InsertionMap

namespace Rika

abbrev Utf16 := List UInt16

def utf16 (text : String) : Utf16 :=
  text.toList.flatMap fun char =>
    if char.toNat < 0x10000 then [UInt16.ofNat char.toNat]
    else
      [UInt16.ofNat (0xD800 + (char.toNat - 0x10000) / 0x400), UInt16.ofNat (0xDC00 + (char.toNat - 0x10000) % 0x400)]

namespace Projection

inductive ProjectionActivity
  | idle
  | working
  | waiting
  | cancelled
  | failed
deriving DecidableEq

inductive ItemKind
  | user
  | assistant
  | reasoning
  | tool
  | child
  | notice
  | error
  | image
deriving DecidableEq

structure ProjectionItem where
  id : String
  kind : ItemKind
  title : String
  text : Utf16
  status : Option ProjectionActivity := none
  childSessionId : Option String := none
deriving DecidableEq

structure RetainedSession where
  id : String
  rootSessionId : String
  parentSessionId : Option String
  parentRunId : Option String
  initialRunId : String
  depth : Nat
deriving DecidableEq

structure FamilyProjection where
  rootSessionId : String
  at_ : Int
  sessions : List RetainedSession
  nextBefore : Option Int
deriving DecidableEq

structure CollaboratorProjection where
  sessionId : String
  depth : Nat
  loaded : Bool
deriving DecidableEq

structure PendingImage where
  mediaType : String
  fileName : Option String
deriving DecidableEq

structure ProjectionPendingTurn where
  id : String
  prompt : Utf16
  revision : Nat
  images : List PendingImage
deriving DecidableEq

inductive Target
  | runner
  | orb
deriving DecidableEq

structure ProjectionThread where
  id : String
  title : String
  target : Target
  activity : ProjectionActivity
  items : List ProjectionItem
  pending : List ProjectionPendingTurn
  activeRunId : Option String
  collaborators : Option (List CollaboratorProjection)
deriving DecidableEq

inductive ToolResult
  | text (text : Utf16)
  | json (encoded : Utf16)
deriving DecidableEq

/-- A part of a message. The parameters of a tool call are carried as
`JSON.stringify` writes them. -/
inductive Part
  | text (text : Utf16)
  | reasoning (text : Utf16)
  | file (mediaType : String) (fileName : Option String)
  | toolCall (name : String) (params : Utf16)
  | toolResult (name : String) (result : ToolResult)
  | toolApprovalRequest (toolCallId : String)
  | toolApprovalResponse (approvalId : String)
deriving DecidableEq

inductive Role
  | user
  | assistant
  | tool
deriving DecidableEq

def Role.kind : Role → ItemKind
  | user => .user
  | assistant => .assistant
  | tool => .tool

def Role.title : Role → String
  | user => "user"
  | assistant => "assistant"
  | tool => "tool"

inductive MessageContent
  | text (text : Utf16)
  | parts (parts : List Part)
deriving DecidableEq

structure Message where
  role : Role
  content : MessageContent
deriving DecidableEq

inductive PromptMessage
  | system (content : Utf16)
  | message (message : Message)
deriving DecidableEq

structure Entry where
  id : String
  parentId : Option String
  messages : List Message
deriving DecidableEq

structure Conversation where
  leafId : Option String
  entries : List Entry
  nextLeafId : Option String
deriving DecidableEq

inductive RunStatus
  | succeeded
  | failed
  | cancelled
  | other (status : String)
deriving DecidableEq

def RunStatus.text : RunStatus → String
  | succeeded => "succeeded"
  | failed => "failed"
  | cancelled => "cancelled"
  | other status => status

structure Run where
  runId : String
  rootRunId : String
  parentRunId : Option String
  status : RunStatus
  approval : Option String
deriving DecidableEq

inductive Lifecycle
  | closed
  | stopped
  | other (lifecycle : String)
deriving DecidableEq

structure QueuedInput where
  id : String
  revision : Nat
  prompt : List PromptMessage
deriving DecidableEq

structure Session where
  id : String
  title : Option String
  lifecycle : Option Lifecycle
  activeRunId : Option String
  queue : List QueuedInput
deriving DecidableEq

structure HostSessionSnapshot where
  session : Session
  cursor : Nat
  runs : List Run
  conversation : Conversation
deriving DecidableEq

structure PreviewProjection where
  runId : String
  attemptFence : Int
  modelCallId : String
  modelAttemptId : String
  attempt : Int
  generation : Int
  sequence : Int
  reasoning : Utf16
  text : Utf16
  cursor : Int
deriving DecidableEq

structure PreviewFence where
  attemptFence : Int
  generation : Int
  modelCallId : String
  modelAttemptId : String
deriving DecidableEq

structure ProjectionState where
  sessionId : String
  snapshot : HostSessionSnapshot
  thread : ProjectionThread
  previews : InsertionMap String PreviewProjection
  previewFences : InsertionMap String PreviewFence
  connectionEpoch : Int
  committedCursor : Nat
  needsSnapshot : Bool
  family : Option FamilyProjection
deriving DecidableEq

inductive ProjectionResult
  | applied (state : ProjectionState)
  | ignored (state : ProjectionState)
  | rejected (state : ProjectionState) (reason : String)

def ProjectionResult.state : ProjectionResult → ProjectionState
  | applied state => state
  | ignored state => state
  | rejected state _ => state

inductive Channel
  | reasoning
  | text
deriving DecidableEq

structure PreviewChange where
  channel : Channel
  offset : Nat
  delta : Utf16
deriving DecidableEq

structure ModelPreview where
  modelCallId : String
  modelAttemptId : String
  attempt : Int
  generation : Int
  sequence : Int
  changes : List PreviewChange

inductive PreviewBody
  | modelPreview (preview : ModelPreview)
  | modelPreviewCleared (generation : Int)

/-- A preview of the run `runId`; `eventRunId` is the run the body itself names. -/
structure PreviewDelivery where
  sessionId : String
  runId : String
  authorityAttemptFence : Int
  eventRunId : String
  body : PreviewBody

structure ConversationUpdate where
  previousLeafId : Option String
  leafId : Option String
  reset : Bool
  afterEntryId : Option String
  entries : List Entry
  nextLeafId : Option String

inductive CommittedBody
  | conversation (update : ConversationUpdate)
  | other (tag payload : String)

inductive ConnectionEvent
  | connectionSnapshot (epoch : Int) (snapshot : HostSessionSnapshot)
  | previewDelivery (delivery : PreviewDelivery)
  | committed (sessionId : String) (cursor : Nat) (body : CommittedBody)

inductive ConnectionStatus
  | connecting
  | connected
  | retrying
  | disconnected
deriving DecidableEq

def textOfPart : Part → Utf16
  | .text text => text
  | .reasoning text => text
  | .file mediaType fileName => utf16 s!"[{fileName.getD mediaType}]"
  | .toolCall name params => utf16 s!"{name} " ++ params
  | .toolResult _ (.text text) => text
  | .toolResult _ (.json encoded) => encoded
  | .toolApprovalRequest toolCallId => utf16 s!"Approval requested: {toolCallId}"
  | .toolApprovalResponse approvalId => utf16 s!"Approval response: {approvalId}"

def promptText (prompt : List PromptMessage) : Utf16 :=
  (utf16 "\n").intercalate <| prompt.flatMap fun
    | .system _ => []
    | .message { content := .text text, .. } => [text]
    | .message { content := .parts parts, .. } => parts.map textOfPart

section

variable (snapshot : HostSessionSnapshot)

def itemStatus (runId : String) : ProjectionActivity :=
  match snapshot.runs.find? fun candidate => candidate.runId = runId with
  | none => .working
  | some run =>
    match run.status with
    | .succeeded => .idle
    | .failed => .failed
    | .cancelled => .cancelled
    | .other _ => if run.approval.isSome then .waiting else .working

def partItem (id : String) (role : Role) (status : ProjectionActivity) (part : Part) : ProjectionItem :=
  match part with
  | .reasoning text => { id, kind := .reasoning, title := "Reasoning", text, status := some status }
  | .text text => { id, kind := role.kind, title := role.title, text, status := some status }
  | .file mediaType fileName =>
    { id, kind := .image, title := fileName.getD mediaType, text := utf16 mediaType, status := some status }
  | .toolCall name _ => { id, kind := .tool, title := name, text := textOfPart part, status := some status }
  | .toolResult name _ => { id, kind := .tool, title := name, text := textOfPart part, status := some status }
  | .toolApprovalRequest _ =>
    { id, kind := .tool, title := "Authorization required", text := textOfPart part, status := some .waiting }
  | .toolApprovalResponse _ =>
    { id, kind := .tool, title := "Authorization", text := textOfPart part, status := some status }

def messageItem (entryId : String) (messageIndex : Nat) (message : Message) (status : ProjectionActivity) :
    List ProjectionItem :=
  match message.content with
  | .text text =>
    [{ id := s!"{entryId}:message:{messageIndex}"
       kind := message.role.kind
       title := message.role.title
       text
       status := some status }]
  | .parts parts =>
    parts.mapIdx fun partIndex part =>
      partItem s!"{entryId}:message:{messageIndex}:part:{partIndex}" message.role status part

def entryItems (entry : Entry) : List ProjectionItem :=
  (entry.messages.mapIdx fun messageIndex message =>
    messageItem entry.id messageIndex message (itemStatus snapshot entry.id)).flatten

def sessionOfInitialRun (family : Option FamilyProjection) (runId : String) : Option RetainedSession :=
  ((family.map (·.sessions)).getD []).reverse.find? fun session => session.initialRunId = runId

def runItem (session : Option RetainedSession) (run : Run) : ProjectionItem where
  id := session.elim s!"child:{run.runId}" fun session => s!"child-session:{session.id}"
  kind := .child
  title := session.elim run.runId (·.id)
  text := utf16 run.status.text
  status := some
    (match run.status with
    | .succeeded => .idle
    | .failed => .failed
    | _ => .working)
  childSessionId := session.map (·.id)

def childRunItems (family : Option FamilyProjection) (runs : List Run) : List ProjectionItem × List String :=
  runs.foldl
    (fun (items, emittedSessions) run =>
      if run.parentRunId.isNone then (items, emittedSessions)
      else
        match (sessionOfInitialRun family run.runId).or (sessionOfInitialRun family run.rootRunId) with
        | none => (items ++ [runItem none run], emittedSessions)
        | some session =>
          if session.id ∈ emittedSessions then (items, emittedSessions)
          else (items ++ [runItem (some session) run], emittedSessions ++ [session.id]))
    ([], [])

def sessionItem (session : RetainedSession) : ProjectionItem where
  id := s!"child-session:{session.id}"
  kind := .child
  title := session.id
  text := []
  childSessionId := some session.id

def childSessionItems (family : FamilyProjection) (emittedSessions : List String) : List ProjectionItem :=
  (family.sessions.foldl
    (fun (items, emittedSessions) session =>
      if session.id = family.rootSessionId ∨ session.id ∈ emittedSessions then (items, emittedSessions)
      else (items ++ [sessionItem session], emittedSessions ++ [session.id]))
    ([], emittedSessions)).1

def previewItems (preview : PreviewProjection) : List ProjectionItem :=
  (if preview.reasoning = [] then []
    else
      [{ id := s!"preview:{preview.runId}:reasoning"
         kind := .reasoning
         title := "Reasoning preview"
         text := preview.reasoning
         status := some .working }]) ++
    if preview.text = [] then []
    else
      [{ id := s!"preview:{preview.runId}:text"
         kind := .assistant
         title := "Rika preview"
         text := preview.text
         status := some .working }]

def itemsFromSnapshot (previews : InsertionMap String PreviewProjection)
    (family : Option FamilyProjection) : List ProjectionItem :=
  let (runItems, emittedSessions) := childRunItems family snapshot.runs
  snapshot.conversation.entries.flatMap (entryItems snapshot) ++ runItems ++
    family.elim [] (childSessionItems · emittedSessions) ++ previews.values.flatMap previewItems

def promptImages : PromptMessage → List PendingImage
  | .message { role := .user, content := .parts parts } =>
    parts.filterMap fun
      | .file mediaType fileName => some ⟨mediaType, fileName⟩
      | _ => none
  | _ => []

def pendingFromSnapshot : List ProjectionPendingTurn :=
  snapshot.session.queue.map fun item =>
    ⟨item.id, promptText item.prompt, item.revision, item.prompt.flatMap promptImages⟩

def activityFromSnapshot : ProjectionActivity :=
  if snapshot.session.lifecycle = some .closed ∨ snapshot.session.lifecycle = some .stopped then .cancelled
  else
    match snapshot.session.activeRunId with
    | none => .idle
    | some active => itemStatus snapshot active

end

structure SnapshotInput where
  sessionId : String
  threadId : Option String := none
  snapshot : HostSessionSnapshot
  target : Option Target := none
  previousPreviews : Option (InsertionMap String PreviewProjection) := none
  previousPreviewFences : Option (InsertionMap String PreviewFence) := none
  family : Option FamilyProjection := none

def PreviewProjection.fence (preview : PreviewProjection) : PreviewFence :=
  ⟨preview.attemptFence, preview.generation, preview.modelCallId, preview.modelAttemptId⟩

def collaboratorsOf (snapshot : HostSessionSnapshot) (family : FamilyProjection) : List CollaboratorProjection :=
  (family.sessions.filter fun session => session.id ≠ family.rootSessionId).map fun session =>
    ⟨session.id, session.depth,
      snapshot.runs.any fun run => run.runId = session.initialRunId || run.rootRunId = session.initialRunId⟩

def projectSnapshot (input : SnapshotInput) : ProjectionState :=
  let snapshot := input.snapshot
  let previousPreviews := input.previousPreviews.getD .empty
  let previewFences := input.previousPreviewFences.getD
    (previousPreviews.entries.foldl (fun fences entry => fences.set entry.1 entry.2.fence) .empty)
  { sessionId := input.sessionId
    snapshot
    thread :=
      { id := input.threadId.getD input.sessionId
        title := snapshot.session.title.getD s!"Thread {input.sessionId}"
        target := input.target.getD .runner
        activity := activityFromSnapshot snapshot
        items := itemsFromSnapshot snapshot previousPreviews input.family
        pending := pendingFromSnapshot snapshot
        activeRunId := snapshot.session.activeRunId
        collaborators := input.family.map (collaboratorsOf snapshot) }
    previews := previousPreviews
    previewFences
    connectionEpoch := 0
    committedCursor := snapshot.cursor
    needsSnapshot := false
    family := input.family }

/-- The entries of the window up to `afterEntryId`; none when it is not there. -/
def retainedEntries (entries : List Entry) (afterEntryId : Option String) : List Entry :=
  match afterEntryId with
  | none => []
  | some afterEntryId =>
    entries.take (((entries.findIdx? fun entry => entry.id = afterEntryId).map (· + 1)).getD 0)

def applyConversation (snapshot : HostSessionSnapshot) (update : ConversationUpdate) : Option HostSessionSnapshot :=
  if update.previousLeafId ≠ snapshot.conversation.leafId then none
  else
    let entries :=
      if update.reset then update.entries
      else retainedEntries snapshot.conversation.entries update.afterEntryId ++ update.entries
    some
      { snapshot with
        conversation :=
          { leafId := update.leafId
            entries
            nextLeafId := update.nextLeafId.or snapshot.conversation.nextLeafId } }

def withSnapshot (state : ProjectionState) (snapshot : HostSessionSnapshot)
    (previews : InsertionMap String PreviewProjection) (previewFences : InsertionMap String PreviewFence) :
    ProjectionState :=
  { projectSnapshot
      { sessionId := state.sessionId
        threadId := some state.thread.id
        snapshot
        target := some state.thread.target
        previousPreviews := some previews
        previousPreviewFences := some previewFences
        family := state.family } with
    previewFences
    connectionEpoch := state.connectionEpoch }

def previewEvent (delivery : PreviewDelivery) (preview : ModelPreview) : PreviewProjection where
  runId := delivery.runId
  attemptFence := delivery.authorityAttemptFence
  modelCallId := preview.modelCallId
  modelAttemptId := preview.modelAttemptId
  attempt := preview.attempt
  generation := preview.generation
  sequence := preview.sequence
  reasoning := []
  text := []
  cursor := -1

def behind (attemptFence generation heldFence heldGeneration : Int) : Bool :=
  attemptFence < heldFence || (attemptFence = heldFence && generation < heldGeneration)

def fencedOff (incoming : PreviewProjection) (fence : PreviewFence) : Bool :=
  behind incoming.attemptFence incoming.generation fence.attemptFence fence.generation ||
    (incoming.attemptFence = fence.attemptFence && incoming.generation = fence.generation &&
      (incoming.modelCallId ≠ fence.modelCallId || incoming.modelAttemptId ≠ fence.modelAttemptId))

def outdatedBy (incoming current : PreviewProjection) : Bool :=
  behind incoming.attemptFence incoming.generation current.attemptFence current.generation ||
    (incoming.attemptFence = current.attemptFence && incoming.generation = current.generation &&
      incoming.sequence ≤ current.sequence) ||
    (incoming.modelCallId ≠ current.modelCallId || incoming.modelAttemptId ≠ current.modelAttemptId)

/-- One change of a preview: `value.slice(0, offset) + delta`. -/
def splice (value : Utf16) (offset : Nat) (delta : Utf16) : Option Utf16 :=
  if offset > value.length then none else some (value.take offset ++ delta)

def applyChange (source : Utf16 × Utf16) (change : PreviewChange) : Option (Utf16 × Utf16) :=
  match change.channel with
  | .reasoning => (splice source.1 change.offset change.delta).map fun reasoning => (reasoning, source.2)
  | .text => (splice source.2 change.offset change.delta).map fun text => (source.1, text)

section

variable (state : ProjectionState) (delivery : PreviewDelivery)

def applyModelPreview (preview : ModelPreview) : ProjectionResult :=
  let incoming := previewEvent delivery preview
  let current := state.previews.get delivery.runId
  if (state.previewFences.get delivery.runId).any (fencedOff incoming) then .ignored state
  else if current.any (outdatedBy incoming) then .ignored state
  else
    match preview.changes.foldlM applyChange (current.elim ([], []) fun held => (held.reasoning, held.text)) with
    | none => .rejected state "Preview offset exceeded current source"
    | some (reasoning, text) =>
      let next := { incoming with reasoning, text, cursor := state.committedCursor }
      let previews := state.previews.set delivery.runId next
      let previewFences := state.previewFences.set delivery.runId next.fence
      .applied
        { state with
          previews
          previewFences
          thread :=
            (projectSnapshot
              { sessionId := state.sessionId
                threadId := some state.thread.id
                snapshot := state.snapshot
                target := some state.thread.target
                previousPreviews := some previews
                previousPreviewFences := some previewFences
                family := state.family }).thread }

def clearRefused (generation : Int) : Bool :=
  ((state.previewFences.get delivery.runId).any fun fence =>
      behind delivery.authorityAttemptFence generation fence.attemptFence fence.generation) ||
    (state.previews.get delivery.runId).any fun current =>
      behind delivery.authorityAttemptFence generation current.attemptFence current.generation

def applyModelPreviewCleared (generation : Int) : ProjectionResult :=
  if clearRefused state delivery generation then .ignored state
  else .applied { state with previews := state.previews.delete delivery.runId }

def applyPreview : ProjectionResult :=
  if delivery.sessionId ≠ state.sessionId ∨ delivery.runId ≠ delivery.eventRunId then
    .rejected state "Preview belongs to another Session or Run"
  else
    match delivery.body with
    | .modelPreview preview => applyModelPreview state delivery preview
    | .modelPreviewCleared generation => applyModelPreviewCleared state delivery generation

end

section

variable (state : ProjectionState)

def applyConnectionStatus (status : ConnectionStatus) : ProjectionState :=
  match status with
  | .connected =>
    { state with thread := { state.thread with activity := activityFromSnapshot state.snapshot } }
  | .disconnected | .retrying | .connecting =>
    { state with thread := { state.thread with activity := .waiting } }

def endsPreviews : CommittedBody → Bool
  | .conversation update => update.entries.any fun entry => entry.messages.any fun message => message.role = .assistant
  | .other _ _ => false

def applyBody (snapshot : HostSessionSnapshot) : CommittedBody → Option HostSessionSnapshot
  | .conversation update => applyConversation snapshot update
  | .other _ _ => some snapshot

def applyCommitted (cursor : Nat) (body : CommittedBody) : ProjectionResult :=
  if cursor ≤ state.committedCursor then .ignored state
  else if cursor ≠ state.committedCursor + 1 then
    .rejected { state with needsSnapshot := true } "Committed cursor is not contiguous"
  else
    match applyBody state.snapshot body with
    | none => .rejected { state with needsSnapshot := true } "Conversation leaf did not match"
    | some updated =>
      let previews := if endsPreviews body then .empty else state.previews
      .applied (withSnapshot state { updated with cursor } previews state.previewFences)

def applyConnectionSnapshot (epoch : Int) (snapshot : HostSessionSnapshot) : ProjectionResult :=
  if snapshot.session.id ≠ state.sessionId then
    .rejected state "Replacement snapshot belongs to another Session"
  else if epoch < state.connectionEpoch then .ignored state
  else
    .applied
      { projectSnapshot
          { sessionId := state.sessionId
            threadId := some state.thread.id
            snapshot
            target := some state.thread.target
            family := state.family } with
        previewFences := state.previewFences
        connectionEpoch := epoch }

def applyConnectionEvent (event : ConnectionEvent) : ProjectionResult :=
  match event with
  | .connectionSnapshot epoch snapshot => applyConnectionSnapshot state epoch snapshot
  | .previewDelivery delivery => applyPreview state delivery
  | .committed sessionId cursor body =>
    if sessionId ≠ state.sessionId then .rejected state "Event belongs to another Session"
    else applyCommitted state cursor body

end

end Projection

end Rika
