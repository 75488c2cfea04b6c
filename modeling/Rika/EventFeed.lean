import Rika.InsertionMap
import Rika.StableSort

namespace Rika

namespace EventFeed

inductive CriticalTag
  | assistantCompleted
  | contextDiagnostics
  | executionControlFailed
  | executionFailed
  | submissionRejected
  | queueFull
  | shellCompleted
  | executionControlled
  | threadTitled
  | threadPreviewLoaded
  | threadPreviewFailed
deriving DecidableEq

inductive TranscriptTag
  | executionProjectionChanged
  | executionProjectionResyncRequired
  | turnStarted
  | selectionLoaded
deriving DecidableEq

inductive QueueTag
  | queueUpdated
  | threadViewResyncRequired
deriving DecidableEq

inductive PassingTag
  | turnRetryScheduled
  | submissionAdmitted
deriving DecidableEq

inductive TerminalStatus
  | completed
  | failed
  | cancelled
deriving DecidableEq

structure TurnSettled where
  selectionEpoch : Int
  activitySequence : Int
  threadId : String
  turnId : String
  status : TerminalStatus
  agentResponseArrived : Option Bool
deriving DecidableEq

structure ThreadRefolding where
  selectionEpoch : Int
  threadId : String
  refolding : Bool
deriving DecidableEq

structure ThreadActivated where
  threadId : String
  title : String
deriving DecidableEq

/-- A model preview; `content` is what its frame or usage carries. -/
inductive ModelPreview
  | frame (runId : String) (parentId : Option String) (attemptFence : Int) (content : String)
  | usage (runId : String) (parentId : Option String) (content : String)
  | cleared (runId : String) (parentId : Option String) (attemptFence generation : Int)
deriving DecidableEq

structure ModelPreviewChanged where
  threadId : String
  turnId : String
  preview : ModelPreview
deriving DecidableEq

/-- The events of an interactive session. `payload` is the rest of an event, which the
feed does not look into. -/
inductive InteractiveEvent
  | threadsListed (threads : List String)
  | threadActivated (event : ThreadActivated)
  | threadRefolding (event : ThreadRefolding)
  | turnSettled (event : TurnSettled)
  | executionModelPreviewChanged (event : ModelPreviewChanged)
  | critical (tag : CriticalTag) (selectionEpoch : Option Int) (threadId : Option String) (payload : String)
  | transcript (tag : TranscriptTag) (selectionEpoch : Option Int) (threadId payload : String)
  | queue (tag : QueueTag) (selectionEpoch : Int) (threadId payload : String)
  | passing (tag : PassingTag) (selectionEpoch : Int) (threadId payload : String)
deriving DecidableEq

def capacity : Nat := 64

structure State where
  transcriptThreadIds : List String
  queueThreadIds : List String
  critical : List InteractiveEvent
  settlements : InsertionMap String TurnSettled
  refolds : InsertionMap String ThreadRefolding
  previewInvalidations : InsertionMap String ModelPreviewChanged
  criticalOverflowed : Bool
  activated : Option ThreadActivated
  summaries : Option (List String)
deriving DecidableEq

namespace State

def make : State where
  transcriptThreadIds := []
  queueThreadIds := []
  critical := []
  settlements := .empty
  refolds := .empty
  previewInvalidations := .empty
  criticalOverflowed := false
  activated := none
  summaries := none

end State

def isCritical : InteractiveEvent → Bool
  | .critical .. | .turnSettled _ => true
  | _ => false

def rememberThread (threadIds : List String) (id : String) : Option (List String) :=
  if id ∈ threadIds then some threadIds
  else if threadIds.length ≥ capacity then none
  else some (threadIds ++ [id])

def ModelPreviewChanged.invalidation (event : ModelPreviewChanged) : Option ModelPreviewChanged :=
  match event.preview with
  | .usage .. => none
  | .frame runId parentId attemptFence _ => some { event with preview := .cleared runId parentId attemptFence 0 }
  | .cleared runId parentId attemptFence generation =>
    some { event with preview := .cleared runId parentId attemptFence generation }

def ModelPreview.runId : ModelPreview → String
  | .frame runId _ _ _ | .usage runId _ _ | .cleared runId _ _ _ => runId

def ModelPreviewChanged.key (event : ModelPreviewChanged) : String :=
  s!"{event.threadId}:{event.turnId}:{event.preview.runId}"

def TurnSettled.key (event : TurnSettled) : String := s!"{event.threadId}:{event.turnId}"

section

variable (state : State)

def rememberPreview (event : ModelPreviewChanged) : State :=
  match event.invalidation with
  | none => state
  | some invalidation =>
    if state.previewInvalidations.has event.key = false ∧ state.previewInvalidations.size ≥ capacity then
      { state with criticalOverflowed := true }
    else { state with previewInvalidations := state.previewInvalidations.set event.key invalidation }

def rememberCritical (event : InteractiveEvent) : State :=
  if state.critical.length ≥ capacity then { state with criticalOverflowed := true }
  else { state with critical := state.critical ++ [event] }

def rememberSettled (event : TurnSettled) : State :=
  if (state.settlements.get event.key).all fun previous => previous.activitySequence < event.activitySequence then
    { state with settlements := state.settlements.set event.key event }
  else state

def remember (event : InteractiveEvent) : State :=
  match event with
  | .turnSettled settled => rememberSettled state settled
  | _ =>
    if state.criticalOverflowed then state
    else
      match event with
      | .turnSettled _ => state
      | .critical .. => rememberCritical state event
      | .transcript _ _ id _ =>
        match rememberThread state.transcriptThreadIds id with
        | none => { state with criticalOverflowed := true }
        | some transcriptThreadIds => { state with transcriptThreadIds }
      | .queue _ _ id _ =>
        match rememberThread state.queueThreadIds id with
        | none => { state with criticalOverflowed := true }
        | some queueThreadIds => { state with queueThreadIds }
      | .executionModelPreviewChanged preview => rememberPreview state preview
      | .threadActivated activated => { state with activated := some activated }
      | .threadsListed summaries => { state with summaries := some summaries }
      | .threadRefolding refolding => { state with refolds := state.refolds.set refolding.threadId refolding }
      | .passing .. => state

def compareSequences (left right : TurnSettled) : Ordering := compare left.activitySequence right.activitySequence

def events (selectionEpoch : Int) (reason : String) : List InteractiveEvent :=
  (state.activated.map .threadActivated).toList ++ (state.summaries.map .threadsListed).toList ++ state.critical ++
    (StableSort.toSorted compareSequences state.settlements.values).map .turnSettled ++
    state.refolds.values.map .threadRefolding ++
    state.previewInvalidations.values.map .executionModelPreviewChanged ++
    state.transcriptThreadIds.map (fun id => .transcript .executionProjectionResyncRequired none id "") ++
    state.queueThreadIds.map fun id => .queue .threadViewResyncRequired selectionEpoch id reason

end

def CriticalTag.hasEpoch : CriticalTag → Bool
  | .queueFull | .contextDiagnostics | .executionFailed | .submissionRejected | .executionControlFailed |
    .executionControlled => true
  | _ => false

def TranscriptTag.hasEpoch : TranscriptTag → Bool
  | .selectionLoaded | .turnStarted => true
  | _ => false

def withEpoch (event : InteractiveEvent) (epoch : Int) : InteractiveEvent :=
  match event with
  | .turnSettled settled => .turnSettled { settled with selectionEpoch := epoch }
  | .critical tag selectionEpoch threadId payload =>
    .critical tag (if tag.hasEpoch then some epoch else selectionEpoch) threadId payload
  | .transcript tag selectionEpoch threadId payload =>
    .transcript tag (if tag.hasEpoch then some epoch else selectionEpoch) threadId payload
  | .queue tag _ threadId payload => .queue tag epoch threadId payload
  | _ => event

def runtimeEventThreadId : InteractiveEvent → Option String
  | .threadsListed _ => none
  | .threadActivated event => some event.threadId
  | .threadRefolding event => some event.threadId
  | .turnSettled event => some event.threadId
  | .executionModelPreviewChanged event => some event.threadId
  | .critical _ _ threadId _ => threadId
  | .transcript _ _ threadId _ | .queue _ _ threadId _ | .passing _ _ threadId _ => some threadId

structure SessionEnvelope where
  event : InteractiveEvent
  selectionRequest : Option Int
  selectedThreadOnly : Bool
deriving DecidableEq

/-- The load of a selection, and the events it holds back; `held` is every event it was
given. -/
structure SelectionLoad where
  epoch : Int
  threadId : String
  previousEpoch : Int
  previousThreadId : Option String
  events : List InteractiveEvent
  committed : Bool
  overflow : Option State
  held : List InteractiveEvent

/-- Where the consumer of the feed stands: it looks for an overflow, waits for an
envelope, has taken one, or has failed. -/
inductive Consumer
  | looking
  | taking
  | holding (envelope : SessionEnvelope)
  | failed
deriving DecidableEq

end EventFeed

open EventFeed

/-- `newer` was delivered since the queue overflowed, `recalled` taken from the queue since, and `published` passed on.
-/
structure EventFeed where
  queue : List SessionEnvelope
  overflow : Option State
  loading : Option SelectionLoad
  selectionRequest : Int
  currentEpoch : Int
  selectedThread : Option String
  consumer : Consumer
  delivered : List InteractiveEvent
  newer : List InteractiveEvent
  recalled : List InteractiveEvent
  published : List InteractiveEvent

namespace EventFeed

def make (initialThreadId : Option String) : EventFeed where
  queue := []
  overflow := none
  loading := initialThreadId.map fun threadId => ⟨0, threadId, 0, none, [], false, none, []⟩
  selectionRequest := 0
  currentEpoch := 0
  selectedThread := initialThreadId
  consumer := .looking
  delivered := []
  newer := []
  recalled := []
  published := []

variable (feed : EventFeed)

def deliver (event : InteractiveEvent) (selectionRequest : Option Int) (selectedThreadOnly : Bool) : EventFeed :=
  let selected := withEpoch event (selectionRequest.getD feed.currentEpoch)
  let arrived := { feed with delivered := feed.delivered ++ [selected] }
  match feed.overflow with
  | some overflow =>
    { arrived with overflow := some (remember overflow selected), newer := feed.newer ++ [selected] }
  | none =>
    if feed.queue.length < capacity then
      { arrived with queue := feed.queue ++ [⟨selected, selectionRequest, selectedThreadOnly⟩] }
    else { arrived with overflow := some (remember .make selected), newer := [selected] }

def SelectionLoad.takes (loading : SelectionLoad) (event : InteractiveEvent) : Bool :=
  runtimeEventThreadId event = some loading.threadId

def SelectionLoad.hold (loading : SelectionLoad) (event : InteractiveEvent) : SelectionLoad :=
  let selected := withEpoch event loading.epoch
  let held := loading.held ++ [selected]
  match loading.overflow with
  | some overflow => { loading with overflow := some (remember overflow selected), held }
  | none =>
    if loading.events.length < 64 then { loading with events := loading.events ++ [selected], held }
    else
      { loading with
        overflow := some (remember (loading.events.foldl remember .make) selected)
        events := []
        held }

def bufferSelectionEvent (event : InteractiveEvent) : Option EventFeed :=
  match feed.loading with
  | none => none
  | some loading => if loading.takes event then some { feed with loading := some (loading.hold event) } else none

def sessionDispatch (event : InteractiveEvent) : EventFeed :=
  (feed.bufferSelectionEvent event).getD (feed.deliver event none false)

def selectionDispatch (request : Int) (event : InteractiveEvent) : EventFeed :=
  feed.deliver event (some request) false

def SelectionLoad.released (loading : SelectionLoad) (epoch : Int) (reason : String) : List InteractiveEvent :=
  match loading.overflow with
  | none => loading.events
  | some overflow => EventFeed.events overflow epoch reason

def releaseSelectionEvents (epoch : Int) (reason : String) : EventFeed :=
  match feed.loading with
  | none => feed
  | some loading =>
    (loading.released epoch reason).foldl (fun feed event => feed.deliver event (some epoch) true) feed

def finishSelection (epoch : Int) : EventFeed :=
  match feed.loading with
  | none => feed
  | some loading =>
    if loading.epoch ≠ epoch ∨ loading.committed then feed
    else
      -- the load is gone before its events are released, so none is
      let cleared := { feed with loading := none }
      if cleared.selectionRequest = epoch then
        let restored := { cleared with selectionRequest := loading.previousEpoch }
        if loading.previousThreadId = some loading.threadId then
          restored.releaseSelectionEvents loading.previousEpoch "Reload activity exceeded its bounded live window"
        else restored
      else cleared

/-- A load is done: its events are released, here or by the transcript window once it has
shown the page of the thread. -/
def commitSelection (epoch : Int) : EventFeed :=
  match feed.loading with
  | none => feed
  | some loading =>
    if loading.epoch ≠ epoch then feed
    else
      { releaseSelectionEvents { feed with loading := some { loading with committed := true } } epoch
          "Selection activity exceeded its bounded live window" with loading := none }

/-- A new load; it goes on with what the initial load of the same thread holds back. -/
def beginSelection (threadId : String) (previousThreadId : Option String) : EventFeed :=
  let next := feed.selectionRequest + 1
  let joined := feed.loading.filter fun loading => loading.epoch = 0 && loading.threadId = threadId
  { feed with
    loading := some
      { epoch := next
        threadId
        previousEpoch := feed.currentEpoch
        previousThreadId
        events := (joined.map (·.events)).getD []
        committed := false
        overflow := joined.bind (·.overflow)
        held := (joined.map (·.held)).getD [] }
    selectionRequest := next }

def drained (overflow : State) : State :=
  feed.queue.foldl (fun state envelope => remember state envelope.event) overflow

def recovered (overflow : State) : List InteractiveEvent :=
  events (feed.drained overflow) feed.currentEpoch "Interactive event feed exceeded its bounded live window"

def recover (overflow : State) : EventFeed :=
  let emptied := { feed with queue := [], overflow := none, newer := [], recalled := [] }
  if (feed.drained overflow).criticalOverflowed then { emptied with consumer := .failed }
  else { emptied with published := feed.published ++ feed.recovered overflow }

def receives (envelope : SessionEnvelope) : Bool :=
  (envelope.selectionRequest.all fun request => request = feed.currentEpoch) &&
    (!envelope.selectedThreadOnly ||
      (runtimeEventThreadId envelope.event).all fun threadId => some threadId = feed.selectedThread)

def handle (envelope : SessionEnvelope) : EventFeed :=
  let looking := { feed with consumer := .looking }
  match feed.overflow with
  | some overflow =>
    { looking with
      overflow := some (remember overflow envelope.event)
      recalled := feed.recalled ++ [envelope.event] }
  | none =>
    if feed.receives envelope then { looking with published := feed.published ++ [envelope.event] } else looking

/-- The next step of the consumer; it waits for an envelope when there is none. -/
def advance : EventFeed :=
  match feed.consumer, feed.overflow, feed.queue with
  | .looking, none, _ => { feed with consumer := .taking }
  | .looking, some _, [] => feed
  | .looking, some overflow, _ :: _ => feed.recover overflow
  | .taking, _, [] => feed
  | .taking, _, envelope :: queue => { feed with queue, consumer := .holding envelope }
  | .holding envelope, _, _ => feed.handle envelope
  | .failed, _, _ => feed

inductive Input
  | deliver (event : InteractiveEvent) (selectionRequest : Option Int) (selectedThreadOnly : Bool)
  | sessionDispatch (event : InteractiveEvent)
  | selectionDispatch (request : Int) (event : InteractiveEvent)
  | finishSelection (epoch : Int)
  | commitSelection (epoch : Int)
  | beginSelection (threadId : String) (previousThreadId : Option String)
  | clearSelection
  | select (epoch : Int) (thread : Option String)
  | request (epoch : Int)
  | advance

def step (feed : EventFeed) : Input → EventFeed
  | .deliver event selectionRequest selectedThreadOnly => feed.deliver event selectionRequest selectedThreadOnly
  | .sessionDispatch event => feed.sessionDispatch event
  | .selectionDispatch request event => feed.selectionDispatch request event
  | .finishSelection epoch => feed.finishSelection epoch
  | .commitSelection epoch => feed.commitSelection epoch
  | .beginSelection threadId previousThreadId => feed.beginSelection threadId previousThreadId
  | .clearSelection => { feed with loading := none }
  | .select epoch thread => { feed with currentEpoch := epoch, selectedThread := thread }
  | .request epoch => { feed with selectionRequest := epoch }
  | .advance => feed.advance

def run (feed : EventFeed) (inputs : List Input) : EventFeed := inputs.foldl step feed

end EventFeed

end Rika
