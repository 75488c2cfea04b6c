import Rika.Projection

namespace Rika

open Projection

namespace ThreadClient

structure ExecutionClient where
  handle : Nat
deriving DecidableEq

structure ThreadMetadata where
  id : String
  title : String
  target : Target
deriving DecidableEq

inductive Connection
  | connecting
  | connected
  | reconnecting
  | disconnected

structure ThreadClientState where
  selectionEpoch : Nat
  selectedThreadId : Option String
  selectedSessionId : Option String
  focusedSessionId : Option String
  threads : List ProjectionThread
  projection : Option ProjectionState
  connection : Connection
  notice : String

structure CachedProjection where
  execution : ExecutionClient
  projection : ProjectionState
deriving DecidableEq

structure FamilyPage where
  rootSessionId : String
  at_ : Int
  sessions : List RetainedSession
  nextBefore : Option Int

structure HistoryPage where
  leafId : Option String
  entries : List Entry
  nextLeafId : Option String

/-- `stopping` is a fiber that was handed to a `stopConnection` and is not
interrupted yet. -/
inductive FiberPhase
  | running
  | stopping
  | interrupted
  | ended
deriving DecidableEq

/-- A fiber of `runConnection`, with the selection epoch it was started in. -/
structure ConnectionFiber where
  sessionId : String
  epoch : Nat
  phase : FiberPhase
deriving DecidableEq

/-- What goes on once the connections that were taken down are gone. -/
inductive AfterStop
  | selectThread (threadId : String) (epoch : Nat)
  | openChildSession (sessionId : String) (root : CachedProjection) (projection : ProjectionState)
      (previousFocusedSessionId : String) (epoch openSerial : Nat)
  | backToThread (previousFocusedSessionId : String) (epoch openSerial : Nat)
  | dispose
deriving DecidableEq

/-- A call that waits for an answer, with what it has read so far. -/
inductive Continuation
  | stopping (fibers : List Nat) (next : AfterStop)
  | selectMetadata (threadId : String) (epoch : Nat)
  | selectExecution (threadId : String) (epoch : Nat) (metadata : ThreadMetadata)
  | selectSession (threadId : String) (epoch : Nat) (metadata : ThreadMetadata) (execution : ExecutionClient)
  | selectSnapshot (threadId : String) (epoch : Nat) (metadata : ThreadMetadata) (execution : ExecutionClient)
      (sessionId : String)
  | selectFamily (threadId : String) (epoch : Nat) (metadata : ThreadMetadata) (execution : ExecutionClient)
      (sessionId : String) (snapshot : HostSessionSnapshot)
  | childSnapshot (sessionId : String) (root : CachedProjection) (family : FamilyProjection)
      (familySerial epoch openSerial : Nat)
  | loadOlder (epoch : Nat) (sessionId nextLeafId : String)
  | loadMoreCollaborators (epoch : Nat)
  | refreshFamily (fiber epoch : Nat)
deriving DecidableEq

inductive Answer
  | stopped
  | metadata (metadata : ThreadMetadata)
  | execution (execution : ExecutionClient)
  | session (sessionId : String)
  | snapshot (snapshot : HostSessionSnapshot)
  | family (page : FamilyPage)
  | history (page : HistoryPage)
  | failed (message : String)

end ThreadClient

open ThreadClient

/-- The variables of a thread client. The family is identified by the serial of
its last assignment; `pending` are the calls under way. -/
structure ThreadClient where
  current : ThreadClientState
  disposed : Bool
  fibers : List ConnectionFiber
  connectionFibers : InsertionMap String Nat
  selectedExecution : Option ExecutionClient
  historyInFlight : Bool
  familyInFlight : Bool
  focusedSessionId : Option String
  childOpenSerial : Nat
  connectedSessions : List String
  rootFamily : Option FamilyProjection
  familySerial : Nat
  sessionProjections : InsertionMap String CachedProjection
  pending : List Continuation

namespace ThreadClient

def initialState : ThreadClientState where
  selectionEpoch := 0
  selectedThreadId := none
  selectedSessionId := none
  focusedSessionId := none
  threads := []
  projection := none
  connection := .disconnected
  notice := ""

def make : ThreadClient where
  current := initialState
  disposed := false
  fibers := []
  connectionFibers := .empty
  selectedExecution := none
  historyInFlight := false
  familyInFlight := false
  focusedSessionId := none
  childOpenSerial := 0
  connectedSessions := []
  rootFamily := none
  familySerial := 0
  sessionProjections := .empty
  pending := []

def familyProjection (page : FamilyPage) (previous : Option FamilyProjection) (preserveAt : Bool) : FamilyProjection :=
  let known := (previous.map (·.sessions)).getD []
  let sessions := page.sessions.foldl (fun sessions session => sessions.set session.id session)
    (InsertionMap.ofList (known.map fun session => (session.id, session)))
  { rootSessionId := page.rootSessionId
    at_ := if preserveAt then (previous.map (·.at_)).getD page.at_ else page.at_
    sessions := sessions.values
    nextBefore := page.nextBefore }

variable (client : ThreadClient)

def publish (next : ThreadClientState) : ThreadClient :=
  if client.disposed then client else { client with current := next }

def setRootFamily (family : Option FamilyProjection) : ThreadClient :=
  { client with rootFamily := family, familySerial := client.familySerial + 1 }

def cacheProjection (execution : Option ExecutionClient) (projection : ProjectionState) : ThreadClient :=
  match execution with
  | none => client
  | some execution =>
    { client with
      sessionProjections := client.sessionProjections.set projection.sessionId ⟨execution, projection⟩ }

def updateProjection (projection : ProjectionState) : ThreadClient :=
  let thread := projection.thread
  let client := client.cacheProjection client.selectedExecution projection
  client.publish
    { client.current with
      projection := some projection
      selectedSessionId := some projection.sessionId
      threads :=
        if client.current.threads.any fun candidate => candidate.id = thread.id then
          client.current.threads.map fun candidate => if candidate.id = thread.id then thread else candidate
        else client.current.threads ++ [thread]
      selectedThreadId := client.current.selectedThreadId.or (some thread.id) }

def eventSessionId : ConnectionEvent → String
  | .connectionSnapshot _ snapshot => snapshot.session.id
  | .previewDelivery delivery => delivery.sessionId
  | .committed sessionId _ _ => sessionId

def shownProjection (sessionId : String) : Option ProjectionState :=
  client.current.projection.filter fun projection => projection.sessionId = sessionId

def recorded (sessionId : String) : Option ProjectionState :=
  ((client.sessionProjections.get sessionId).map (·.projection)).or (client.shownProjection sessionId)

def storeProjection (sessionId : String) (next : ProjectionState) : ThreadClient :=
  match ((client.sessionProjections.get sessionId).map (·.execution)).or client.selectedExecution with
  | none => client
  | some execution =>
    { client with sessionProjections := client.sessionProjections.set sessionId ⟨execution, next⟩ }

def observeEvent (event : ConnectionEvent) (epoch : Nat) : ThreadClient :=
  if client.disposed ∨ epoch ≠ client.current.selectionEpoch then client
  else
    let sessionId := eventSessionId event
    match client.recorded sessionId with
    | none => client
    | some projection =>
      let result := applyConnectionEvent projection event
      let stored := client.storeProjection sessionId result.state
      if (client.shownProjection sessionId).isNone then stored
      else
        match result with
        | .rejected next reason => stored.publish { client.current with projection := some next, notice := reason }
        | .applied next | .ignored next => stored.updateProjection next

def connectionOf : ConnectionStatus → Connection
  | .connecting => .connecting
  | .connected => .connected
  | .retrying => .reconnecting
  | .disconnected => .disconnected

def startRefreshFamily (fiber epoch : Nat) : ThreadClient :=
  if client.familyInFlight then client
  else { client with familyInFlight := true, pending := client.pending ++ [.refreshFamily fiber epoch] }

def observeStatus (status : ConnectionStatus) (fiber epoch : Nat) (sessionId : String) : ThreadClient :=
  if client.disposed ∨ epoch ≠ client.current.selectionEpoch then client
  else
    let next := (client.recorded sessionId).map fun projection => applyConnectionStatus projection status
    let stored := next.elim client (client.storeProjection sessionId)
    let shown := next.filter fun _ => (client.shownProjection sessionId).isSome
    let published := stored.publish
      { client.current with
        projection := shown.or client.current.projection
        connection := connectionOf status
        threads := shown.elim client.current.threads fun next =>
          client.current.threads.map fun thread => if thread.id = next.thread.id then next.thread else thread }
    if status ≠ .retrying ∧ status ≠ .connected ∨ published.rootFamily = none ∨ published.selectedExecution = none then
      published
    else if status = .connected ∧ sessionId ∉ published.connectedSessions then
      { published with connectedSessions := published.connectedSessions ++ [sessionId] }
    else published.startRefreshFamily fiber epoch

def ConnectionFiber.isLive (connection : ConnectionFiber) : Bool :=
  connection.phase = .running || connection.phase = .stopping

def setPhase (phase : FiberPhase) (fiber : Nat) : ThreadClient :=
  { client with
    fibers := client.fibers.modify fiber fun connection =>
      if connection.isLive then { connection with phase } else connection }

def Continuation.isRefreshOf (fiber : Nat) : Continuation → Bool
  | .refreshFamily other _ => other = fiber
  | _ => false

def endFiber (phase : FiberPhase) (fiber : Nat) : ThreadClient :=
  let ended := client.setPhase phase fiber
  if ended.pending.any (Continuation.isRefreshOf fiber) then
    { ended with
      pending := ended.pending.filter fun continuation => !continuation.isRefreshOf fiber
      familyInFlight := false }
  else ended

def takeConnections (sessionId : Option String) : List Nat × ThreadClient :=
  let taken := client.connectionFibers.entries.filter fun entry => sessionId.all fun sessionId => entry.1 = sessionId
  let fibers := taken.map Prod.snd
  let kept := taken.foldl (fun connectionFibers entry => connectionFibers.delete entry.1) client.connectionFibers
  (fibers, fibers.foldl (fun client fiber => client.setPhase .stopping fiber) { client with connectionFibers := kept })

def connectForSelection (sessionId : String) (epoch : Nat) : ThreadClient :=
  let fiber := client.fibers.length
  if client.disposed = false ∧ epoch = client.current.selectionEpoch then
    { client with
      fibers := client.fibers ++ [⟨sessionId, epoch, .running⟩]
      connectionFibers := client.connectionFibers.set sessionId fiber }
  else { client with fibers := client.fibers ++ [⟨sessionId, epoch, .interrupted⟩] }

/-- The projection rebuilt by a request, with what it hands on of the one before. -/
def reproject (projection : ProjectionState) (snapshot : HostSessionSnapshot) (family : Option FamilyProjection) :
    ProjectionState :=
  projectSnapshot
    { sessionId := projection.sessionId
      threadId := some projection.thread.id
      snapshot
      target := some projection.thread.target
      previousPreviews := some projection.previews
      previousPreviewFences := some projection.previewFences
      family }

def finishOpenChild (sessionId : String) (root : CachedProjection) (projection : ProjectionState) (epoch : Nat) :
    ThreadClient :=
  let cached := { client with
    sessionProjections := client.sessionProjections.set sessionId ⟨root.execution, projection⟩
    focusedSessionId := some sessionId }
  let updated := cached.updateProjection projection
  (updated.publish { updated.current with focusedSessionId := some sessionId, notice := "" }).connectForSelection
    sessionId epoch

def forgetConnected (sessionId : String) : ThreadClient :=
  { client with connectedSessions := client.connectedSessions.filter fun other => other ≠ sessionId }

def finishBack : ThreadClient :=
  match client.rootFamily.bind fun family => client.sessionProjections.get family.rootSessionId with
  | none => client
  | some root =>
    let updated := { client with focusedSessionId := none }.updateProjection root.projection
    updated.publish { updated.current with focusedSessionId := none, notice := "" }

def afterStop : AfterStop → ThreadClient
  | .selectThread threadId epoch =>
    if client.disposed ∨ epoch ≠ client.current.selectionEpoch then client
    else { client with pending := client.pending ++ [.selectMetadata threadId epoch] }
  | .openChildSession sessionId root projection previousFocusedSessionId epoch _ =>
    (client.forgetConnected previousFocusedSessionId).finishOpenChild sessionId root projection epoch
  | .backToThread previousFocusedSessionId _ _ => (client.forgetConnected previousFocusedSessionId).finishBack
  | .dispose => (List.range client.fibers.length).foldl (fun client fiber => client.endFiber .interrupted fiber) client

def interruptNext (fibers : List Nat) (next : AfterStop) : ThreadClient :=
  match fibers with
  | [] => client.afterStop next
  | fiber :: _ =>
    let interrupted := client.endFiber .interrupted fiber
    { interrupted with pending := interrupted.pending ++ [.stopping fibers next] }

def stopConnection (sessionId : Option String) (next : AfterStop) : ThreadClient :=
  let (fibers, taken) := client.takeConnections sessionId
  taken.interruptNext fibers next

def selectThread (threadId : String) : ThreadClient :=
  if client.disposed then client
  else
    let epoch := client.current.selectionEpoch + 1
    let reset := { client.setRootFamily none with
      connectedSessions := []
      childOpenSerial := client.childOpenSerial + 1
      focusedSessionId := none
      selectedExecution := none
      sessionProjections := .empty }
    (reset.publish
      { client.current with
        selectionEpoch := epoch
        selectedThreadId := some threadId
        selectedSessionId := none
        projection := none
        connection := .connecting
        notice := "Loading Thread…" }).stopConnection none (.selectThread threadId epoch)

def finishSelect (targetForThread : ThreadMetadata → Option Target) (threadId : String) (epoch : Nat)
    (metadata : ThreadMetadata) (execution : ExecutionClient) (sessionId : String) (snapshot : HostSessionSnapshot)
    (page : FamilyPage) : ThreadClient :=
  let family := familyProjection page none true
  let projection := projectSnapshot
    { sessionId
      threadId := some threadId
      snapshot
      target := some ((targetForThread metadata).getD metadata.target)
      family := some family }
  let cached := { client.setRootFamily (some family) with
    selectedExecution := some execution
    sessionProjections := InsertionMap.empty.set sessionId ⟨execution, projection⟩ }
  let updated := cached.updateProjection projection
  (updated.publish
    { updated.current with connection := .connecting, notice := "", focusedSessionId := none }).connectForSelection
      sessionId epoch

def openChildStands (root : CachedProjection) (familySerial epoch openSerial : Nat) : Bool :=
  !client.disposed && epoch = client.current.selectionEpoch && openSerial = client.childOpenSerial &&
    familySerial = client.familySerial && client.current.selectedThreadId = some root.projection.thread.id

def continueOpenChild (sessionId : String) (root : CachedProjection) (projection : ProjectionState)
    (familySerial epoch openSerial : Nat) : ThreadClient :=
  if client.openChildStands root familySerial epoch openSerial = false then client
  else
    match client.focusedSessionId.filter fun previous => previous ≠ sessionId with
    | some previous =>
      client.stopConnection (some previous) (.openChildSession sessionId root projection previous epoch openSerial)
    | none => client.finishOpenChild sessionId root projection epoch

def openChildSession (sessionId : String) : ThreadClient :=
  if client.disposed then client
  else
    match client.rootFamily with
    | none => client
    | some family =>
      if (family.sessions.any fun session => session.id = sessionId) = false ∨ family.rootSessionId = sessionId then
        client
      else
        match client.sessionProjections.get family.rootSessionId with
        | none => client
        | some root =>
          let openSerial := client.childOpenSerial + 1
          let opening := { client with childOpenSerial := openSerial }
          match client.sessionProjections.get sessionId with
          | some cached =>
            opening.continueOpenChild sessionId root cached.projection client.familySerial
              client.current.selectionEpoch openSerial
          | none =>
            { opening with
              pending := client.pending ++
                [.childSnapshot sessionId root family client.familySerial client.current.selectionEpoch
                  openSerial] }

def backToThread : ThreadClient :=
  match client.focusedSessionId with
  | none => client
  | some previous =>
    { client with childOpenSerial := client.childOpenSerial + 1 }.stopConnection (some previous)
      (.backToThread previous client.current.selectionEpoch (client.childOpenSerial + 1))

def loadOlder : ThreadClient :=
  match client.current.selectedSessionId, client.current.projection, client.selectedExecution with
  | some sessionId, some projection, some _ =>
    match projection.snapshot.conversation.nextLeafId with
    | none => client
    | some nextLeafId =>
      if client.historyInFlight then client
      else
        { client with
          historyInFlight := true
          pending := client.pending ++ [.loadOlder client.current.selectionEpoch sessionId nextLeafId] }
  | _, _, _ => client

def olderConversation (conversation : Conversation) (page : HistoryPage) : Conversation where
  leafId := conversation.leafId
  entries := (page.entries.filter fun entry => !conversation.entries.any fun known => known.id = entry.id) ++
    conversation.entries
  nextLeafId := page.nextLeafId

section

variable (epoch : Nat) (sessionId nextLeafId : String) (page : HistoryPage)

/-- The projection an older page goes to, when it is still the one it was read for. -/
def historyTarget : Option ProjectionState :=
  if client.current.selectionEpoch = epoch ∧ client.current.selectedSessionId = some sessionId then
    (client.shownProjection sessionId).filter fun projection =>
      projection.snapshot.conversation.nextLeafId = some nextLeafId && page.leafId = some nextLeafId
  else none

def finishLoadOlder : ThreadClient :=
  match client.historyTarget epoch sessionId nextLeafId page with
  | none => client
  | some projection =>
    let conversation := olderConversation projection.snapshot.conversation page
    client.updateProjection (reproject projection { projection.snapshot with conversation } client.rootFamily)

end

def loadMoreCollaborators : ThreadClient :=
  match client.rootFamily with
  | none => client
  | some family =>
    if client.familyInFlight ∨ family.nextBefore = none ∨
        (client.sessionProjections.get family.rootSessionId).isNone then client
    else
      { client with
        familyInFlight := true
        pending := client.pending ++ [.loadMoreCollaborators client.current.selectionEpoch] }

def finishLoadMore (epoch : Nat) (page : FamilyPage) : ThreadClient :=
  if client.disposed ∨ epoch ≠ client.current.selectionEpoch then client
  else
    match client.rootFamily with
    | none => client
    | some previous =>
      let family := familyProjection page (some previous) true
      let next := client.setRootFamily (some family)
      match next.sessionProjections.get family.rootSessionId with
      | none => next
      | some cached =>
        let projection := reproject cached.projection cached.projection.snapshot (some family)
        let stored := { next with
          sessionProjections := next.sessionProjections.set cached.projection.sessionId
            ⟨cached.execution, projection⟩ }
        if next.focusedSessionId = none then stored.updateProjection projection else stored

/-- Every cached projection, rebuilt with the family; a focus it does not know is
given up. -/
def rebuildProjections (family : FamilyProjection) : ThreadClient :=
  { client.setRootFamily (some family) with
    sessionProjections := client.sessionProjections.mapValues fun cached =>
      ⟨cached.execution, reproject cached.projection cached.projection.snapshot (some family)⟩
    focusedSessionId := client.focusedSessionId.filter fun focused =>
      family.sessions.any fun session => session.id = focused }

def activeProjection (family : FamilyProjection) : Option CachedProjection :=
  client.sessionProjections.get (client.focusedSessionId.getD family.rootSessionId)

def finishRefreshFamily (epoch : Nat) (page : FamilyPage) : ThreadClient :=
  if client.disposed ∨ epoch ≠ client.current.selectionEpoch then client
  else
    let family := familyProjection page client.rootFamily false
    let rebuilt := client.rebuildProjections family
    let updated :=
      match rebuilt.activeProjection family with
      | none => rebuilt
      | some active => rebuilt.updateProjection active.projection
    updated.publish { updated.current with focusedSessionId := rebuilt.focusedSessionId, notice := "" }

def stands (epoch : Nat) : Bool := !client.disposed && epoch = client.current.selectionEpoch

def await (continuation : Continuation) : ThreadClient := { client with pending := client.pending ++ [continuation] }

/-- A call goes on with its answer; an answer of another kind is a failure. The wait for
a connection that is interrupted does not fail. -/
def resume (targetForThread : ThreadMetadata → Option Target) (continuation : Continuation) (answer : Answer) :
    ThreadClient :=
  match continuation, answer with
  | .stopping fibers next, _ => client.interruptNext fibers.tail next
  | .selectMetadata threadId epoch, .metadata metadata =>
    if client.stands epoch then client.await (.selectExecution threadId epoch metadata) else client
  | .selectExecution threadId epoch metadata, .execution execution =>
    if client.stands epoch then client.await (.selectSession threadId epoch metadata execution) else client
  | .selectSession threadId epoch metadata execution, .session sessionId =>
    if client.stands epoch then client.await (.selectSnapshot threadId epoch metadata execution sessionId) else client
  | .selectSnapshot threadId epoch metadata execution sessionId, .snapshot snapshot =>
    client.await (.selectFamily threadId epoch metadata execution sessionId snapshot)
  | .selectFamily threadId epoch metadata execution sessionId snapshot, .family page =>
    if client.stands epoch then
      client.finishSelect targetForThread threadId epoch metadata execution sessionId snapshot page
    else client
  | .childSnapshot sessionId root family familySerial epoch openSerial, .snapshot snapshot =>
    let projection := projectSnapshot
      { sessionId
        threadId := some root.projection.thread.id
        snapshot
        target := some root.projection.thread.target
        family := some family }
    client.continueOpenChild sessionId root projection familySerial epoch openSerial
  | .loadOlder epoch sessionId nextLeafId, .history page =>
    { client.finishLoadOlder epoch sessionId nextLeafId page with historyInFlight := false }
  | .loadOlder _ _ _, _ => { client with historyInFlight := false }
  | .loadMoreCollaborators epoch, .family page => { client.finishLoadMore epoch page with familyInFlight := false }
  | .loadMoreCollaborators _, _ => { client with familyInFlight := false }
  | .refreshFamily _ epoch, .family page => { client.finishRefreshFamily epoch page with familyInFlight := false }
  | .refreshFamily _ epoch, .failed message =>
    let released := { client with familyInFlight := false }
    if client.stands epoch then released.publish { released.current with notice := message } else released
  | .refreshFamily _ _, _ => { client with familyInFlight := false }
  | _, _ => client

def dispose : ThreadClient :=
  if client.disposed then client
  else
    { client with disposed := true, childOpenSerial := client.childOpenSerial + 1 }.stopConnection none .dispose

def connectionFailed (epoch : Nat) (message : String) : ThreadClient :=
  if client.disposed ∨ epoch ≠ client.current.selectionEpoch then client
  else client.publish { client.current with connection := .disconnected, notice := message }

/-- What can happen to a client: a call of the interface, the answer of a call
under way, and what a connection brings. -/
inductive Input
  | selectThread (threadId : String)
  | openChildSession (sessionId : String)
  | backToThread
  | loadOlder
  | loadMoreCollaborators
  | resume (index : Nat) (answer : Answer)
  | event (fiber : Nat) (event : ConnectionEvent)
  | status (fiber : Nat) (status : ConnectionStatus)
  | failed (fiber : Nat) (message : String)
  | ended (fiber : Nat)
  | dispose

def live (fiber : Nat) : Option ConnectionFiber := client.fibers[fiber]?.filter (·.isLive)

def readsStatus (fiber : Nat) : Option ConnectionFiber :=
  (client.live fiber).filter fun _ => !client.pending.any (Continuation.isRefreshOf fiber)

section

variable (targetForThread : ThreadMetadata → Option Target) (client : ThreadClient)

def step : Input → ThreadClient
  | .selectThread threadId => client.selectThread threadId
  | .openChildSession sessionId => client.openChildSession sessionId
  | .backToThread => client.backToThread
  | .loadOlder => client.loadOlder
  | .loadMoreCollaborators => client.loadMoreCollaborators
  | .resume index answer =>
    match client.pending[index]? with
    | none => client
    | some continuation =>
      { client with pending := client.pending.eraseIdx index }.resume targetForThread continuation answer
  | .event fiber event =>
    match client.live fiber with
    | none => client
    | some connection => client.observeEvent event connection.epoch
  | .status fiber status =>
    match client.readsStatus fiber with
    | none => client
    | some connection => client.observeStatus status fiber connection.epoch connection.sessionId
  | .failed fiber message =>
    match client.live fiber with
    | none => client
    | some connection => (client.endFiber .ended fiber).connectionFailed connection.epoch message
  | .ended fiber => client.endFiber .ended fiber
  | .dispose => client.dispose

def run (inputs : List Input) : ThreadClient :=
  inputs.foldl (step targetForThread) client

end

end ThreadClient

end Rika
