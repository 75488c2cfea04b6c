import Rika.FeedBounds
import Rika.RecentKeys

namespace Rika.ThreadViewFeed

open ThreadView Selection Accumulator InsertionMap

variable {collation : Collation}

section

variable (feed : Feed collation)

def Feed.reselected : RuntimeEvent → Option ThreadViewSnapshot
  | .selectionLoaded loaded =>
    let snapshot := feed.settled (fromSelection collation loaded (feed.selectionRevision loaded))
    match View.hydrate collation snapshot with
    | .ok _ => some snapshot
    | .error _ => none
  | _ => none

def settledTurns (snapshot : ThreadViewSnapshot) : List (String × TerminalStatus) :=
  snapshot.turns.filterMap fun entry => (terminalStatus entry.turn.status).map (entry.turn.id, ·)

/-- The turns an event records as terminal: a settlement its own, and a selection those
it shows so. -/
def Feed.recorded (event : RuntimeEvent) : List (String × TerminalStatus) :=
  match event with
  | .turnSettled threadId turnId status =>
    if feed.current.any (fun view => threadId = view.header.thread.id) then [(turnId, status)] else []
  | event => ((feed.reselected event).map settledTurns).getD []

def Feed.leaves (event : RuntimeEvent) : Bool :=
  (feed.reselected event).any fun snapshot => feed.knownThreadId ≠ some snapshot.thread.id

def Feed.recordedSince (turnId : String) (since : Option (List String)) (event : RuntimeEvent) :
    Option (List String) :=
  renewedSince turnId (if feed.leaves event then none else since) ((feed.recorded event).map Prod.fst)

end

structure Recording (collation : Collation) where
  feed : Feed collation := {}
  since : Option (List String) := none

def Recording.publish (turnId : String) (recording : Recording collation) (event : Finite × RuntimeEvent) :
    Recording collation where
  feed := (recording.feed.publish event.1 event.2).2
  since := recording.feed.recordedSince turnId recording.since event.2

def Recording.run (turnId : String) (recording : Recording collation) (events : List (Finite × RuntimeEvent)) :
    Recording collation :=
  events.foldl (Recording.publish turnId) recording

/-- The turn was recorded, and fewer other turns since than the feed tracks. -/
def Recording.Tracked (recording : Recording collation) : Prop :=
  ∃ others, recording.since = some others ∧ others.dedup.length < trackedProjectionLimit

def Recording.TrackedThrough (turnId : String) (recording : Recording collation) : List (Finite × RuntimeEvent) → Prop
  | [] => True
  | event :: events => recording.Tracked ∧ (recording.publish turnId event).TrackedThrough turnId events

def Feed.outputs (feed : Feed collation) : List (Finite × RuntimeEvent) → List ClientEvent
  | [] => []
  | event :: events => (feed.publish event.1 event.2).1 ++ Feed.outputs (feed.publish event.1 event.2).2 events

def changedStatus (turnId : String) : ThreadViewTurnChange → Option Status
  | .upsertTurn state => if state.turn.id = turnId then some state.turn.status else none
  | .removeTurn _ => none

def shown (turnId : String) : ClientEvent → List Status
  | .threadViewSnapshot snapshot => (snapshot.turns.filter (·.turn.id = turnId)).map (·.turn.status)
  | .threadViewPatch patch => patch.turnChanges.filterMap (changedStatus turnId)
  | .resyncRequired _ | .threadTitled _ _ | .executionModelPreviewChanged _ _ _ | .notice _ => []

variable {turnId : String} {status : Status}

theorem mem_shown_snapshot {snapshot : ThreadViewSnapshot} :
    status ∈ shown turnId (.threadViewSnapshot snapshot) ↔
      ∃ entry ∈ snapshot.turns, entry.turn.id = turnId ∧ entry.turn.status = status := by
  simp [shown, and_assoc]

theorem mem_shown_patch {patch : ThreadViewPatch} : status ∈ shown turnId (.threadViewPatch patch) ↔
      ∃ state, .upsertTurn state ∈ patch.turnChanges ∧ state.turn.id = turnId ∧ state.turn.status = status := by
  rw [shown, List.mem_filterMap]
  constructor
  · rintro ⟨change, hchange, hstatus⟩
    cases change with
    | upsertTurn state =>
      rw [changedStatus, Option.ite_none_right_eq_some, Option.some_inj] at hstatus
      exact ⟨state, hchange, hstatus⟩
    | removeTurn removed => cases hstatus
  · rintro ⟨state, hstate, hid, hstatus⟩
    exact ⟨.upsertTurn state, hstate, by rw [changedStatus, if_pos hid, hstatus]⟩

def ShowsTerminal (feed : Feed collation) (turnId : String) : Prop :=
  ∀ view, feed.current = some view → ∀ state, view.turn turnId = some state → state.turn.status.isTerminalStatus = true

section Recording

variable (feed : Feed collation)

theorem nextPatch_terminal (change : Feed.Change) :
    (feed.nextPatch change).2.knownTerminalStatuses = feed.knownTerminalStatuses := by
  rw [Feed.nextPatch]
  split
  · rfl
  · split
    · rfl
    · rw [Feed.patch]
      split
      · rfl
      · split
        · rfl
        · split
          · rfl
          · rfl

theorem accepted_terminal (turnId : String) (change : ProjectionChange) (answer : Answer collation) :
    (Feed.accepted turnId change answer).2.knownTerminalStatuses = answer.2.knownTerminalStatuses := by
  rw [Feed.accepted]
  split
  · rfl
  · rfl

theorem rememberTurn_terminal (entry : ThreadViewTurn) :
    (feed.rememberTurn entry).knownTerminalStatuses =
      match terminalStatus entry.turn.status with
      | some status => feed.knownTerminalStatuses.renew trackedProjectionLimit entry.turn.id status
      | none => feed.knownTerminalStatuses := by
  simp only [Feed.rememberTurn]
  cases terminalStatus entry.turn.status with
  | none | some status =>
    dsimp only
    split
    · rfl
    · split
      · rfl
      · rfl

theorem rememberTurns_terminal (turns : List ThreadViewTurn) :
    (turns.foldl Feed.rememberTurn feed).knownTerminalStatuses =
      (turns.filterMap fun entry => (terminalStatus entry.turn.status).map (entry.turn.id, ·)).foldl
        (fun known e => known.renew trackedProjectionLimit e.1 e.2) feed.knownTerminalStatuses := by
  induction turns generalizing feed with
  | nil => rfl
  | cons entry turns ih =>
    rw [List.foldl_cons, ih, rememberTurn_terminal, List.filterMap_cons]
    cases terminalStatus entry.turn.status with
    | none => rfl
    | some status => rfl

theorem remember_terminal (snapshot : ThreadViewSnapshot) :
    (feed.remember snapshot).knownTerminalStatuses =
      (settledTurns snapshot).foldl (fun known e => known.renew trackedProjectionLimit e.1 e.2)
        (if feed.knownThreadId ≠ some snapshot.thread.id then .empty else feed.knownTerminalStatuses) := by
  rw [Feed.remember, rememberTurns_terminal]
  by_cases hsame : feed.knownThreadId = some snapshot.thread.id
  · rw [if_pos hsame, if_neg (not_not.mpr hsame)]
    rfl
  · rw [if_neg hsame, if_pos hsame]
    rfl

theorem selectionLoaded_terminal (loaded : SelectionLoaded) :
    (feed.selectionLoaded loaded).2.knownTerminalStatuses =
      (feed.recorded (.selectionLoaded loaded)).foldl (fun known e => known.renew trackedProjectionLimit e.1 e.2)
        (if feed.leaves (.selectionLoaded loaded) then .empty else feed.knownTerminalStatuses) := by
  have hkept : (feed.selectionLoaded loaded).2.knownTerminalStatuses =
      (feed.replace (fromSelection collation loaded (feed.selectionRevision loaded))).2.knownTerminalStatuses := by
    rw [Feed.selectionLoaded]
    split
    · rfl
    · rfl
  rw [hkept, Feed.recorded, Feed.leaves, Feed.reselected]
  · rcases replace_cases feed (fromSelection collation loaded (feed.selectionRevision loaded)) with
      ⟨error, hview, r, h⟩ | ⟨view, hview, h⟩
    · rw [h]
      simp only [hview]
      rfl
    · rw [h]
      simp only [hview]
      have hremember := remember_terminal ({ feed with current := some view } : Feed collation)
        (feed.settled (fromSelection collation loaded (feed.selectionRevision loaded)))
      refine hremember.trans ?_
      simp only [Option.map_some, Option.getD_some, Option.any_some, decide_eq_true_eq]
  · intro _ _ _ h
    cases h

theorem projectionChanged_terminal (now : Finite) (threadId : String) (turn : Option Turn) (change : ProjectionChange) :
    (feed.projectionChanged now threadId turn change).2.knownTerminalStatuses = feed.knownTerminalStatuses := by
  rw [Feed.projectionChanged]
  split
  · rfl
  · split
    · rfl
    · split
      · rfl
      · split
        · rfl
        · simp only [Feed.projectTurn]
          split
          · rfl
          · split
            · rw [accepted_terminal, nextPatch_terminal]
            · rfl

theorem turnStarted_terminal (threadId : String) (turn : Turn) :
    (feed.turnStarted threadId turn).2.knownTerminalStatuses = feed.knownTerminalStatuses := by
  rw [Feed.turnStarted]
  split
  · rfl
  · split
    · rfl
    · split
      · rfl
      · split
        · rfl
        · exact nextPatch_terminal feed _

theorem queueUpdated_terminal (threadId : String) (change : QueueChange) :
    (feed.queueUpdated threadId change).2.knownTerminalStatuses = feed.knownTerminalStatuses := by
  rw [Feed.queueUpdated]
  split
  · rfl
  · split
    · rfl
    · dsimp only
      split
      · split
        · exact nextPatch_terminal _ _
        · exact nextPatch_terminal feed _
      · exact nextPatch_terminal feed _

theorem turnSettled_terminal (now : Finite) (threadId turnId : String) (status : TerminalStatus) :
    (feed.turnSettled now threadId turnId status).2.knownTerminalStatuses =
      (feed.recorded (.turnSettled threadId turnId status)).foldl
        (fun known e => known.renew trackedProjectionLimit e.1 e.2) feed.knownTerminalStatuses := by
  rw [Feed.turnSettled, Feed.recorded]
  cases hcurrent : feed.current with
  | none => rfl
  | some view =>
    dsimp only
    by_cases hthread : threadId = view.header.thread.id
    · rw [if_neg (not_not.mpr hthread), Option.any_some, if_pos (decide_eq_true hthread)]
      split
      · rfl
      · exact nextPatch_terminal _ _
    · rw [if_pos hthread, Option.any_some, if_neg (by simpa using hthread)]
      rfl

theorem publish_terminal (now : Finite) (event : RuntimeEvent) :
    (feed.publish now event).2.knownTerminalStatuses =
      (feed.recorded event).foldl (fun known e => known.renew trackedProjectionLimit e.1 e.2)
        (if feed.leaves event then .empty else feed.knownTerminalStatuses) := by
  cases event with
  | selectionLoaded loaded => exact selectionLoaded_terminal feed loaded
  | executionProjectionChanged threadId turn change => exact projectionChanged_terminal feed now threadId turn change
  | turnStarted threadId turn => exact turnStarted_terminal feed threadId turn
  | turnSettled threadId turnId status => exact turnSettled_terminal feed now threadId turnId status
  | queueUpdated threadId change => exact queueUpdated_terminal feed threadId change
  | threadTitled threadId title =>
    rw [Feed.publish, Feed.threadTitled]
    split
    · rfl
    · split
      · rfl
      · exact nextPatch_terminal feed _
  | executionProjectionResyncRequired threadId | threadViewResyncRequired threadId reason =>
    rw [Feed.publish, Feed.resyncRequired]
    split
    · rfl
    · split
      · rfl
      · rfl
  | executionModelPreviewChanged threadId turnId preview =>
    rw [Feed.publish, Feed.executionModelPreviewChanged]
    split
    · rfl
    · split
      · rfl
      · rfl
  | notice notice => rfl

end Recording

section Showing

variable {feed : Feed collation} {turnId : String}

theorem terminalStatus_terminal (status : TerminalStatus) : status.status.isTerminalStatus = true := by
  cases status <;> rfl

/-- The turn changes of a patch of the feed set the turn to terminal statuses only. -/
def SetsTerminal (turnId : String) (change : Feed.Change) : Prop :=
  ∀ state, .upsertTurn state ∈ change.turnChanges → state.turn.id = turnId → state.turn.status.isTerminalStatus = true

variable {change : Feed.Change} {e : ClientEvent} {status : Status}

theorem holdsTurns_of_shown (hshows : status ∈ shown turnId e) : holdsTurns e = true := by
  cases e with
  | threadViewSnapshot | threadViewPatch => rfl
  | resyncRequired | threadTitled | executionModelPreviewChanged | notice => cases hshows

theorem setsTerminal_nil (h : change.turnChanges = []) : SetsTerminal turnId change := by
  intro state hstate
  rw [h] at hstate
  cases hstate

theorem setsTerminal_header (header : ThreadViewHeader) :
    SetsTerminal turnId ({ header := some header } : Feed.Change) :=
  setsTerminal_nil rfl

theorem setsTerminal_settled (state : ThreadViewTurnState) (status : TerminalStatus)
    (h : state.turn.status = status.status) : SetsTerminal turnId { turnChanges := [.upsertTurn state] } := by
  intro state' hstate _
  obtain ⟨⟩ := List.mem_singleton.mp hstate
  rw [h]
  exact terminalStatus_terminal status

theorem SetsTerminal.withHeader (h : SetsTerminal turnId change) (header : ThreadViewHeader) :
    SetsTerminal turnId { change with header := some header } :=
  fun state hstate hid => h state hstate hid

variable {terminal : TerminalStatus} (hknown : feed.knownTerminalStatuses.get turnId = some terminal)

include hknown

theorem startedTurn_setsTerminal (turn : Turn) : SetsTerminal turnId (feed.startedTurn turn) := by
  intro state hstate hid
  obtain ⟨⟩ := List.mem_singleton.mp hstate
  have hturn : turn.id = turnId := hid
  dsimp only
  rw [hturn, hknown]
  exact terminalStatus_terminal terminal

theorem projectionPatch_setsTerminal (now : Finite) {view : View collation} {key : String} {turn : Option Turn}
    (header : ThreadViewHeader) {change : ProjectionChange} {known : Option Finite} {position : Feed.ProjectionPosition}
    (hturn : ∀ t, turn = some t → t.id = key)
    (hposition : Feed.projectionPosition view (view.turn key) known turn change = some position) :
    SetsTerminal turnId (Feed.projectionPatch now view key turn (feed.projectedStatus key change) header change position) := by
  intro state hstate hid
  have hstatus : state.turn.status = feed.projectedStatus key change := by
    cases position with
    | trackedOffWindow => cases hstate
    | insertable started =>
      obtain ⟨⟩ := List.mem_singleton.mp hstate
      rfl
    | inWindow existing =>
      obtain ⟨⟩ := List.mem_singleton.mp hstate
      cases turn with
      | none => rfl
      | some started => rfl
  have hkey : key = turnId := by
    rcases @projectionPatch_changes _ now _ _ _ (feed.projectedStatus key change) header _ _ _ hturn hposition with
      ⟨-, hnil⟩ | ⟨record, hrecord, hsingle⟩
    · rw [hnil] at hstate
      cases hstate
    · rw [hsingle] at hstate
      obtain ⟨⟩ := List.mem_singleton.mp hstate
      exact hrecord.symm.trans hid
  rw [hstatus, hkey, Feed.projectedStatus, hknown]
  exact terminalStatus_terminal terminal

theorem settled_shows {incoming : ThreadViewSnapshot} {entry : ThreadViewTurn} (hentry : entry ∈ (feed.settled incoming).turns)
    (hid : entry.turn.id = turnId) : entry.turn.status.isTerminalStatus = true := by
  obtain ⟨entry', -, rfl⟩ := List.mem_map.mp hentry
  cases hget : feed.knownTerminalStatuses.get entry'.turn.id with
  | none =>
    simp only [hget] at hid
    rw [hid, hknown] at hget
    cases hget
  | some status =>
    simp only
    exact terminalStatus_terminal status

theorem publish_shows (now : Finite) (event : RuntimeEvent) (he : e ∈ (feed.publish now event).1)
    (hshows : status ∈ shown turnId e) : status.isTerminalStatus = true := by
  cases event with
  | selectionLoaded loaded =>
    rw [Feed.publish, Feed.selectionLoaded] at he
    rcases replace_cases feed (fromSelection collation loaded (feed.selectionRevision loaded)) with
      ⟨error, -, r, h⟩ | ⟨view, -, h⟩
    · rw [h] at he
      obtain rfl := List.mem_singleton.mp he
      cases hshows
    · rw [h] at he
      obtain rfl := List.mem_singleton.mp he
      obtain ⟨entry, hentry, hid, rfl⟩ := mem_shown_snapshot.mp hshows
      exact settled_shows hknown hentry hid
  | executionProjectionChanged threadId turn change =>
    obtain ⟨view, key, position, htaken, rfl⟩ := projectionChanged_emitted (holdsTurns_of_shown hshows) he
    obtain ⟨state, hstate, hid, rfl⟩ := mem_shown_patch.mp hshows
    exact projectionPatch_setsTerminal hknown now _ (projectionTurnId_turn htaken.turned) htaken.positioned state
      hstate hid
  | turnStarted | turnSettled | queueUpdated | threadTitled | executionProjectionResyncRequired | threadViewResyncRequired
  | executionModelPreviewChanged | notice =>
    obtain ⟨view, change, hsets, rfl⟩ := publish_emitted feed now setsTerminal_header (startedTurn_setsTerminal hknown)
      (fun header h => h.withHeader header) setsTerminal_settled (by rintro _ ⟨⟩) (by rintro _ _ _ ⟨⟩)
      (holdsTurns_of_shown hshows) he
    obtain ⟨state, hstate, hid, rfl⟩ := mem_shown_patch.mp hshows
    exact hsets state hstate hid

omit hknown in
theorem changedTurns_terminal {changes : List ThreadViewTurnChange}
    (hshows : ∀ state, .upsertTurn state ∈ changes → state.turn.id = turnId → state.turn.status.isTerminalStatus = true)
    {previous : Option ThreadViewTurnState}
    (hprevious : ∀ state, previous = some state → state.turn.status.isTerminalStatus = true) :
    ∀ state, changes.foldl (changedTurn turnId) previous = some state → state.turn.status.isTerminalStatus = true := by
  induction changes generalizing previous with
  | nil => exact hprevious
  | cons change changes ih =>
    refine ih (fun state hstate => hshows state (List.mem_cons_of_mem _ hstate)) ?_
    intro state hstate
    by_cases hkey : change.key = turnId
    · cases change with
      | upsertTurn upserted =>
        rw [changedTurn_upsertTurn hkey] at hstate
        obtain rfl := Option.some_inj.mp hstate
        exact hshows upserted (List.mem_cons_self ..) hkey
      | removeTurn removed =>
        rw [changedTurn.eq_def, if_pos hkey] at hstate
        cases hstate
    · rw [changedTurn_of_ne hkey] at hstate
      exact hprevious state hstate

omit hknown in
theorem hydrate_turn {snapshot : ThreadViewSnapshot} {view : View collation}
    (h : View.hydrate collation snapshot = .ok view) {state : ThreadViewTurnState} (hstate : view.turn turnId = some state) :
    ∃ entry ∈ snapshot.turns, entry.turn.id = turnId ∧ entry.turn.status = state.turn.status := by
  obtain ⟨hvalid, hacc⟩ := hydrate_eq_ok h
  rw [View.turn, hacc] at hstate
  obtain ⟨entry, hentry, hid, rfl⟩ := hvalid.turn_eq_some.mp hstate
  exact ⟨entry, hentry, hid, rfl⟩

theorem publish_showsTerminal (now : Finite) (event : RuntimeEvent) (h : ShowsTerminal feed turnId) :
    ShowsTerminal (feed.publish now event).2 turnId := by
  have hshows : ∀ e ∈ (feed.publish now event).1, ∀ status ∈ shown turnId e, status.isTerminalStatus = true :=
    fun e he status hstatus => publish_shows hknown now event he hstatus
  have houtcome := publish_outcome feed now event
  revert houtcome hshows
  generalize feed.publish now event = answer
  intro hshows houtcome view hview state hstate
  cases houtcome with
  | quiet _ hcurrent _ | resync hcurrent _ _ => exact h view (hcurrent.symm.trans hview) state hstate
  | lost _ hcurrent _ =>
    rw [hcurrent] at hview
    cases hview
  | loaded hhydrate hcurrent _ =>
    obtain rfl := Option.some_inj.mp (hcurrent.symm.trans hview)
    obtain ⟨entry, hentry, hid, hstatus⟩ := hydrate_turn hhydrate hstate
    rw [← hstatus]
    exact hshows _ (List.mem_singleton_self _) _ (mem_shown_snapshot.mpr ⟨entry, hentry, hid, rfl⟩)
  | patched hcurrent _ happly hcurrent' _ =>
    obtain rfl := Option.some_inj.mp (hcurrent'.symm.trans hview)
    rw [(View.apply_turn happly).1] at hstate
    refine changedTurns_terminal ?_ (h _ hcurrent) state hstate
    intro upserted hupserted hid
    exact hshows _ (List.mem_singleton_self _) _ (mem_shown_patch.mpr ⟨upserted, hupserted, hid, rfl⟩)

end Showing

section Runs

variable {turnId : String} {recording : Recording collation}

def Recording.Kept (turnId : String) (recording : Recording collation) : Prop :=
  recording.feed.knownTerminalStatuses.Tracks trackedProjectionLimit turnId recording.since

theorem Recording.Kept.publish (h : recording.Kept turnId) (event : Finite × RuntimeEvent) :
    (recording.publish turnId event).Kept turnId := by
  have hkept : (if recording.feed.leaves event.2 then InsertionMap.empty else recording.feed.knownTerminalStatuses).Tracks
      trackedProjectionLimit turnId (if recording.feed.leaves event.2 then none else recording.since) := by
    split
    · exact Tracks.none _ _ _
    · exact h
  have hrenewed := hkept.renewAll (by decide) (recording.feed.recorded event.2)
  rw [← publish_terminal recording.feed event.1 event.2] at hrenewed
  exact hrenewed

theorem Recording.Kept.run (h : recording.Kept turnId) (events : List (Finite × RuntimeEvent)) :
    (recording.run turnId events).Kept turnId := by
  induction events generalizing recording with
  | nil => exact h
  | cons event events ih => exact ih (h.publish event)

theorem Recording.Kept.known (h : recording.Kept turnId) (htracked : recording.Tracked) :
    ∃ terminal, recording.feed.knownTerminalStatuses.get turnId = some terminal := by
  obtain ⟨others, hothers, hlt⟩ := htracked
  exact (h others hothers hlt).get

theorem kept_initial (turnId : String) : ({} : Recording collation).Kept turnId := Tracks.none _ _ _

variable {later : List (Finite × RuntimeEvent)}

theorem outputs_terminal (h : recording.Kept turnId) (htracked : recording.TrackedThrough turnId later) :
    ∀ e ∈ recording.feed.outputs later, ∀ status ∈ shown turnId e, status.isTerminalStatus = true := by
  induction later generalizing recording with
  | nil => exact fun e he => absurd he List.not_mem_nil
  | cons event later ih =>
    obtain ⟨terminal, hknown⟩ := h.known htracked.1
    intro e he status hshows
    rcases List.mem_append.mp he with he | he
    · exact publish_shows hknown event.1 event.2 he hshows
    · exact ih (h.publish event) htracked.2 e he status hshows

theorem run_showsTerminal (h : recording.Kept turnId)
    (htracked : recording.TrackedThrough turnId later) (hview : ShowsTerminal recording.feed turnId) :
    ShowsTerminal (recording.run turnId later).feed turnId := by
  induction later generalizing recording with
  | nil => exact hview
  | cons event later ih =>
    obtain ⟨terminal, hknown⟩ := h.known htracked.1
    exact ih (h.publish event) htracked.2 (publish_showsTerminal hknown event.1 event.2 hview)

end Runs

/-- While the feed is on its thread, a turn that was recorded terminal is not shown in another status. -/
theorem settled_turns_stay {turnId : String} (events later : List (Finite × RuntimeEvent))
    (h : (({} : Recording collation).run turnId events).TrackedThrough turnId later) :
    (∀ e ∈ (({} : Recording collation).run turnId events).feed.outputs later,
        ∀ status ∈ shown turnId e, status.isTerminalStatus = true) ∧
      (ShowsTerminal (({} : Recording collation).run turnId events).feed turnId →
        ShowsTerminal (({} : Recording collation).run turnId (events ++ later)).feed turnId) := by
  have hkept : (({} : Recording collation).run turnId events).Kept turnId := (kept_initial turnId).run events
  refine ⟨outputs_terminal hkept h, ?_⟩
  intro hview
  rw [Recording.run, List.foldl_append]
  exact run_showsTerminal hkept h hview

def sampleShown (revision : Finite) (status : Status) : RuntimeEvent :=
  .executionProjectionChanged "thread" (some (sampleTurn "turn" "thread" status))
    (.projectionSnapshot none revision none [] false (sampleState status))

def sampleSettled : List (Finite × RuntimeEvent) :=
  [(0, sampleRead 0), (0, .turnSettled "thread" "turn" .completed)]

theorem settled_turns_stay_sample :
    (({} : Recording .codePoint).run "turn" sampleSettled).since = some [] ∧
      ∀ e ∈ (({} : Recording .codePoint).run "turn" sampleSettled).feed.outputs [(0, sampleShown 1 .running)],
        ∀ status ∈ shown "turn" e, status.isTerminalStatus = true := by
  have hsince : (({} : Recording .codePoint).run "turn" sampleSettled).since = some [] := by
    decide +kernel
  exact ⟨hsince,
    (settled_turns_stay sampleSettled [(0, sampleShown 1 .running)] ⟨⟨[], hsince, by decide⟩, trivial⟩).1⟩

def sampleReselected (threadId : String) : RuntimeEvent :=
  .selectionLoaded { sampleSelection [] [] with thread := sampleThread threadId }

/-- A delayed start shows the settled turn running; and what only a projection shows is not recorded. -/
theorem settled_turn_reopens : (({} : Feed .codePoint).outputs
        (sampleSettled ++ [(0, sampleReselected "other"), (0, sampleReselected "thread"),
          (0, .turnStarted "thread" (sampleTurn "turn" "thread" .running))])).map (shown "turn") =
      [[.running], [.completed], [], [], [.running]] ∧
    (({} : Feed .codePoint).outputs
        [(0, sampleRead 0), (0, sampleShown 1 .completed), (0, sampleShown 2 .running)]).map (shown "turn") =
      [[.running], [.completed], [.running]] := by
  constructor
  · decide +kernel
  · decide +kernel

end Rika.ThreadViewFeed
