import Rika.ThreadViewFeed

namespace Rika.ThreadViewFeed

open ThreadView Selection Accumulator

variable {collation : Collation}

/-! ### What a published event can do -/

def isViewEvent : ClientEvent → Bool
  | .threadViewSnapshot _ | .threadViewPatch _ | .resyncRequired _ => true
  | .threadTitled _ _ | .executionModelPreviewChanged _ _ _ | .notice _ => false

/-- The answers of a feed that holds `current`: no view, a request for a resync, a selection, or a patch that its own
view accepts. -/
inductive Outcome (current : Option (View collation)) (required : Bool) (event : RuntimeEvent) :
    Answer collation → Prop
  | quiet {out feed} (hout : ∀ e ∈ out, isViewEvent e = false) (hcurrent : feed.current = current)
      (hrequired : feed.snapshotRequired = required) : Outcome current required event (out, feed)
  | resync {error feed} (hcurrent : feed.current = current) (hsome : current.isSome = true)
      (hrequired : feed.snapshotRequired = true) : Outcome current required event ([.resyncRequired error], feed)
  | lost {loaded error feed} (hevent : event = .selectionLoaded loaded) (hcurrent : feed.current = none)
      (hrequired : feed.snapshotRequired = true) : Outcome current required event ([.resyncRequired error], feed)
  | loaded {snapshot view feed} (hview : View.hydrate collation snapshot = .ok view)
      (hcurrent : feed.current = some view) (hrequired : feed.snapshotRequired = false) :
      Outcome current required event ([.threadViewSnapshot snapshot], feed)
  | patched {patch delta view view' feed} (hview : current = some view) (hnot : required = false)
      (happly : view.apply patch = (.ok delta, view')) (hcurrent : feed.current = some view')
      (hrequired : feed.snapshotRequired = false) : Outcome current required event ([.threadViewPatch patch], feed)

variable {view view' : View collation} {patch : ThreadViewPatch}

theorem View.apply_eq {result : Except ThreadViewApplyError ThreadViewDelta} (h : view.apply patch = (result, view')) :
    Accumulator.apply view.acc patch = some (result, view'.acc) := by
  revert h
  rw [View.apply]
  split
  · next result' acc happly =>
      rintro ⟨⟩
      exact happly
  · next happly => exact absurd happly (apply_ne_none view.consistent patch)

theorem View.apply_error {error : ThreadViewApplyError} (h : view.apply patch = (.error error, view')) : view' = view := by
  have happly := View.apply_eq h
  obtain ⟨acc, hacc⟩ := view
  obtain ⟨acc', hacc'⟩ := view'
  rcases apply_cases hacc patch with ⟨error', he⟩ | ⟨delta, a', he, -⟩
  · rw [he] at happly
    cases happly
    rfl
  · rw [he] at happly
    cases happly

variable (feed : Feed collation) {event : RuntimeEvent}

theorem patch_outcome (value : ThreadViewPatch) :
    Outcome feed.current feed.snapshotRequired event (feed.patch value) := by
  rw [Feed.patch]
  split
  · exact .quiet (by simp) rfl rfl
  · next view hview =>
      split
      · exact .quiet (by simp) rfl rfl
      · next hrequired =>
          split
          · next error view' happly =>
              refine .resync ?_ (by rw [hview]; rfl) rfl
              rw [View.apply_error happly, hview]
          · next delta view' happly =>
              have hnot : feed.snapshotRequired = false := by simpa using hrequired
              exact .patched hview hnot happly rfl hnot

theorem nextPatch_outcome (change : Feed.Change) :
    Outcome feed.current feed.snapshotRequired event (feed.nextPatch change) := by
  rw [Feed.nextPatch]
  split
  · exact .quiet (by simp) rfl rfl
  · split
    · exact .quiet (by simp) rfl rfl
    · exact patch_outcome feed _

theorem requireSnapshot_outcome (hview : feed.current = some view) :
    Outcome feed.current feed.snapshotRequired event (feed.requireSnapshot view) :=
  .resync rfl (by rw [hview]; rfl) rfl

theorem accepted_outcome {current : Option (View collation)} {required : Bool}
    {answer : Answer collation} (h : Outcome current required event answer) (turnId : String)
    (change : ProjectionChange) : Outcome current required event (Feed.accepted turnId change answer) := by
  rw [Feed.accepted]
  split
  · exact h
  · cases h with
    | quiet hout hcurrent hrequired => exact .quiet hout hcurrent hrequired
    | resync hcurrent hsome hrequired => exact .resync hcurrent hsome hrequired
    | lost hevent hcurrent hrequired => exact .lost hevent hcurrent hrequired
    | loaded hview hcurrent hrequired => exact .loaded hview hcurrent hrequired
    | patched hview hnot happly hcurrent hrequired => exact .patched hview hnot happly hcurrent hrequired

theorem projectTurn_outcome (now : Finite) (hview : feed.current = some view)
    (turn : Option Turn) (change : ProjectionChange) (turnId : String) :
    Outcome feed.current feed.snapshotRequired event (feed.projectTurn now view turn change turnId) := by
  rw [Feed.projectTurn]
  split
  · exact requireSnapshot_outcome feed hview
  · split
    · exact accepted_outcome (nextPatch_outcome feed _) turnId change
    · exact requireSnapshot_outcome feed hview

theorem projectionChanged_outcome (now : Finite) (threadId : String) (turn : Option Turn)
    (change : ProjectionChange) :
    Outcome feed.current feed.snapshotRequired event (feed.projectionChanged now threadId turn change) := by
  rw [Feed.projectionChanged]
  split
  · exact .quiet (by simp) rfl rfl
  · next view hview =>
      split
      · exact .quiet (by simp) rfl rfl
      · split
        · exact requireSnapshot_outcome feed hview
        · split
          · exact requireSnapshot_outcome feed hview
          · exact projectTurn_outcome feed now hview turn change _

theorem turnStarted_outcome (threadId : String) (turn : Turn) :
    Outcome feed.current feed.snapshotRequired event (feed.turnStarted threadId turn) := by
  rw [Feed.turnStarted]
  split
  · exact .quiet (by simp) rfl rfl
  · split
    · exact .quiet (by simp) rfl rfl
    · split
      · exact .quiet (by simp) rfl rfl
      · split
        · exact .quiet (by simp) rfl rfl
        · exact nextPatch_outcome feed _

theorem turnSettled_outcome (now : Finite) (threadId turnId : String) (status : TerminalStatus) :
    Outcome feed.current feed.snapshotRequired event (feed.turnSettled now threadId turnId status) := by
  rw [Feed.turnSettled]
  split
  · exact .quiet (by simp) rfl rfl
  · split
    · exact .quiet (by simp) rfl rfl
    · dsimp only
      split
      · exact .quiet (by simp) rfl rfl
      · exact nextPatch_outcome
          { feed.rememberTerminal turnId status with
            knownProjectionRevisions := feed.knownProjectionRevisions.delete turnId
            knownUsage := feed.knownUsage.delete turnId } _

theorem queueUpdated_outcome (threadId : String) (change : QueueChange) :
    Outcome feed.current feed.snapshotRequired event (feed.queueUpdated threadId change) := by
  rw [Feed.queueUpdated]
  split
  · exact .quiet (by simp) rfl rfl
  · split
    · exact .quiet (by simp) rfl rfl
    · dsimp only
      split
      · split
        · exact nextPatch_outcome (feed.rememberProjection _ 0 Usage.emptyUsageState) _
        · exact nextPatch_outcome feed _
      · exact nextPatch_outcome feed _

theorem threadTitled_outcome (threadId title : String) :
    Outcome feed.current feed.snapshotRequired event (feed.threadTitled threadId title) := by
  rw [Feed.threadTitled]
  split
  · exact .quiet (by simp [isViewEvent]) rfl rfl
  · split
    · exact .quiet (by simp [isViewEvent]) rfl rfl
    · exact nextPatch_outcome feed _

theorem resyncRequired_outcome (threadId : String) :
    Outcome feed.current feed.snapshotRequired event (feed.resyncRequired threadId) := by
  rw [Feed.resyncRequired]
  split
  · exact .quiet (by simp) rfl rfl
  · next view hview =>
      split
      · exact .quiet (by simp) rfl rfl
      · exact requireSnapshot_outcome feed hview

theorem rememberTurn_current (entry : ThreadViewTurn) : (feed.rememberTurn entry).current = feed.current := by
  simp only [Feed.rememberTurn]
  cases terminalStatus entry.turn.status with
  | none | some status =>
    simp only
    split
    · rfl
    · split <;> rfl

theorem rememberTurns_current (turns : List ThreadViewTurn) :
    (turns.foldl Feed.rememberTurn feed).current = feed.current := by
  induction turns generalizing feed with
  | nil => rfl
  | cons entry turns ih => rw [List.foldl_cons, ih, rememberTurn_current]

theorem remember_current (snapshot : ThreadViewSnapshot) : (feed.remember snapshot).current = feed.current := by
  rw [Feed.remember, rememberTurns_current]
  split <;> rfl

theorem replace_cases (incoming : ThreadViewSnapshot) :
    (∃ error, View.hydrate collation (feed.settled incoming) = .error error ∧
      ∃ r, feed.replace incoming =
        ([.resyncRequired r], { feed with current := none, snapshotRequired := true })) ∨
    ∃ view, View.hydrate collation (feed.settled incoming) = .ok view ∧
      feed.replace incoming = ([.threadViewSnapshot (feed.settled incoming)],
        { ({ feed with current := some view } : Feed collation).remember (feed.settled incoming) with
          snapshotRequired := false }) := by
  cases h : View.hydrate collation (feed.settled incoming) with
  | error error => exact .inl ⟨error, rfl, _, by simp only [Feed.replace, h]; rfl⟩
  | ok view => exact .inr ⟨view, rfl, by simp only [Feed.replace, h]⟩

theorem selectionLoaded_outcome (loaded : SelectionLoaded) :
    Outcome feed.current feed.snapshotRequired (.selectionLoaded loaded) (feed.selectionLoaded loaded) := by
  rw [Feed.selectionLoaded]
  rcases replace_cases feed (fromSelection collation loaded (feed.selectionRevision loaded)) with
    ⟨error, -, r, h⟩ | ⟨view, hview, h⟩
  · rw [h]
    exact .lost rfl rfl rfl
  · rw [h]
    exact .loaded hview (remember_current _ _) rfl

theorem publish_outcome (now : Finite) (event : RuntimeEvent) :
    Outcome feed.current feed.snapshotRequired event (feed.publish now event) := by
  cases event with
  | selectionLoaded loaded => exact selectionLoaded_outcome feed loaded
  | threadTitled threadId title => exact threadTitled_outcome feed threadId title
  | executionProjectionChanged threadId turn change =>
    exact projectionChanged_outcome feed now threadId turn change
  | turnStarted threadId turn => exact turnStarted_outcome feed threadId turn
  | turnSettled threadId turnId status => exact turnSettled_outcome feed now threadId turnId status
  | queueUpdated threadId change => exact queueUpdated_outcome feed threadId change
  | executionProjectionResyncRequired threadId | threadViewResyncRequired threadId reason =>
    exact resyncRequired_outcome feed threadId
  | executionModelPreviewChanged threadId turnId preview =>
    simp only [Feed.publish, Feed.executionModelPreviewChanged]
    split
    · exact .quiet (by simp) rfl rfl
    · split
      · exact .quiet (by simp [isViewEvent]) rfl rfl
      · exact .quiet (by simp) rfl rfl
  | notice notice => exact .quiet (by simp [isViewEvent]) rfl rfl

end Rika.ThreadViewFeed
