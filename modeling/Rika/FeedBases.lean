import Rika.FeedKnown

namespace Rika.ThreadViewFeed

open ThreadView Selection Accumulator

variable {collation : Collation}

/-- A turn at revision 0 in the window is not known at another revision, nor the other way round. -/
def StartsAtKnown (feed : Feed collation) (threadId turnId : String) : Prop :=
  ∀ view, feed.current = some view → threadId = view.header.thread.id → feed.snapshotRequired = false →
    if view.header.hasNewer then
      ∀ existing, view.turn turnId = some existing → existing.projectionRevision = 0
    else
      (∀ existing, view.turn turnId = some existing → existing.projectionRevision ≤ 0) →
        ∀ known, feed.knownProjectionRevisions.get turnId = some known → known = 0

/-- A loaded selection is no older than what is known of its turns, and a turn enters the window at its known revision.
-/
def Fresh (feed : Feed collation) : RuntimeEvent → Prop
  | .selectionLoaded loaded =>
    feed.knownThreadId = some loaded.thread.id →
      ∀ entry ∈ (fromSelection collation loaded (feed.selectionRevision loaded)).turns,
        ∀ known, feed.knownProjectionRevisions.get entry.turn.id = some known → known ≤ entry.projectionRevision
  | .turnStarted threadId turn =>
    (∀ view, feed.current = some view → view.turn turn.id = none) → StartsAtKnown feed threadId turn.id
  | .queueUpdated threadId (.promoted turn) => StartsAtKnown feed threadId turn.id
  | _ => True

variable {feed : Feed collation}

variable {view : View collation} {turnId : String} {change : ProjectionChange}

theorem hydrate_eq_ok {snapshot : ThreadViewSnapshot}
    (h : View.hydrate collation snapshot = .ok view) : Valid snapshot ∧ view.acc = hydrated snapshot := by
  revert h
  rw [View.hydrate]
  split
  · next acc hacc =>
      rintro ⟨⟩
      exact fromSnapshot_eq_ok.mp hacc
  · rintro ⟨⟩

theorem settled_turns (incoming : ThreadViewSnapshot) {entry : ThreadViewTurn}
    (h : entry ∈ (feed.settled incoming).turns) :
    ∃ entry' ∈ incoming.turns, entry'.turn.id = entry.turn.id ∧
      entry'.projectionRevision = entry.projectionRevision := by
  obtain ⟨entry', hentry', rfl⟩ := List.mem_map.mp h
  refine ⟨entry', hentry', ?_⟩
  split <;> exact ⟨rfl, rfl⟩

theorem selectionLoaded_based (loaded : SelectionLoaded) (hfresh : Fresh feed (.selectionLoaded loaded)) :
    Based (feed.selectionLoaded loaded).2 := by
  rw [Feed.selectionLoaded]
  rcases replace_cases feed (fromSelection collation loaded (feed.selectionRevision loaded)) with
    ⟨error, -, r, h⟩ | ⟨view, hview, h⟩
  · rw [h]
    exact .inl rfl
  · rw [h]
    right
    intro view' hview' turnId state hstate known hknown
    have hcurrent := (remember_current { feed with current := some view }
      (feed.settled (fromSelection collation loaded (feed.selectionRevision loaded)))).symm.trans hview'
    cases hcurrent
    obtain ⟨hvalid, hacc⟩ := hydrate_eq_ok hview
    rw [View.turn, hacc, hvalid.turn_eq_some] at hstate
    obtain ⟨entry, hentry, rfl, rfl⟩ := hstate
    refine rememberTurns_get _ hvalid.turns_nodup ?_ hentry hknown
    intro entry' hentry' known' hknown'
    obtain ⟨origin, horigin, hid, hrevision⟩ := settled_turns _ hentry'
    split at hknown'
    · next hthread =>
        rw [← hid] at hknown'
        exact hrevision ▸ hfresh hthread origin horigin known' hknown'
    · cases hknown'

theorem rememberProjection_based {revision : Finite} {usage : Usage.UsageState} (hfeed : Based feed)
    (hrevision : ∀ view, feed.snapshotRequired = false → feed.current = some view →
      ∀ state, view.turn turnId = some state → revision = state.projectionRevision) :
    Based (feed.rememberProjection turnId revision usage) := by
  rcases hrequired : feed.snapshotRequired with _ | _
  · have hbased := hfeed.resolve_left (by simp [hrequired])
    refine .inr fun view hview key state hstate known hknown => ?_
    rcases rememberProjection_get feed hknown with ⟨rfl, rfl⟩ | ⟨-, hget⟩
    · exact hrevision view hrequired hview state hstate
    · exact hbased view hview key state hstate known hget
  · exact .inl hrequired

theorem accepted_feed (turnId : String) (change : ProjectionChange) (answer : Answer collation) :
    (Feed.accepted turnId change answer).2.snapshotRequired = answer.2.snapshotRequired ∧
      (Feed.accepted turnId change answer).2.current = answer.2.current ∧
      (answer.1.any Feed.isResyncRequired = false →
        (Feed.accepted turnId change answer).2.knownProjectionRevisions =
          (answer.2.rememberProjection turnId change.revision change.state.usage).knownProjectionRevisions) := by
  rw [Feed.accepted]
  split
  · next h => exact ⟨rfl, rfl, fun h' => by rw [h] at h'; cases h'⟩
  · exact ⟨rfl, rfl, fun _ => rfl⟩

theorem foldl_projectedTurn {record : ThreadViewTurnRecord} (change : ProjectionChange) (key : String)
    (previous : Option ThreadViewTurnState) :
    ([Feed.projectedTurn record change].foldl (changedTurn key) previous).map (·.projectionRevision) =
      if record.id = key then some change.revision else previous.map (·.projectionRevision) := by
  rw [List.foldl_cons, List.foldl_nil]
  split
  · next h =>
      rw [Feed.projectedTurn, changedTurn_upsertTurn h]
      rfl
  · next h =>
      have hne : (Feed.projectedTurn record change).key ≠ key := h
      rw [changedTurn_of_ne hne]

theorem accepted_based {next : Feed.Change} (hfeed : Based feed)
    (hnext : (∀ view, feed.current = some view → view.turn turnId = none) ∧ next.turnChanges = [] ∨
      ∃ record : ThreadViewTurnRecord, record.id = turnId ∧
        next.turnChanges = [Feed.projectedTurn record change]) :
    Based (Feed.accepted turnId change (feed.nextPatch next)).2 := by
  obtain ⟨hrequired, hcurrent, hremembered⟩ := accepted_feed turnId change (feed.nextPatch next)
  rcases hfeed with hfeed | hfeed
  · exact .inl (hrequired.trans (nextPatch_required hfeed))
  · rcases nextPatch_cases feed next with h | ⟨h, hnone⟩ | ⟨view, view', hview, h, hquiet, hturn, -⟩
    · exact .inl (hrequired.trans h)
    · right
      intro view hview
      rw [hcurrent, h, hnone] at hview
      cases hview
    · right
      intro view'' hview'' key state hstate known hknown
      rw [hcurrent, h] at hview''
      cases hview''
      rw [hremembered hquiet] at hknown
      have hrevision := congrArg (Option.map (·.projectionRevision)) hstate
      rw [hturn] at hrevision
      rcases hnext with ⟨hnone, hnil⟩ | ⟨record, hid, hsingle⟩
      · rw [hnil, List.foldl_nil] at hrevision
        obtain ⟨state', hstate', hsame⟩ := Option.map_eq_some_iff.mp hrevision
        rcases rememberProjection_get (feed.nextPatch next).2 hknown with ⟨rfl, -⟩ | ⟨-, hget⟩
        · rw [hnone view hview] at hstate'
          cases hstate'
        · rw [nextPatch_known] at hget
          exact (hfeed view hview key state' hstate' known hget).trans hsame
      · rw [hsingle, foldl_projectedTurn, hid] at hrevision
        rcases rememberProjection_get (feed.nextPatch next).2 hknown with ⟨rfl, rfl⟩ | ⟨hkey, hget⟩
        · rw [if_pos rfl] at hrevision
          exact Option.some_inj.mp hrevision
        · rw [if_neg (Ne.symm hkey)] at hrevision
          obtain ⟨state', hstate', hsame⟩ := Option.map_eq_some_iff.mp hrevision
          rw [nextPatch_known] at hget
          exact (hfeed view hview key state' hstate' known hget).trans hsame

theorem projectionPatch_changes {now : Finite} {view : View collation} {turnId : String} {turn : Option Turn}
    {status : Status} {header : ThreadViewHeader} {change : ProjectionChange} {known : Option Finite}
    {position : Feed.ProjectionPosition} (hturn : ∀ t, turn = some t → t.id = turnId)
    (hposition : Feed.projectionPosition view (view.turn turnId) known turn change = some position) :
    view.turn turnId = none ∧
        (Feed.projectionPatch now view turnId turn status header change position).turnChanges = [] ∨
      ∃ record : ThreadViewTurnRecord, record.id = turnId ∧
        (Feed.projectionPatch now view turnId turn status header change position).turnChanges =
          [Feed.projectedTurn record change] := by
  unfold Feed.projectionPosition at hposition
  split at hposition
  · next existing hexisting =>
      cases hposition
      right
      cases turn with
      | none => exact ⟨{ existing.turn with status := status, updatedAt := now }, view.turn_id hexisting, rfl⟩
      | some t => exact ⟨{ turnRecord t with status := status, updatedAt := t.updatedAt }, hturn t rfl, rfl⟩
  · next hnone =>
      split at hposition
      · split at hposition
        · cases hposition
          exact .inl ⟨hnone, rfl⟩
        · cases hposition
      · split at hposition
        · cases hposition
          exact .inr ⟨{ turnRecord _ with status := status }, hturn _ rfl, rfl⟩
        · cases hposition

theorem projectionTurnId_turn {turn : Option Turn}
    (h : Feed.projectionTurnId turn change = some turnId) (t : Turn) (ht : turn = some t) : t.id = turnId := by
  subst ht
  simpa [Feed.projectionTurnId] using h

section

variable (hfeed : Based feed)

include hfeed

theorem projectionChanged_based (now : Finite) (threadId : String) (turn : Option Turn)
    (change : ProjectionChange) : Based (feed.projectionChanged now threadId turn change).2 := by
  rw [Feed.projectionChanged]
  split
  · exact hfeed
  · next view hview =>
      split
      · exact hfeed
      · split
        · exact .inl rfl
        · split
          · exact .inl rfl
          · next turnId hturnId =>
              rw [Feed.projectTurn]
              split
              · exact .inl rfl
              · next position hposition =>
                  split
                  · refine accepted_based hfeed ?_
                    refine (projectionPatch_changes (projectionTurnId_turn hturnId) hposition).imp_left ?_
                    refine And.imp_left fun hnone view' hview' => ?_
                    rw [hview] at hview'
                    cases hview'
                    exact hnone
                  · exact .inl rfl

theorem startedTurn_based {threadId : String} {turn : Turn}
    (hfresh : StartsAtKnown feed threadId turn.id) (hview : feed.current = some view)
    (hthread : threadId = view.header.thread.id) (hnewer : view.header.hasNewer = false)
    (header : Option ThreadViewHeader) :
    Based (feed.nextPatch { feed.startedTurn turn with header := header }).2 := by
  rcases hrequired : feed.snapshotRequired with _ | _
  · refine nextPatch_based hfeed (.inr ⟨_, rfl, ?_⟩)
    intro view' hview' herror known hknown
    rw [hview] at hview'
    cases hview'
    have hstarts := hfresh view hview hthread hrequired
    rw [hnewer] at hstarts
    exact hstarts (turnChangeError_upsertTurn herror).2 known hknown
  · exact .inl (nextPatch_required hrequired)

theorem turnStarted_based (threadId : String) (turn : Turn)
    (hfresh : Fresh feed (.turnStarted threadId turn)) : Based (feed.turnStarted threadId turn).2 := by
  rw [Feed.turnStarted]
  split
  · exact hfeed
  · next view hview =>
      split
      · exact hfeed
      · next hthread =>
          split
          · exact hfeed
          · next hnone =>
              have hnone' : view.turn turn.id = none := by simpa using hnone
              have hstarts := hfresh fun view' hview' => by
                rw [hview] at hview'
                cases hview'
                exact hnone'
              split
              · refine rememberProjection_based hfeed fun view' _ hview' state hstate => ?_
                rw [hview] at hview'
                cases hview'
                rw [hnone'] at hstate
                cases hstate
              · next hnewer =>
                  exact startedTurn_based hfeed hstarts hview (not_not.mp hthread) (by simpa using hnewer) _

theorem turnSettled_based (now : Finite) (threadId turnId : String)
    (status : TerminalStatus) : Based (feed.turnSettled now threadId turnId status).2 := by
  rw [Feed.turnSettled]
  split
  · exact hfeed
  · next view hview =>
      split
      · exact hfeed
      · dsimp only
        have hforgotten : Based
            { feed.rememberTerminal turnId status with
              knownProjectionRevisions := feed.knownProjectionRevisions.delete turnId
              knownUsage := feed.knownUsage.delete turnId } := by
          refine hfeed.imp_right fun h view hview key state hstate known hknown => ?_
          simp only [InsertionMap.get_delete] at hknown
          split at hknown
          · cases hknown
          · exact h view hview key state hstate known hknown
        split
        · exact hforgotten
        · next existing hexisting =>
            refine nextPatch_based hforgotten (.inr ⟨_, rfl, ?_⟩)
            intro _ _ _ known hknown
            simp only [InsertionMap.get_delete, view.turn_id hexisting, if_pos] at hknown
            cases hknown

theorem queueUpdated_based (threadId : String) (change : QueueChange)
    (hfresh : Fresh feed (.queueUpdated threadId change)) : Based (feed.queueUpdated threadId change).2 := by
  rw [Feed.queueUpdated]
  split
  · exact hfeed
  · next view hview =>
      split
      · exact hfeed
      · next hthread =>
          dsimp only
          split
          · next turn =>
              split
              · next hnewer =>
                  refine nextPatch_based (rememberProjection_based hfeed ?_) (.inl rfl)
                  intro view' hrequired hview' state hstate
                  rw [hview] at hview'
                  cases hview'
                  have hstarts := hfresh view hview (not_not.mp hthread) hrequired
                  rw [if_pos hnewer] at hstarts
                  exact (hstarts state hstate).symm
              · next hnewer =>
                  exact startedTurn_based hfeed hfresh hview (not_not.mp hthread) (by simpa using hnewer) _
          · exact nextPatch_based hfeed (.inl rfl)

theorem publish_based (now : Finite) {event : RuntimeEvent} (hfresh : Fresh feed event) :
    Based (feed.publish now event).2 := by
  cases event with
  | selectionLoaded loaded => exact selectionLoaded_based loaded hfresh
  | threadTitled threadId title =>
    simp only [Feed.publish, Feed.threadTitled]
    split
    · exact hfeed
    · split
      · exact hfeed
      · exact nextPatch_based hfeed (.inl rfl)
  | executionProjectionChanged threadId turn change => exact projectionChanged_based hfeed now threadId turn change
  | turnStarted threadId turn => exact turnStarted_based hfeed threadId turn hfresh
  | turnSettled threadId turnId status => exact turnSettled_based hfeed now threadId turnId status
  | queueUpdated threadId change => exact queueUpdated_based hfeed threadId change hfresh
  | executionProjectionResyncRequired threadId | threadViewResyncRequired threadId =>
    simp only [Feed.publish, Feed.resyncRequired]
    split
    · exact hfeed
    · split
      · exact hfeed
      · exact .inl rfl
  | executionModelPreviewChanged threadId turnId preview =>
    simp only [Feed.publish, Feed.executionModelPreviewChanged]
    split
    · exact hfeed
    · split <;> exact hfeed
  | notice notice => exact hfeed

end

/-! ### Projection patches -/

/-- A patch is folded in only at its base; on another base the feed asks for a resync, or already has. -/
def OnBase (feed : Feed collation) (now : Finite) (event : RuntimeEvent) : Prop :=
  ∀ threadId turn baseRevision revision checkpoint upsert remove state,
    event = .executionProjectionChanged threadId turn
      (.projectionPatch baseRevision revision checkpoint upsert remove state) →
    ∀ view turnId existing, feed.current = some view → threadId = view.header.thread.id →
      Feed.projectionTurnId turn (.projectionPatch baseRevision revision checkpoint upsert remove state) =
        some turnId →
      view.turn turnId = some existing →
      (∀ patch, .threadViewPatch patch ∈ (feed.publish now event).1 →
        existing.projectionRevision = baseRevision) ∧
      (existing.projectionRevision ≠ baseRevision → feed.snapshotRequired = true ∨
        ∃ error, .resyncRequired error ∈ (feed.publish now event).1)

theorem onBase_of_based (hfeed : Based feed) (now : Finite) (event : RuntimeEvent) : OnBase feed now event := by
  intro threadId turn baseRevision revision checkpoint upsert remove state hevent view turnId existing hview
    hthread hturnId hexisting
  subst hevent
  rcases hfeed with hrequired | hbased
  · refine ⟨fun patch hpatch => ?_, fun _ => .inl hrequired⟩
    have houtcome := publish_outcome feed now (.executionProjectionChanged threadId turn
      (.projectionPatch baseRevision revision checkpoint upsert remove state))
    generalize feed.publish now _ = answer at houtcome hpatch
    cases houtcome with
    | quiet hout _ _ => exact absurd (hout _ hpatch) (by simp [isViewEvent])
    | resync _ _ _ => simp at hpatch
    | lost _ _ _ => simp at hpatch
    | loaded _ _ _ => simp at hpatch
    | patched _ hnot _ _ _ => exact absurd (hrequired.symm.trans hnot) (by simp)
  · have hknown : feed.knownRevision turnId (view.turn turnId) = some existing.projectionRevision := by
      rw [Feed.knownRevision, hexisting]
      cases hget : feed.knownProjectionRevisions.get turnId with
      | none => rfl
      | some known => rw [hbased view hview turnId existing hexisting known hget]; rfl
    have hposition := fun known change => show Feed.projectionPosition view (view.turn turnId) known turn change =
      some (.inWindow existing) by rw [hexisting]; rfl
    simp only [Feed.publish, Feed.projectionChanged, hview, hthread, ne_eq, not_true_eq_false, if_false, hturnId,
      Feed.projectTurn, hposition, hknown, Feed.revisionAccepted]
    by_cases hbase : existing.projectionRevision = baseRevision
    · exact ⟨fun _ _ => hbase, fun hne => absurd hbase hne⟩
    · simp only [hbase, Option.some_inj, decide_false, Bool.false_eq_true, if_false, ite_self]
      refine ⟨fun patch hpatch => ?_, fun _ => .inr ⟨_, by rw [Feed.requireSnapshot]; exact List.mem_singleton.mpr rfl⟩⟩
      simp [Feed.requireSnapshot, View.resync, resync] at hpatch

/-- `P` holds before every event of a run of the feed. -/
def Throughout (P : Feed collation → Finite → RuntimeEvent → Prop) :
    Feed collation → List (Finite × RuntimeEvent) → Prop
  | _, [] => True
  | feed, (now, event) :: events => P feed now event ∧ Throughout P (feed.publish now event).2 events

theorem throughout_onBase (hfeed : Based feed) {events : List (Finite × RuntimeEvent)}
    (hfresh : Throughout (fun feed _ event => Fresh feed event) feed events) : Throughout OnBase feed events := by
  induction events generalizing feed with
  | nil => trivial
  | cons event events ih =>
    exact ⟨onBase_of_based hfeed event.1 event.2, ih (publish_based hfeed event.1 hfresh.1) hfresh.2⟩

/-- In every run whose events keep the known revisions and the view together,
projection patches are folded in on their own base only. -/
theorem patches_on_base {events : List (Finite × RuntimeEvent)}
    (hfresh : Throughout (fun feed _ event => Fresh feed event) ({} : Feed collation) events) :
    Throughout OnBase ({} : Feed collation) events :=
  throughout_onBase (.inr (by rintro view ⟨⟩)) hfresh

section

def sampleState (status : Status) : ProjectionState := ⟨status, none, Usage.emptyUsageState, ⟨none, none⟩⟩

def sampleRead (projectionRevision : Finite) : RuntimeEvent :=
  let turn := sampleTurn "turn" "thread" .running
  .selectionLoaded
    (sampleSelection [⟨turn, promptUnit "turn" "prompt", projectionRevision, sampleState .running⟩] [])

def sampleProjection (baseRevision revision : Finite) : RuntimeEvent :=
  .executionProjectionChanged "thread" (some (sampleTurn "turn" "thread" .running))
    (.projectionPatch baseRevision revision ⟨"", ""⟩ [] [] (sampleState .running))

theorem patches_on_base_sample : Throughout OnBase ({} : Feed .codePoint)
      [(0, sampleRead 0), (0, sampleProjection 0 1), (0, sampleProjection 1 2)] :=
  patches_on_base ⟨by rintro ⟨⟩, trivial, trivial, trivial⟩

/-- A repository read older than the projections already folded in: the patch
that follows the known revision is folded onto the older view. -/
theorem stale_read_off_base : ¬ Throughout OnBase ({} : Feed .codePoint)
      [(0, sampleRead 0), (0, sampleProjection 0 1), (0, sampleRead 0), (0, sampleProjection 1 2)] := by
  rintro ⟨-, -, -, h, -⟩
  have hbase := (h "thread" _ 1 2 ⟨"", ""⟩ [] [] (sampleState .running) rfl _ "turn" _ rfl rfl rfl rfl).1 _
    (List.mem_singleton.mpr rfl)
  exact absurd hbase (by decide)

end

end Rika.ThreadViewFeed
