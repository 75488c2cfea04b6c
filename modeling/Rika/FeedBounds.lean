import Rika.FeedBases

namespace Rika

namespace ThreadView.limits

def patchItems : Nat := 120

def turnChanges : Nat := 6

end ThreadView.limits

namespace ThreadViewFeed

open ThreadView Selection Accumulator

def snapshotUnits : Nat := 120

def patchUnits : Nat := 128

def ProjectionChange.Bounded : ProjectionChange → Prop
  | .projectionSnapshot _ _ _ units _ _ => units.length ≤ snapshotUnits
  | .projectionPatch _ _ _ upsert remove _ => upsert.length ≤ patchUnits ∧ remove.length ≤ patchUnits

def RuntimeEvent.Bounded : RuntimeEvent → Prop
  | .executionProjectionChanged _ _ change => change.Bounded
  | _ => True

/-- The bounds that the schema of a view patch puts on its collections. -/
structure Encodable (patch : ThreadViewPatch) : Prop where
  upsert : patch.upsert.length ≤ limits.patchItems
  remove : patch.remove.length ≤ limits.patchItems
  turnChanges : patch.turnChanges.length ≤ limits.turnChanges

/-- The same bounds on what the feed makes a patch of. -/
structure Feed.Change.Fits (change : Feed.Change) : Prop where
  upsert : change.upsert.length ≤ limits.patchItems
  remove : change.remove.length ≤ limits.patchItems
  turnChanges : change.turnChanges.length ≤ limits.turnChanges

variable {collation : Collation}

/-- A change that neither carries more units than a view patch may, nor replaces a
turn from which more units have to go. -/
def Moderate (view : View collation) (turnId : String) : ProjectionChange → Prop
  | .projectionPatch _ _ _ upsert remove _ =>
    upsert.length ≤ limits.patchItems ∧ remove.length ≤ limits.patchItems
  | .projectionSnapshot _ _ _ units hasOlder _ =>
    hasOlder = true ∨
      (view.units turnId).countP (fun unit => unit.key ∉ units.map (·.key)) ≤ limits.patchItems

def Feed.Change.patchOf (view : View collation) (change : Feed.Change) : ThreadViewPatch where
  threadId := view.header.thread.id
  baseRevision := view.revision
  revision := view.revision + 1
  upsert := change.upsert
  remove := change.remove
  turnChanges := change.turnChanges
  header := change.header

def Feed.projectedStatus (feed : Feed collation) (turnId : String) (change : ProjectionChange) : Status :=
  ((feed.knownTerminalStatuses.get turnId).map (·.status)).getD change.state.status

/-- A projection change gets into the view: no snapshot is due, the revision follows what is known, and the view's tests
pass. -/
structure Taken (feed : Feed collation) (now : Finite) (threadId : String) (turn : Option Turn)
    (change : ProjectionChange) (view : View collation) (turnId : String) (position : Feed.ProjectionPosition) : Prop where
  current : feed.current = some view
  required : feed.snapshotRequired = false
  thread : threadId = view.header.thread.id
  checkpoint : requiresProjectionCheckpoint change change.changedUnits = false
  turned : Feed.projectionTurnId turn change = some turnId
  positioned : Feed.projectionPosition view (view.turn turnId) (feed.knownRevision turnId (view.turn turnId)) turn change =
    some position
  follows : Feed.revisionAccepted (feed.knownRevision turnId (view.turn turnId)) change = true
  passes : check view.acc (Feed.Change.patchOf view (Feed.projectionPatch now view turnId turn
    (feed.projectedStatus turnId change) (feed.projectedHeader view turnId turn change) change position)) = .ok ()

section Patches

def holdsTurns : ClientEvent → Bool
  | .threadViewSnapshot _ | .threadViewPatch _ => true
  | .resyncRequired _ | .threadTitled _ _ | .executionModelPreviewChanged _ _ _ | .notice _ => false

variable (feed : Feed collation)

variable {change : Feed.Change} {e other : ClientEvent} (hturns : holdsTurns e = true)

include hturns

theorem notMem_singleton (hother : holdsTurns other = false) : e ∉ [other] := by
  intro h
  rw [List.mem_singleton.mp h, hother] at hturns
  cases hturns

theorem nextPatch_emitted (h : e ∈ (feed.nextPatch change).1) :
    ∃ view, feed.current = some view ∧ e = .threadViewPatch (change.patchOf view) := by
  rw [Feed.nextPatch] at h
  split at h
  · cases h
  · next view hview =>
      split at h
      · cases h
      · rw [Feed.patch] at h
        split at h
        · cases h
        · split at h
          · cases h
          · split at h
            · exact absurd h (notMem_singleton hturns rfl)
            · exact ⟨view, hview, List.mem_singleton.mp h⟩

omit hturns

theorem mem_nextPatch {view : View collation} (hview : feed.current = some view) (hrequired : feed.snapshotRequired = false) :
    .threadViewPatch (change.patchOf view) ∈ (feed.nextPatch change).1 ↔
      check view.acc (change.patchOf view) = .ok () := by
  have hnext : feed.nextPatch change = feed.patch (change.patchOf view) := by
    simp only [Feed.nextPatch, hview, hrequired, Bool.false_eq_true, if_false]
    rfl
  rw [hnext]
  simp only [Feed.patch, hview, hrequired, Bool.false_eq_true, if_false]
  cases happly : view.apply (change.patchOf view) with
  | mk result view' =>
    have heq := View.apply_eq happly
    rw [Accumulator.apply] at heq
    cases hcheck : check view.acc (change.patchOf view) with
    | error error =>
      rw [hcheck] at heq
      obtain ⟨rfl, -⟩ := Prod.mk.inj (Option.some_inj.mp heq)
      refine iff_of_false ?_ ?_
      · intro hmem
        cases List.mem_singleton.mp hmem
      · intro hok
        cases hok
    | ok u =>
      rw [hcheck] at heq
      obtain ⟨p, -, hp⟩ := Option.bind_eq_some_iff.mp heq
      obtain ⟨rfl, -⟩ := Prod.mk.inj (Option.some_inj.mp hp)
      exact iff_of_true (List.mem_singleton_self _) rfl

end Patches

theorem startedTurn_fits (feed : Feed collation) (turn : Turn) : (feed.startedTurn turn).Fits :=
  ⟨(by decide : 1 ≤ limits.patchItems), (by decide : 0 ≤ limits.patchItems), (by decide : 1 ≤ limits.turnChanges)⟩

theorem turnChange_fits (change : ThreadViewTurnChange) : ({ turnChanges := [change] } : Feed.Change).Fits :=
  ⟨Nat.zero_le _, Nat.zero_le _, (by decide : 1 ≤ limits.turnChanges)⟩

theorem header_fits (header : ThreadViewHeader) : ({ header := some header } : Feed.Change).Fits :=
  ⟨Nat.zero_le _, Nat.zero_le _, Nat.zero_le _⟩

theorem Feed.Change.Fits.withHeader {change : Feed.Change} (h : change.Fits) (header : Option ThreadViewHeader) :
    { change with header := header }.Fits :=
  ⟨h.upsert, h.remove, h.turnChanges⟩

variable {turnId : String} {change : ProjectionChange} {feed : Feed collation} {view : View collation} {patch : ThreadViewPatch}
    {turn : Option Turn}

theorem mem_accepted {answer : Answer collation} {e : ClientEvent} :
    e ∈ (Feed.accepted turnId change answer).1 ↔ e ∈ answer.1 := by
  rw [Feed.accepted]
  split
  · rfl
  · rfl

section

variable {now : Finite} {threadId : String}

theorem projectionChanged_emitted {e : ClientEvent} (hturns : holdsTurns e = true)
    (h : e ∈ (feed.projectionChanged now threadId turn change).1) :
    ∃ view turnId position, Taken feed now threadId turn change view turnId position ∧
      e = .threadViewPatch (Feed.Change.patchOf view (Feed.projectionPatch now view turnId turn
        (feed.projectedStatus turnId change) (feed.projectedHeader view turnId turn change) change position)) := by
  have hresync : ∀ view : View collation, e ∉ (feed.requireSnapshot view).1 := fun _ => notMem_singleton hturns rfl
  rw [Feed.projectionChanged] at h
  split at h
  · cases h
  · next view hview =>
      split at h
      · cases h
      · next hthread =>
          split at h
          · exact absurd h (hresync _)
          · next hcheckpoint =>
              split at h
              · exact absurd h (hresync _)
              · next turnId hturnId =>
                  simp only [Feed.projectTurn] at h
                  split at h
                  · exact absurd h (hresync _)
                  · next position hposition =>
                      split at h
                      · next hrevision =>
                          have hmem := mem_accepted.mp h
                          have hrequired : feed.snapshotRequired = false := by
                            by_contra hnot
                            rw [Feed.nextPatch, hview] at hmem
                            simp only [Bool.not_eq_false] at hnot
                            simp [hnot] at hmem
                          obtain ⟨view', hview', hpatch⟩ := nextPatch_emitted feed hturns hmem
                          obtain rfl := Option.some_inj.mp (hview.symm.trans hview')
                          rw [hpatch] at hmem
                          exact ⟨view, turnId, position, ⟨hview, hrequired, not_not.mp hthread,
                            Bool.not_eq_true _ ▸ hcheckpoint, hturnId, hposition, hrevision,
                            (mem_nextPatch feed hview hrequired).mp hmem⟩, hpatch⟩
                      · exact absurd h (hresync _)

theorem mem_projectionChanged :
    .threadViewPatch patch ∈ (feed.projectionChanged now threadId turn change).1 ↔
      ∃ view turnId position, Taken feed now threadId turn change view turnId position ∧
        patch = Feed.Change.patchOf view (Feed.projectionPatch now view turnId turn
          (feed.projectedStatus turnId change) (feed.projectedHeader view turnId turn change) change position) := by
  constructor
  · intro h
    obtain ⟨view, turnId, position, htaken, hpatch⟩ := projectionChanged_emitted rfl h
    cases hpatch
    exact ⟨view, turnId, position, htaken, rfl⟩
  · rintro ⟨view, turnId, position, htaken, rfl⟩
    simp only [Feed.projectionChanged, htaken.current, htaken.thread, ne_eq, not_true_eq_false, if_false,
      htaken.checkpoint, Bool.false_eq_true, htaken.turned, Feed.projectTurn, htaken.positioned, htaken.follows, if_true]
    rw [mem_accepted]
    exact (mem_nextPatch feed htaken.current htaken.required).mpr htaken.passes

end

theorem length_removedKeys (view : View collation) (turnId : String) (change : ProjectionChange) :
    (Feed.removedKeys view turnId change).length =
      match change with
      | .projectionSnapshot _ _ _ units hasOlder _ =>
        if hasOlder then 0 else (view.units turnId).countP (fun unit => unit.key ∉ units.map (·.key))
      | .projectionPatch _ _ _ _ remove _ => remove.length := by
  cases change with
  | projectionSnapshot baseRevision revision checkpoint units hasOlder state =>
    rw [Feed.removedKeys]
    cases hasOlder with
    | true => rfl
    | false =>
      simp only [Bool.false_eq_true, if_false]
      rw [← List.countP_eq_length_filter, List.countP_map]
      rfl
  | projectionPatch baseRevision revision checkpoint upsert remove state => rfl

theorem moderate_iff (h : change.Bounded) : Moderate view turnId change ↔
      change.changedUnits.length ≤ limits.patchItems ∧
        (Feed.removedKeys view turnId change).length ≤ limits.patchItems := by
  rw [length_removedKeys]
  cases change with
  | projectionSnapshot baseRevision revision checkpoint units hasOlder state =>
    have hunits : units.length ≤ limits.patchItems := h
    cases hasOlder with
    | true => exact iff_of_true (.inl rfl) ⟨hunits, Nat.zero_le _⟩
    | false =>
      rw [Moderate]
      simp only [Bool.false_eq_true, false_or, if_false]
      exact ⟨fun hcount => ⟨hunits, hcount⟩, fun hboth => hboth.2⟩
  | projectionPatch baseRevision revision checkpoint upsert remove state => rfl

theorem projectionPatch_sizes (now : Finite) (status : Status) (header : ThreadViewHeader) {known : Option Finite}
    {position : Feed.ProjectionPosition}
    (hposition : Feed.projectionPosition view (view.turn turnId) known turn change = some position) :
    let patch := Feed.projectionPatch now view turnId turn status header change position
    patch.turnChanges.length ≤ limits.turnChanges ∧
      (position = .trackedOffWindow ∧ patch.upsert = [] ∧ patch.remove = [] ∨
        position ≠ .trackedOffWindow ∧ patch.upsert = change.changedUnits ∧
          patch.remove.length = (Feed.removedKeys view turnId change).length) := by
  intro patch
  cases position with
  | trackedOffWindow => exact ⟨Nat.zero_le _, .inl ⟨rfl, rfl, rfl⟩⟩
  | inWindow existing => exact ⟨(by decide : 1 ≤ limits.turnChanges), .inr ⟨nofun, rfl, rfl⟩⟩
  | insertable started =>
    refine ⟨(by decide : 1 ≤ limits.turnChanges), .inr ⟨nofun, rfl, ?_⟩⟩
    -- only a snapshot of a turn that the view does not have is inserted
    unfold Feed.projectionPosition at hposition
    split at hposition
    · cases hposition
    · next hnone =>
        split at hposition
        · split at hposition
          · cases hposition
          · cases hposition
        · split at hposition
          · have hunits : view.units turnId = [] := by
              rw [View.units, TurnIndex.units, Option.map_eq_none_iff.mp hnone]
            rw [Feed.removedKeys, hunits]
            split
            · rfl
            · rfl
          · cases hposition

section

variable (feed : Feed collation) (now : Finite)

theorem projectionChanged_encodable (threadId : String) (turn : Option Turn) (h : change.Bounded) :
    (∀ patch, .threadViewPatch patch ∈ (feed.projectionChanged now threadId turn change).1 → Encodable patch) ↔
      ∀ view turnId position, Taken feed now threadId turn change view turnId position →
        position ≠ .trackedOffWindow → Moderate view turnId change := by
  constructor
  · intro hencodable view turnId position htaken hposition
    have hpatch := hencodable _ (mem_projectionChanged.mpr ⟨view, turnId, position, htaken, rfl⟩)
    obtain ⟨-, ⟨hoff, -⟩ | ⟨-, hupsert, hremove⟩⟩ := projectionPatch_sizes now
      (feed.projectedStatus turnId change) (feed.projectedHeader view turnId turn change) htaken.positioned
    · exact absurd hoff hposition
    · rw [moderate_iff h, ← hupsert, ← hremove]
      exact ⟨hpatch.upsert, hpatch.remove⟩
  · intro hmoderate patch hpatch
    obtain ⟨view, turnId, position, htaken, rfl⟩ := mem_projectionChanged.mp hpatch
    obtain ⟨hchanges, ⟨-, hupsert, hremove⟩ | ⟨hposition, hupsert, hremove⟩⟩ := projectionPatch_sizes now
      (feed.projectedStatus turnId change) (feed.projectedHeader view turnId turn change) htaken.positioned
    · refine ⟨?_, ?_, hchanges⟩
      · rw [Feed.Change.patchOf, hupsert]
        exact Nat.zero_le _
      · rw [Feed.Change.patchOf, hremove]
        exact Nat.zero_le _
    · obtain ⟨hunits, hremoved⟩ := (moderate_iff h).mp (hmoderate view turnId position htaken hposition)
      refine ⟨?_, ?_, hchanges⟩
      · rw [Feed.Change.patchOf, hupsert]
        exact hunits
      · rw [Feed.Change.patchOf, hremove]
        exact hremoved

/-- An event other than a selection and a projection makes a patch of the header, of a turn that started, of both, or of
a turn that settled. -/
theorem publish_emitted {P : Feed.Change → Prop} (header : ∀ header, P { header := some header })
    (started : ∀ turn, P (feed.startedTurn turn))
    (withHeader : ∀ {change : Feed.Change} header, P change → P { change with header := some header })
    (settled : ∀ (state : ThreadViewTurnState) (status : TerminalStatus), state.turn.status = status.status →
      P { turnChanges := [.upsertTurn state] })
    {event : RuntimeEvent} (hselection : ∀ loaded, event ≠ .selectionLoaded loaded)
    (hprojection : ∀ threadId turn change, event ≠ .executionProjectionChanged threadId turn change)
    {e : ClientEvent} (hturns : holdsTurns e = true) (he : e ∈ (feed.publish now event).1) :
    ∃ (view : View collation) (change : Feed.Change), P change ∧ e = .threadViewPatch (change.patchOf view) := by
  obtain ⟨feed', change, hchange, hmem⟩ : ∃ (feed' : Feed collation) (change : Feed.Change), P change ∧
      e ∈ (feed'.nextPatch change).1 := by
    cases event with
    | selectionLoaded loaded => exact absurd rfl (hselection loaded)
    | executionProjectionChanged threadId turn change => exact absurd rfl (hprojection threadId turn change)
    | threadTitled threadId title =>
      rw [Feed.publish, Feed.threadTitled] at he
      split at he
      · exact absurd he (notMem_singleton hturns rfl)
      · split at he
        · exact absurd he (notMem_singleton hturns rfl)
        · exact ⟨_, _, header _, he⟩
    | turnStarted threadId turn =>
      rw [Feed.publish, Feed.turnStarted] at he
      split at he
      · cases he
      · split at he
        · cases he
        · split at he
          · cases he
          · split at he
            · cases he
            · exact ⟨_, _, started turn, he⟩
    | turnSettled threadId turnId status =>
      rw [Feed.publish, Feed.turnSettled] at he
      split at he
      · cases he
      · split at he
        · cases he
        · dsimp only at he
          split at he
          · cases he
          · exact ⟨_, _, settled _ status rfl, he⟩
    | queueUpdated threadId change =>
      rw [Feed.publish, Feed.queueUpdated] at he
      split at he
      · cases he
      · split at he
        · cases he
        · dsimp only at he
          split at he
          · split at he
            · exact ⟨_, _, header _, he⟩
            · exact ⟨_, _, withHeader _ (started _), he⟩
          · exact ⟨_, _, header _, he⟩
    | executionProjectionResyncRequired threadId | threadViewResyncRequired threadId reason =>
      rw [Feed.publish, Feed.resyncRequired] at he
      split at he
      · cases he
      · split at he
        · cases he
        · exact absurd he (notMem_singleton hturns rfl)
    | executionModelPreviewChanged threadId turnId preview =>
      rw [Feed.publish, Feed.executionModelPreviewChanged] at he
      split at he
      · cases he
      · split at he
        · exact absurd he (notMem_singleton hturns rfl)
        · cases he
    | notice notice => exact absurd he (notMem_singleton hturns rfl)
  obtain ⟨view, -, hpatch⟩ := nextPatch_emitted feed' hturns hmem
  exact ⟨view, change, hchange, hpatch⟩

theorem other_encodable {event : RuntimeEvent}
    (hother : ∀ threadId turn change, event ≠ .executionProjectionChanged threadId turn change)
    (hpatch : .threadViewPatch patch ∈ (feed.publish now event).1) : Encodable patch := by
  by_cases hselection : ∃ loaded, event = .selectionLoaded loaded
  · obtain ⟨loaded, rfl⟩ := hselection
    rw [Feed.publish, Feed.selectionLoaded] at hpatch
    rcases replace_cases feed (fromSelection collation loaded (feed.selectionRevision loaded)) with
      ⟨error, -, r, h⟩ | ⟨view, -, h⟩
    · rw [h] at hpatch
      cases List.mem_singleton.mp hpatch
    · rw [h] at hpatch
      cases List.mem_singleton.mp hpatch
  · obtain ⟨view, change, hfits, heq⟩ := publish_emitted feed now header_fits (startedTurn_fits feed)
      (fun header h => h.withHeader _) (fun state _ _ => turnChange_fits _) (not_exists.mp hselection) hother rfl hpatch
    cases heq
    exact ⟨hfits.upsert, hfits.remove, hfits.turnChanges⟩

/-- The patches of an event fit their schema just when every projection change that
gets into the view is moderate. -/
theorem patches_encodable (event : RuntimeEvent) (h : event.Bounded) :
    (∀ patch, .threadViewPatch patch ∈ (feed.publish now event).1 → Encodable patch) ↔
      ∀ threadId turn change, event = .executionProjectionChanged threadId turn change →
        ∀ view turnId position, Taken feed now threadId turn change view turnId position →
          position ≠ .trackedOffWindow → Moderate view turnId change := by
  cases event with
  | executionProjectionChanged threadId turn change =>
    have hchanged := projectionChanged_encodable feed now threadId turn h
    constructor
    · intro hencodable _ _ _ hevent
      cases hevent
      exact hchanged.mp hencodable
    · intro hmoderate
      exact hchanged.mpr (hmoderate threadId turn change rfl)
  | selectionLoaded | threadTitled | turnStarted | turnSettled | queueUpdated | executionProjectionResyncRequired
  | threadViewResyncRequired | executionModelPreviewChanged | notice =>
    refine iff_of_true (fun patch hpatch => other_encodable feed now ?_ hpatch) ?_
    · intro _ _ _ hevent
      cases hevent
    · intro _ _ _ hevent
      cases hevent

end

def sampleUnits (n : Nat) : List TranscriptUnit.Unit :=
  (List.range n).map fun i => { promptUnit "turn" "text" with key := String.singleton (Char.ofNat (i + 1)) }

def samplePatch (n : Nat) : RuntimeEvent :=
  .executionProjectionChanged "thread" (some (sampleTurn "turn" "thread" .running))
    (.projectionPatch 0 1 ⟨"", ""⟩ (sampleUnits n) [] (sampleState .running))

theorem patches_encodable_sample : (samplePatch 3).Bounded ∧
      ∀ patch, .threadViewPatch patch ∈
          ((({} : Feed .codePoint).publish 0 (sampleRead 0)).2.publish 0 (samplePatch 3)).1 → Encodable patch := by
  have hbounded : (samplePatch 3).Bounded := ⟨by decide, by decide⟩
  refine ⟨hbounded, (patches_encodable _ 0 (samplePatch 3) hbounded).mpr ?_⟩
  intro threadId turn change hevent view turnId position _ _
  cases hevent
  exact ⟨by decide, by decide⟩

def upserted : ClientEvent → Nat
  | .threadViewPatch patch => patch.upsert.length
  | _ => 0

/-- A patch of as many units as its schema allows gets into the view and out of it
as a view patch that cannot be encoded. -/
theorem large_patch_unencodable : (samplePatch 121).Bounded ∧
      ∃ patch, .threadViewPatch patch ∈
          ((({} : Feed .codePoint).publish 0 (sampleRead 0)).2.publish 0 (samplePatch 121)).1 ∧ ¬ Encodable patch := by
  refine ⟨⟨by decide, by decide⟩, ?_⟩
  have hlarge : (((({} : Feed .codePoint).publish 0 (sampleRead 0)).2.publish 0 (samplePatch 121)).1.any
      fun e => limits.patchItems < upserted e) = true := by
    decide +kernel
  obtain ⟨e, he, hlt⟩ := List.any_eq_true.mp hlarge
  have hlt := of_decide_eq_true hlt
  cases e with
  | threadViewPatch patch => exact ⟨patch, he, fun hpatch => absurd hpatch.upsert (Nat.not_le_of_lt hlt)⟩
  | threadViewSnapshot | resyncRequired | threadTitled | executionModelPreviewChanged | notice =>
    exact absurd hlt (Nat.not_lt_zero _)

end ThreadViewFeed

end Rika
