import Rika.ConnectionOrder
import Rika.ConnectionFencing

namespace Rika

open Projection Fold

namespace ThreadClient

open Lines

variable {client : ThreadClient} {targetForThread : ThreadMetadata → Option Target}

/-- The selection a call belongs to is over: another thread is selected, or another
child was opened or left. -/
def Continuation.OfEarlier (client : ThreadClient) (continuation : Continuation) : Prop :=
  (∃ epoch, continuation.epoch = some epoch ∧ epoch ≠ client.current.selectionEpoch) ∨
    ∃ openSerial, continuation.openSerial = some openSerial ∧ openSerial ≠ client.childOpenSerial

/-- The answer of a call, or what a connection brings, of an earlier selection. -/
def Stale (client : ThreadClient) : Input → Prop
  | .event fiber _ | .status fiber _ | .failed fiber _ | .ended fiber =>
    ∀ connection, client.fibers[fiber]? = some connection → connection.epoch ≠ client.current.selectionEpoch
  | .resume index _ => ∀ continuation, client.pending[index]? = some continuation → continuation.OfEarlier client
  | _ => False

theorem current_endFiber (phase : FiberPhase) (fiber : Nat) :
    (client.endFiber phase fiber).current = client.current := by
  rw [endFiber]
  split <;> rfl

theorem current_foldl_endFiber (fibers : List Nat) (client : ThreadClient) :
    (fibers.foldl (fun client fiber => client.endFiber .interrupted fiber) client).current = client.current := by
  induction fibers generalizing client with
  | nil => rfl
  | cons fiber fibers ih =>
    rw [List.foldl_cons, ih]
    exact current_endFiber .interrupted fiber

theorem observeEvent_of_stale {event : ConnectionEvent} {epoch : Nat} (h : epoch ≠ client.current.selectionEpoch) :
    client.observeEvent event epoch = client := by
  rw [observeEvent, if_pos (.inr h)]

/-- A call of an earlier selection that went on after its stop leaves what is shown. -/
theorem current_afterStop_of_stale {fibers : List Nat} {next : AfterStop}
    (hstale : (Continuation.stopping fibers next).OfEarlier client) (hstands : client.StillStands next) :
    (client.afterStop next).current = client.current := by
  cases next with
  | selectThread threadId epoch =>
    rw [afterStop]
    split <;> rfl
  | openChildSession sessionId root projection previous epoch openSerial =>
    rcases hstale with ⟨epoch', hepoch, hne⟩ | ⟨serial, hserial, hne⟩
    · cases hepoch
      exact absurd hstands.1 hne
    · cases hserial
      exact absurd hstands.2 hne
  | backToThread previous epoch openSerial =>
    rcases hstands with hlatest | hnone
    · rcases hstale with ⟨epoch', hepoch, hne⟩ | ⟨serial, hserial, hne⟩
      · cases hepoch
        exact absurd hlatest.1 hne
      · cases hserial
        exact absurd hlatest.2 hne
    · rw [afterStop, finishBack]
      split
      · rfl
      · next root hroot => cases hnone.symm.trans hroot
  | dispose => exact current_foldl_endFiber _ client

theorem step_stale {input : Input} (hstale : client.Stale input) (horderly : client.Orderly input) :
    (step targetForThread client input).current = client.current := by
  cases input with
  | event fiber event =>
    rw [step]
    split
    · rfl
    · next connection hlive =>
        rw [observeEvent_of_stale (hstale connection (Option.filter_eq_some_iff.mp hlive).1)]
  | status fiber status =>
    rw [step]
    split
    · rfl
    · next connection hreads =>
        have hlive := (Option.filter_eq_some_iff.mp hreads).1
        rw [observeStatus, if_pos (.inr (hstale connection (Option.filter_eq_some_iff.mp hlive).1))]
  | failed fiber message =>
    rw [step]
    split
    · rfl
    · next connection hlive =>
        rw [connectionFailed, if_pos, current_endFiber]
        right
        rw [current_endFiber]
        exact hstale connection (Option.filter_eq_some_iff.mp hlive).1
  | ended fiber => exact current_endFiber .ended fiber
  | resume index answer =>
    rw [step]
    split
    · rfl
    · next continuation hindex =>
        have hearlier := hstale continuation hindex
        have hepoch : ∀ epoch, continuation.epoch = some epoch → continuation.openSerial = none →
            epoch ≠ client.current.selectionEpoch := by
          intro epoch hepoch hserial
          rcases hearlier with ⟨epoch', hepoch', hne⟩ | ⟨serial, hserial', -⟩
          · rw [hepoch, Option.some_inj] at hepoch'
            exact hepoch' ▸ hne
          · rw [hserial] at hserial'
            cases hserial'
        unfold resume
        split
        · next fibers next =>
            unfold interruptNext
            split
            · next hnil => exact current_afterStop_of_stale hearlier (horderly.stands index answer fibers next rfl hindex hnil)
            · exact current_endFiber .interrupted _
        · split <;> rfl
        · split <;> rfl
        · split <;> rfl
        · rfl
        · split
          · next hstands => exact absurd (stands_eq_true.mp hstands).2 (hepoch _ rfl rfl)
          · rfl
        · next sessionId root family familySerial epoch openSerial snapshot =>
            rw [continueOpenChild, if_pos]
            rw [openChildStands]
            rcases hearlier with ⟨epoch', hepoch', hne⟩ | ⟨serial, hserial, hne⟩
            · cases hepoch'
              simp [hne]
            · cases hserial
              simp [hne]
        · rw [finishLoadOlder, historyTarget, if_neg]
          exact fun hstands => hepoch _ rfl rfl hstands.1.symm
        · rfl
        · rw [finishLoadMore, if_pos (.inr (hepoch _ rfl rfl))]
        · rfl
        · rw [finishRefreshFamily, if_pos (.inr (hepoch _ rfl rfl))]
        · dsimp only
          split
          · next hstands => exact absurd (stands_eq_true.mp hstands).2 (hepoch _ rfl rfl)
          · rfl
        · rfl
        · rfl
  | _ => exact hstale.elim

theorem make_ordered : make.lines.Ordered [] where
  opened := rfl
  running := by rintro i connection ⟨⟩
  stopping := by rintro i connection ⟨⟩
  single := by rintro i j a b ⟨⟩
  focus := by rintro focused ⟨⟩
  epochs := by rintro continuation ⟨⟩
  serials := by rintro continuation ⟨⟩
  awaits := by rintro continuation ⟨⟩
  selecting := Nat.zero_le 1
  opening := Nat.zero_le 1

theorem run_ordered (h : client.lines.Ordered []) {inputs : List Input} (hinputs : .dispose ∉ inputs)
    (horderly : Throughout (step targetForThread) Orderly client inputs) :
    (run targetForThread client inputs).lines.Ordered [] := by
  induction inputs generalizing client with
  | nil => exact h
  | cons input inputs ih =>
    rw [List.mem_cons, not_or] at hinputs
    exact ih (step_ordered h (Ne.symm hinputs.1) horderly.1) hinputs.2 horderly.2

/-- A connection that is live belongs to the selection, or is next in line to be interrupted. -/
def OthersInterrupted (client : ThreadClient) : Prop :=
  ∀ (i : Nat) (connection : ConnectionFiber), client.fibers[i]? = some connection → connection.isLive = true →
    connection.phase = .running ∧ client.lines.Reaches connection ∨ client.lines.InLine i

theorem othersInterrupted_of_ordered (h : client.lines.Ordered []) : client.OthersInterrupted := by
  intro i connection hi hlive
  rw [ConnectionFiber.isLive, Bool.or_eq_true, decide_eq_true_eq, decide_eq_true_eq] at hlive
  rcases hlive with hrunning | hstop
  · exact .inl ⟨hrunning, (h.running i connection hi hrunning).2⟩
  · exact .inr ((h.stopping i connection hi hstop).resolve_right (by simp))

/-- When every step finds the selection as it was left, one connection of a session is live, and it alone changes what is
shown. -/
theorem connections_follow_selection (inputs : List Input) (hinputs : .dispose ∉ inputs)
    (h : Throughout (step targetForThread) Orderly make inputs) :
    (run targetForThread make inputs).lines.OneEach ∧ (run targetForThread make inputs).OthersInterrupted ∧
      ∀ before input after, inputs = before ++ input :: after → (run targetForThread make before).Stale input →
        (step targetForThread (run targetForThread make before) input).current =
          (run targetForThread make before).current := by
  have hordered := run_ordered make_ordered hinputs h
  refine ⟨hordered.single, othersInterrupted_of_ordered hordered, ?_⟩
  rintro before input after rfl hstale
  exact step_stale hstale (throughout_append h).2

theorem orderly_of_selects {index : Nat} {answer : Answer} {continuation : Continuation} (hfibers : client.fibers = [])
    (hindex : client.pending[index]? = some continuation) (hselects : continuation.selects = true)
    (hfamily : ∀ page rootSessionId, answer = .family page → client.AsksFamily rootSessionId continuation →
      page.rootSessionId = rootSessionId) : client.Orderly (.resume index answer) where
  stands := by
    rintro index' answer' fibers next ⟨⟩ hpending -
    cases hindex.symm.trans hpending
    cases next with
    | selectThread => trivial
    | _ => cases hselects
  reopened := by
    intro sessionId _ _ connection hmem
    rw [hfibers] at hmem
    cases hmem
  waited := by
    intro sessionId _ connection hmem
    rw [hfibers] at hmem
    cases hmem
  family := by
    rintro index' page continuation' rootSessionId ⟨⟩ hpending hasks
    cases hindex.symm.trans hpending
    exact hfamily page rootSessionId rfl hasks

theorem orderly_of_call {input : Input} (hresume : ∀ index answer, input ≠ .resume index answer)
    (hopens : ∀ sessionId, ¬ client.OpensChild sessionId input) : client.Orderly input where
  stands := fun index answer _ _ hinput => absurd hinput (hresume index answer)
  reopened := fun sessionId hchild => absurd hchild (hopens sessionId)
  waited := by
    rintro sessionId (⟨hchild, -⟩ | ⟨index, answer, hinput, -⟩)
    · exact absurd hchild (hopens sessionId)
    · exact absurd hinput (hresume index answer)
  family := fun index _ _ _ hinput => absurd hinput (hresume index _)

/-- A thread is selected, and another one after it. -/
theorem connections_follow_selection_sample :
    OthersInterrupted (run (fun _ => none) make (sampleSelect ++ [.selectThread "other"])) ∧
      (run (fun _ => none) make (sampleSelect ++ [.selectThread "other"])).fibers =
        [⟨"session", 1, .interrupted⟩] := by
  have horderly : Throughout (step fun _ => none) Orderly make (sampleSelect ++ [.selectThread "other"]) := by
    refine ⟨?_, ?_, ?_, ?_, ?_, ?_, ?_, ?_, trivial⟩
    · exact orderly_of_call (by rintro index answer ⟨⟩) fun sessionId => id
    · exact @orderly_of_selects _ _ _ (.selectMetadata "thread" 1) (by decide) (by decide) rfl
        (by rintro page root ⟨⟩)
    · exact @orderly_of_selects _ _ _ (.selectExecution "thread" 1 ⟨"thread", "Thread", .runner⟩) (by decide)
        (by decide) rfl (by rintro page root ⟨⟩)
    · exact @orderly_of_selects _ _ _ (.selectSession "thread" 1 ⟨"thread", "Thread", .runner⟩ ⟨0⟩) (by decide)
        (by decide) rfl (by rintro page root ⟨⟩)
    · exact @orderly_of_selects _ _ _ (.selectSnapshot "thread" 1 ⟨"thread", "Thread", .runner⟩ ⟨0⟩ "session") (by decide) (by decide)
        rfl (by rintro page root ⟨⟩)
    · refine @orderly_of_selects _ _ _ (.selectFamily "thread" 1 ⟨"thread", "Thread", .runner⟩ ⟨0⟩ "session" sampleSnapshot) (by decide)
        (by decide) rfl ?_
      rintro page root ⟨⟩ ⟨-, rfl⟩
      rfl
    · exact orderly_of_call (by rintro index answer ⟨⟩) fun sessionId => id
    · exact orderly_of_call (by rintro index answer ⟨⟩) fun sessionId => id
  obtain ⟨-, hinterrupted, -⟩ := @connections_follow_selection (fun _ => none)
    (sampleSelect ++ [.selectThread "other"]) (by simp [sampleSelect]) horderly
  exact ⟨hinterrupted, by decide⟩

def sampleChild (sessionId : String) : HostSessionSnapshot := ⟨⟨sessionId, none, none, none, []⟩, 0, [], ⟨none, [], none⟩⟩

def sampleRetained (sessionId : String) : RetainedSession := ⟨sessionId, "session", some "session", none, "run", 1⟩

def sampleOpened (inputs : List Input) : ThreadClient :=
  run (fun _ => none) make
    ([.selectThread "thread", .resume 0 (.metadata ⟨"thread", "Thread", .runner⟩), .resume 0 (.execution ⟨0⟩),
      .resume 0 (.session "session"), .resume 0 (.snapshot sampleSnapshot),
      .resume 0 (.family ⟨"session", 0, [sampleRetained "first", sampleRetained "second"], none⟩),
      .openChildSession "first", .resume 0 (.snapshot (sampleChild "first"))] ++ inputs)

/-- The second collaborator is opened, and another thread is selected before the first
one is left. -/
def sampleSelected : ThreadClient :=
  sampleOpened [.openChildSession "second", .resume 0 (.snapshot (sampleChild "second")), .selectThread "other"]

/-- A thread of the first collaborator's session is selected before its connection is
interrupted. -/
def sampleReselected : ThreadClient :=
  sampleOpened [.selectThread "third", .selectThread "other", .resume 1 (.metadata ⟨"other", "Other", .runner⟩),
    .resume 1 (.execution ⟨0⟩), .resume 1 (.session "first"), .resume 1 (.snapshot (sampleChild "first")),
    .resume 1 (.family ⟨"first", 0, [], none⟩)]

def sampleLeft : ThreadClient :=
  sampleOpened [.backToThread, .openChildSession "second", .resume 1 (.snapshot (sampleChild "second")),
    .resume 0 .stopped]

/-- A focused child is opened again, an earlier selection changes what is shown, or two connections run beside each
other. -/
theorem connections_cross_selections : ¬ (sampleOpened [.openChildSession "first"]).lines.OneEach ∧
      (sampleSelected.Stale (.resume 0 .stopped) ∧
        (step (fun _ => none) sampleSelected (.resume 0 .stopped)).current ≠ sampleSelected.current) ∧
      ¬ sampleReselected.lines.OneEach ∧ ¬ sampleLeft.OthersInterrupted := by
  refine ⟨?_, ⟨?_, ?_⟩, ?_, ?_⟩
  · intro h
    have hsame := h 1 2 ⟨"first", 1, .running⟩ ⟨"first", 1, .running⟩ (by decide) (by decide) rfl rfl rfl
    cases hsame
  · intro continuation hpending
    have hepoch : sampleSelected.pending[0]?.bind Continuation.epoch = some 1 := by decide
    rw [hpending] at hepoch
    exact .inl ⟨1, hepoch, by decide⟩
  · intro h
    have hshown := congrArg (fun state => state.projection.isSome) h
    revert hshown
    decide
  · intro h
    have hsame := h 1 2 ⟨"first", 1, .stopping⟩ ⟨"first", 3, .running⟩ (by decide) (by decide) rfl rfl rfl
    cases hsame
  · intro h
    rcases h 2 ⟨"second", 1, .running⟩ (by decide) rfl with ⟨-, -, hroot | hfocused⟩ | ⟨fibers, next, hmem, -⟩
    · obtain ⟨family, hfamily, hroot⟩ := hroot
      have hroot' : sampleLeft.lines.rootFamily.map (·.rootSessionId) = some "session" := by decide
      rw [hfamily, Option.map_some, Option.some_inj, hroot] at hroot'
      revert hroot'
      decide
    · revert hfocused
      decide
    · have hnone : sampleLeft.lines.pending = [] := by decide
      rw [hnone] at hmem
      cases hmem

end ThreadClient

end Rika
