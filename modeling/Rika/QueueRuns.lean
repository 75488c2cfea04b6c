import Rika.QueueTracking

namespace Rika.TerminalQueue

variable {Activity : Type} {model : Model Activity} {system : System Activity}

section Local

theorem confirmed_flatMap {queue : List QueueItem} {f : QueueItem → List QueueItem}
    (hconfirmed : ∀ item, item.provisional = false → f item = [item])
    (hprovisional : ∀ item, item.provisional = true → ∀ other ∈ f item, other.provisional = true) :
    confirmed (queue.flatMap f) = confirmed queue := by
  induction queue with
  | nil => rfl
  | cons item queue ih =>
    rw [List.flatMap_cons, confirmed_append, ih]
    cases hitem : item.provisional with
    | false =>
      rw [hconfirmed item hitem, confirmed_cons_of_confirmed hitem, confirmed_cons_of_confirmed hitem]
      rfl
    | true =>
      have hnone : confirmed (f item) = [] := by
        refine List.filter_eq_nil_iff.mpr fun other hother => ?_
        rw [hprovisional item hitem other hother]
        exact Bool.false_ne_true
      rw [hnone, confirmed_cons_of_provisional hitem, List.nil_append]

theorem confirmed_append_provisional (queue : List QueueItem) {others : List QueueItem}
    (h : ∀ other ∈ others, other.provisional = true) : confirmed (queue ++ others) = confirmed queue := by
  have hnone : confirmed others = [] := by
    refine List.filter_eq_nil_iff.mpr fun other hother => ?_
    rw [h other hother]
    exact Bool.false_ne_true
  rw [confirmed_append, hnone, List.append_nil]

theorem confirmed_submitQueued (submissionId prompt : String) :
    confirmed (submitQueued model submissionId prompt).queue = confirmed model.queue := by
  refine confirmed_append_provisional _ fun other hother => ?_
  rw [List.mem_singleton.mp hother]

theorem confirmed_promptAdmitted (submissionId : Option String) (turnId : String) (status : Option AdmissionStatus)
    (prompt : Option String) : confirmed (promptAdmitted model submissionId turnId status prompt).queue = confirmed model.queue := by
  have hitems : confirmed (model.queue.flatMap (admittedQueueItem submissionId turnId status)) = confirmed model.queue := by
    refine confirmed_flatMap (fun item hitem => ?_) fun item hitem other hother => ?_
    · rw [admittedQueueItem, hitem, Bool.not_false, Bool.or_true, if_pos rfl]
    · rw [admittedQueueItem] at hother
      split at hother
      · rw [List.mem_singleton.mp hother]
        exact hitem
      · split at hother
        · rw [List.mem_singleton.mp hother]
          exact hitem
        · cases hother
  rw [promptAdmitted]
  unfold admittedQueue
  cases prompt with
  | none => exact hitems
  | some prompt =>
    dsimp only
    split
    · exact hitems
    · refine (confirmed_append_provisional _ fun other hother => ?_).trans hitems
      rw [List.mem_singleton.mp hother]

theorem confirmed_dropProvisionalQueueItem (submissionId : Option String) :
    confirmed (dropProvisionalQueueItem model submissionId).queue = confirmed model.queue := by
  cases submissionId with
  | none => rfl
  | some submissionId =>
    rw [dropProvisionalQueueItem]
    simp only [confirmed, List.filter_filter]
    refine List.filter_congr fun item _ => ?_
    cases item.provisional with
    | true => rfl
    | false => simp

theorem overlaid_eq (sending : Activity) (previous : Model Activity) :
    confirmed (overlayPendingSubmissions model sending previous).queue = confirmed model.queue ∧
      (overlayPendingSubmissions model sending previous).queueThreadId = model.queueThreadId ∧
      (overlayPendingSubmissions model sending previous).queueRevision = model.queueRevision := by
  have hqueue : confirmed (model.queue ++ previous.queue.filter fun item => item.provisional && !holds model.queue item.id) =
      confirmed model.queue := by
    refine confirmed_append_provisional _ fun other hother => ?_
    exact (Bool.and_eq_true_iff.mp (List.mem_filter.mp hother).2).1
  rw [overlayPendingSubmissions]
  dsimp only
  split
  · exact ⟨hqueue, rfl, rfl⟩
  · exact ⟨hqueue, rfl, rfl⟩

theorem exitEditWhenRemoved_eq (queue : List QueueItem) :
    (exitEditWhenRemoved model queue).queueThreadId = model.queueThreadId := by
  rw [exitEditWhenRemoved]
  split
  · rfl
  · split <;> rfl

end Local

section Steps

/-- The server's changes were possible, and the model's revision is one of them. -/
structure System.Sound (system : System Activity) : Prop where
  possible : ∀ threadId, Possible (system.histories threadId)
  known : ∀ threadId revision, system.model.queueThreadId = some threadId → system.model.queueRevision = some revision →
    revision ≤ (system.histories threadId).length

theorem applyChange_tracks {change : ServerChange} {server : List QueueItem} (hqueue : confirmed model.queue = server)
    (hdistinct : Distinct server) (hpossible : change.isPossible server = true) :
    (applyChange model change.delta).resync = false ∧
      (confirmed (applyChange model change.delta).queue = change.apply server ↔ lands model.queue change = true) := by
  cases change with
  | added item place positioned =>
    rw [ServerChange.isPossible, Bool.and_eq_true, Bool.and_eq_true, Bool.not_eq_true', Bool.not_eq_true',
      decide_eq_true_eq] at hpossible
    exact applyAdded_tracks hqueue hpossible.1.1 hpossible.1.2 hpossible.2
  | updated item =>
    rw [ServerChange.isPossible, Bool.and_eq_true, Bool.not_eq_true'] at hpossible
    exact applyUpdated_tracks hqueue hdistinct.ids hpossible.1 hpossible.2
  | removed turnId => exact applyRemoved_tracks hqueue hdistinct.ids hpossible

theorem same_tracks {changed : Model Activity} (hsound : system.Sound) (htracks : Tracks system)
    (hqueue : confirmed changed.queue = confirmed system.model.queue)
    (hthread : changed.queueThreadId = system.model.queueThreadId)
    (hrevision : changed.queueRevision = system.model.queueRevision) :
    System.Sound { system with model := changed } ∧ Tracks { system with model := changed } := by
  refine ⟨⟨hsound.possible, fun threadId revision hthreadId hqueueRevision => ?_⟩, fun threadId revision hthreadId hqueueRevision => ?_⟩
  · exact hsound.known threadId revision (hthread.symm.trans hthreadId) (hrevision.symm.trans hqueueRevision)
  · exact hqueue.trans (htracks threadId revision (hthread.symm.trans hthreadId) (hrevision.symm.trans hqueueRevision))

theorem reset_tracks (hsound : system.Sound) (htracks : Tracks system) (threadId : String) (revision : Nat) :
    System.Sound { system with model := reset system threadId revision } ∧
      Tracks { system with model := reset system threadId revision } := by
  rw [reset]
  split
  · next hle =>
      refine ⟨⟨hsound.possible, fun other known hother hknown => ?_⟩, fun other known hother hknown => ?_⟩
      · cases hother
        cases hknown
        exact hle
      · cases hother
        cases hknown
        exact confirmed_of_distinct (distinct_queueAt (hsound.possible threadId) revision)
  · exact ⟨hsound, htracks⟩

theorem applyQueueDelta_same {threadId : String} {index : Nat} {change : QueueChange} {queuedCount : Option Nat}
    (h : isNext model threadId index = false) : (applyQueueDelta model threadId (index + 1) change queuedCount).model = model := by
  rw [applyQueueDelta]
  split
  · rfl
  · next hcurrent =>
      split
      · next queueThreadId queueRevision hthread hrevision =>
          split
          · rfl
          · split
            · rfl
            · next hthreadId hstale =>
                split
                · rfl
                · next hgap =>
                    have hall : model.currentThreadId.all (fun current => current = threadId) = true := by
                      cases hcurrentThread : model.currentThreadId with
                      | none => rfl
                      | some current =>
                        rw [hcurrentThread] at hcurrent
                        simpa using hcurrent
                    have hindex : queueRevision = index := by omega
                    rw [isNext, hall, hthread, hrevision, not_not.mp hthreadId, hindex] at h
                    simp at h
      · rfl

theorem applyQueueDelta_next {threadId : String} {index : Nat} {change : QueueChange} {queuedCount : Option Nat}
    (h : isNext model threadId index = true) (hresync : (applyChange model change).resync = false) :
    (applyQueueDelta model threadId (index + 1) change queuedCount).model.queue = (applyChange model change).queue ∧
      (applyQueueDelta model threadId (index + 1) change queuedCount).model.queueThreadId = some threadId ∧
      (applyQueueDelta model threadId (index + 1) change queuedCount).model.queueRevision = some (index + 1) := by
  rw [isNext, Bool.and_eq_true, Bool.and_eq_true, decide_eq_true_eq, decide_eq_true_eq] at h
  obtain ⟨⟨hcurrent, hthread⟩, hrevision⟩ := h
  have hnot : (model.currentThreadId.any fun current => decide (current ≠ threadId)) = false := by
    cases hcurrentThread : model.currentThreadId with
    | none => rfl
    | some current =>
      rw [hcurrentThread] at hcurrent
      simpa using hcurrent
  rw [applyQueueDelta, hnot, if_neg Bool.false_ne_true, hthread, hrevision]
  simp only [ne_eq, not_true_eq_false, if_false, hresync, Bool.false_eq_true]
  rw [if_neg (Nat.not_succ_le_self index)]
  exact ⟨rfl, (exitEditWhenRemoved_eq _).trans hthread, rfl⟩

theorem deliver_tracks (hsound : system.Sound) (htracks : Tracks system) (threadId : String) (index : Nat) (counted : Bool) :
    System.Sound { system with model := (deliver system threadId index counted).model } ∧
      (Tracks { system with model := (deliver system threadId index counted).model } ↔
        LandsNext system (.deliver threadId index counted)) := by
  rw [deliver]
  cases hchange : (system.histories threadId)[index]? with
  | none =>
    refine ⟨hsound, iff_of_true htracks fun _ change hmem => ?_⟩
    rw [hchange] at hmem
    cases hmem
  | some change =>
    simp only
    cases hnext : isNext system.model threadId index with
    | false =>
      rw [applyQueueDelta_same hnext]
      refine ⟨hsound, iff_of_true htracks fun htrue => ?_⟩
      rw [hnext] at htrue
      cases htrue
    | true =>
      have hnow := hnext
      rw [isNext, Bool.and_eq_true, Bool.and_eq_true, decide_eq_true_eq, decide_eq_true_eq] at hnow
      have hdistinct := distinct_queueAt (hsound.possible threadId) index
      obtain ⟨hresync, hlands⟩ := applyChange_tracks (htracks threadId index hnow.1.2 hnow.2) hdistinct
        (hsound.possible threadId index change hchange)
      generalize hcount : (if counted = true then some (queueAt (system.histories threadId) (index + 1)).length else none) =
        queuedCount
      obtain ⟨hqueue, hthread, hrevision⟩ := @applyQueueDelta_next _ system.model threadId index change.delta queuedCount hnext hresync
      refine ⟨⟨hsound.possible, fun other revision hother hknown => ?_⟩, fun htracked => ?_, fun hlandsNext => ?_⟩
      · cases hthread.symm.trans hother
        cases hrevision.symm.trans hknown
        exact (List.getElem?_eq_some_iff.mp hchange).1
      · intro _ other hother
        rw [hchange] at hother
        cases hother
        have hat := htracked threadId (index + 1) hthread hrevision
        rw [queueAt_succ hchange] at hat
        exact hlands.mp ((congrArg confirmed hqueue).symm.trans hat)
      · intro other revision hother hknown
        cases hthread.symm.trans hother
        cases hrevision.symm.trans hknown
        rw [queueAt_succ hchange]
        exact (congrArg confirmed hqueue).trans (hlands.mpr (hlandsNext hnext change (by rw [hchange]; rfl)))

theorem change_tracks {histories : String → History} {threadId : String} {change : ServerChange} (hsound : system.Sound)
    (htracks : Tracks system) (hself : histories threadId = system.histories threadId ++ [change])
    (hothers : ∀ other, other ≠ threadId → histories other = system.histories other)
    (hpossible : change.isPossible (queueAt (system.histories threadId) (system.histories threadId).length) = true) :
    System.Sound { system with histories } ∧ Tracks { system with histories } := by
  refine ⟨⟨fun other => ?_, fun other revision hother hknown => ?_⟩, fun other revision hother hknown => ?_⟩
  · show Possible (histories other)
    by_cases heq : other = threadId
    · rw [heq, hself]
      exact (hsound.possible threadId).concat hpossible
    · rw [hothers other heq]
      exact hsound.possible other
  · show revision ≤ (histories other).length
    have hle := hsound.known other revision hother hknown
    by_cases heq : other = threadId
    · rw [heq] at hle ⊢
      rw [hself, List.length_append]
      exact Nat.le_trans hle (Nat.le_add_right _ _)
    · rw [hothers other heq]
      exact hle
  · show confirmed system.model.queue = queueAt (histories other) revision
    have hle := hsound.known other revision hother hknown
    rw [htracks other revision hother hknown]
    by_cases heq : other = threadId
    · rw [heq] at hle ⊢
      rw [hself, queueAt_append hle]
    · rw [hothers other heq]

theorem step_tracks_iff (hsound : system.Sound) (htracks : Tracks system) (event : Event Activity) :
    (step system event).Sound ∧ (Tracks (step system event) ↔ LandsNext system event) := by
  cases event with
  | change threadId change =>
    rw [step]
    split
    · next hpossible =>
        have hchange := @change_tracks _ system (Function.update system.histories threadId (system.histories threadId ++ [change]))
          threadId change hsound htracks (Function.update_self _ _ _) (fun other hne => Function.update_of_ne hne _ _) hpossible
        exact ⟨hchange.1, iff_of_true hchange.2 trivial⟩
    · exact ⟨hsound, iff_of_true htracks trivial⟩
  | deliver threadId index counted => exact deliver_tracks hsound htracks threadId index counted
  | reset threadId revision =>
    have hreset := reset_tracks hsound htracks threadId revision
    exact ⟨hreset.1, iff_of_true hreset.2 trivial⟩
  | resetOverlaid threadId revision sending =>
    obtain ⟨hresetSound, hresetTracks⟩ := reset_tracks hsound htracks threadId revision
    obtain ⟨hqueue, hthread, hrevision⟩ := @overlaid_eq _ (reset system threadId revision) sending system.model
    have hsame := same_tracks hresetSound hresetTracks hqueue hthread hrevision
    exact ⟨hsame.1, iff_of_true hsame.2 trivial⟩
  | select threadId =>
    have hsame := @same_tracks _ system { system.model with currentThreadId := threadId } hsound htracks rfl rfl rfl
    exact ⟨hsame.1, iff_of_true hsame.2 trivial⟩
  | submit submissionId prompt =>
    have hsame := same_tracks hsound htracks (confirmed_submitQueued submissionId prompt) rfl rfl
    exact ⟨hsame.1, iff_of_true hsame.2 trivial⟩
  | promptAdmitted submissionId turnId status prompt =>
    have hsame := same_tracks hsound htracks (confirmed_promptAdmitted submissionId turnId status prompt) rfl rfl
    exact ⟨hsame.1, iff_of_true hsame.2 trivial⟩
  | reject submissionId =>
    have hthread : (dropProvisionalQueueItem system.model submissionId).queueThreadId = system.model.queueThreadId := by
      cases submissionId <;> rfl
    have hrevision : (dropProvisionalQueueItem system.model submissionId).queueRevision = system.model.queueRevision := by
      cases submissionId <;> rfl
    have hsame := same_tracks hsound htracks (confirmed_dropProvisionalQueueItem submissionId) hthread hrevision
    exact ⟨hsame.1, iff_of_true hsame.2 trivial⟩

end Steps

section Runs

theorem tracks_throughout (hsound : system.Sound) (htracks : Tracks system) (events : List (Event Activity)) :
    (∀ before, before <+: events → Tracks (before.foldl step system)) ↔ Fold.Throughout step LandsNext system events := by
  induction events generalizing system with
  | nil =>
    refine iff_of_true (fun before hbefore => ?_) trivial
    rw [List.prefix_nil.mp hbefore]
    exact htracks
  | cons event events ih =>
    obtain ⟨hstepSound, hstepTracks⟩ := step_tracks_iff hsound htracks event
    constructor
    · intro hall
      have hnext : Tracks (step system event) := hall [event] ⟨events, rfl⟩
      refine ⟨hstepTracks.mp hnext, (ih hstepSound hnext).mp fun before hbefore => ?_⟩
      exact hall (event :: before) (List.cons_prefix_cons.mpr ⟨rfl, hbefore⟩)
    · intro hthroughout before hbefore
      cases before with
      | nil => exact htracks
      | cons first before =>
        obtain ⟨rfl, hrest⟩ := List.cons_prefix_cons.mp hbefore
        exact (ih hstepSound (hstepTracks.mpr hthroughout.1)).mpr hthroughout.2 before hrest

/-- The confirmed items are the server's queue in every state exactly where every delta lands at the server's place. -/
theorem queue_tracked_iff (events : List (Event Activity)) :
    (∀ before, before <+: events → Tracks (run before)) ↔
      Fold.Throughout step LandsNext (System.start Activity) events := by
  refine tracks_throughout ⟨fun threadId index change hchange => ?_, fun threadId revision hthread => ?_⟩
    (fun threadId revision hthread => ?_) events
  · cases hchange
  · cases hthread
  · cases hthread

def sampleItem (id : String) : QueueItem := ⟨id, id, none, false⟩

def sampleEvents : List (Event Unit) :=
  [.change "thread" (.added (sampleItem "a") 0 false), .change "thread" (.added (sampleItem "b") 1 false),
    .reset "thread" 2, .promptAdmitted (some "submission") "t" (some .queued) (some "t"),
    .change "thread" (.added (sampleItem "t") 1 true)]

/-- The provisional row is confirmed where it stands, at the end, and the delta of the server asks for no resync. -/
theorem confirmed_in_place : (deliver (run sampleEvents) "thread" 2 true).resync = false ∧
      confirmed (run (sampleEvents ++ [.deliver "thread" 2 true])).model.queue = [sampleItem "a", sampleItem "b", sampleItem "t"] ∧
      queueAt ((run (sampleEvents ++ [.deliver "thread" 2 true])).histories "thread") 3 =
        [sampleItem "a", sampleItem "t", sampleItem "b"] ∧
      ¬ Tracks (run (sampleEvents ++ [.deliver "thread" 2 true])) := by
  have hconfirmed : confirmed (run (sampleEvents ++ [.deliver "thread" 2 true])).model.queue =
      [sampleItem "a", sampleItem "b", sampleItem "t"] := by decide +kernel
  have hserver : queueAt ((run (sampleEvents ++ [.deliver "thread" 2 true])).histories "thread") 3 =
      [sampleItem "a", sampleItem "t", sampleItem "b"] := by decide +kernel
  refine ⟨by decide +kernel, hconfirmed, hserver, fun htracks => ?_⟩
  have hqueue := htracks "thread" 3 (by decide +kernel) (by decide +kernel)
  rw [hconfirmed, hserver] at hqueue
  exact absurd hqueue (by decide +kernel)

end Runs

end Rika.TerminalQueue
