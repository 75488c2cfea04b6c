import Rika.FeedRecovery

namespace Rika.EventFeed

open Fold

def Consumer.taken : Consumer → List InteractiveEvent
  | .holding envelope => [envelope.event]
  | _ => []

/-- The events delivered that the consumer has yet to pass on, in the order they were
delivered. -/
def pending (feed : EventFeed) : List InteractiveEvent :=
  feed.recalled ++ feed.consumer.taken ++ feed.queue.map (·.event) ++ feed.newer

/-- The consumer is about to recover, and does not report that it lost critical events. -/
structure Recovers (feed : EventFeed) (overflow : State) : Prop where
  looking : feed.consumer = .looking
  overflowed : feed.overflow = some overflow
  queued : feed.queue ≠ []
  kept : (feed.drained overflow).criticalOverflowed = false

def SelectionLoad.Whole (loading : SelectionLoad) : Prop :=
  ∀ overflow, loading.overflow = some overflow → overflow.criticalOverflowed = false ∧ SettledLast loading.held

def Input.Abandons (input : Input) (loading : SelectionLoad) : Prop :=
  match input with
  | .finishSelection epoch => loading.epoch = epoch ∧ loading.committed = false
  | .beginSelection threadId _ => ¬(loading.epoch = 0 ∧ loading.threadId = threadId)
  | .clearSelection => True
  | _ => False

/-- The step remembers no event after a newer one of its kind, skips no critical event,
and lets no load go without its critical events. -/
structure Keeps (feed : EventFeed) (input : Input) : Prop where
  recalled : ∀ envelope overflow, input = .advance → feed.consumer = .holding envelope →
    feed.overflow = some overflow → Older feed.newer envelope.event
  received : ∀ envelope, input = .advance → feed.consumer = .holding envelope → feed.overflow = none →
    isCritical envelope.event = true → feed.receives envelope = true
  drained : ∀ overflow, input = .advance → feed.Recovers overflow →
    (∀ envelope ∈ feed.queue, Older feed.newer envelope.event) ∧ SettledLast feed.pending
  committed : ∀ epoch loading, input = .commitSelection epoch → feed.loading = some loading → loading.epoch = epoch →
    loading.Whole
  abandoned : ∀ loading, feed.loading = some loading → input.Abandons loading → critical loading.held = []

/-- What a load stores or remembers is what it was given. -/
structure SelectionLoad.Kept (loading : SelectionLoad) : Prop where
  stored : loading.overflow = none → loading.events = loading.held
  remembered : ∀ overflow, loading.overflow = some overflow → overflow = record loading.held

/-- Every event delivered is passed on, or is still to come. -/
structure Accounted (feed : EventFeed) : Prop where
  order : critical feed.published <+: critical feed.delivered
  exact : feed.consumer ≠ .failed → critical feed.delivered = critical feed.published ++ critical feed.pending
  recent : feed.pending <:+ feed.delivered
  remembered : ∀ overflow, feed.overflow = some overflow →
    ∃ log, overflow = record log ∧ Agree log (feed.recalled ++ feed.newer)
  level : feed.overflow = none → feed.newer = [] ∧ feed.recalled = []
  loading : ∀ loading, feed.loading = some loading → loading.Kept

theorem make_accounted (initialThreadId : Option String) : Accounted (make initialThreadId) where
  order := List.prefix_refl _
  exact := fun _ => rfl
  recent := List.suffix_refl _
  remembered := by rintro _ ⟨⟩
  level := fun _ => ⟨rfl, rfl⟩
  loading := by
    intro loading hloading
    obtain ⟨threadId, -, rfl⟩ := Option.map_eq_some_iff.mp hloading
    exact ⟨fun _ => rfl, by rintro _ ⟨⟩⟩

variable {feed : EventFeed}

structure Delivers (feed : EventFeed) (event : InteractiveEvent) (next : EventFeed) : Prop where
  delivered : next.delivered = feed.delivered ++ [event]
  pending : next.pending = feed.pending ++ [event]
  published : next.published = feed.published
  consumer : next.consumer = feed.consumer
  loading : next.loading = feed.loading

theorem deliver_delivers (h : feed.Accounted) (event : InteractiveEvent) (selectionRequest : Option Int)
    (selectedThreadOnly : Bool) :
    Delivers feed (withEpoch event (selectionRequest.getD feed.currentEpoch))
      (feed.deliver event selectionRequest selectedThreadOnly) := by
  unfold deliver
  generalize withEpoch event (selectionRequest.getD feed.currentEpoch) = selected
  dsimp only
  split
  · exact ⟨rfl, by simp [pending], rfl, rfl, rfl⟩
  · next hlevel =>
      obtain ⟨hnewer, -⟩ := h.level hlevel
      split
      · exact ⟨rfl, by simp [pending, hnewer], rfl, rfl, rfl⟩
      · exact ⟨rfl, by simp [pending, hnewer], rfl, rfl, rfl⟩

variable {event : InteractiveEvent} {next : EventFeed} {loading : SelectionLoad} {log : List InteractiveEvent}
    {overflow : State} {input : Input} {inputs : List Input}

theorem Delivers.critical_delivered (h : Delivers feed event next) :
    critical next.delivered = critical feed.delivered ++ critical [event] := by
  rw [h.delivered, critical_append]

theorem deliver_accounted (h : feed.Accounted) (event : InteractiveEvent) (selectionRequest : Option Int)
    (selectedThreadOnly : Bool) : (feed.deliver event selectionRequest selectedThreadOnly).Accounted := by
  have hdelivers := deliver_delivers h event selectionRequest selectedThreadOnly
  constructor
  · rw [hdelivers.critical_delivered, hdelivers.published]
    exact h.order.trans (List.prefix_append _ _)
  · rw [hdelivers.consumer, hdelivers.critical_delivered, hdelivers.published, hdelivers.pending, critical_append]
    intro hfailed
    rw [h.exact hfailed, List.append_assoc]
  · rw [hdelivers.pending, hdelivers.delivered]
    obtain ⟨before, hbefore⟩ := h.recent
    exact ⟨before, by rw [← List.append_assoc, hbefore]⟩
  · unfold deliver
    dsimp only
    split
    · next overflow hoverflow =>
        rintro _ ⟨⟩
        obtain ⟨log, rfl, hagree⟩ := h.remembered overflow hoverflow
        refine ⟨_, (record_concat log _).symm, ?_⟩
        rw [← List.append_assoc]
        exact hagree.append _
    · next hlevel =>
        split
        · intro overflow hoverflow
          cases hoverflow.symm.trans hlevel
        · rintro _ ⟨⟩
          refine ⟨[_], rfl, ?_⟩
          rw [(h.level hlevel).2]
          exact Agree.refl _
  · unfold deliver
    dsimp only
    split
    · rintro ⟨⟩
    · next hlevel =>
        split
        · exact fun _ => h.level hlevel
        · rintro ⟨⟩
  · rw [hdelivers.loading]
    exact h.loading

theorem foldl_deliver (h : feed.Accounted) (events : List InteractiveEvent) (epoch : Int) :
    (events.foldl (fun feed event => feed.deliver event (some epoch) true) feed).Accounted ∧
      (events.foldl (fun feed event => feed.deliver event (some epoch) true) feed).delivered =
        feed.delivered ++ events.map fun event => withEpoch event epoch := by
  induction events generalizing feed with
  | nil => exact ⟨h, (List.append_nil _).symm⟩
  | cons event events ih =>
    obtain ⟨haccounted, hdelivered⟩ := ih (deliver_accounted h event (some epoch) true)
    refine ⟨haccounted, ?_⟩
    rw [List.foldl_cons, hdelivered, (deliver_delivers h event (some epoch) true).delivered, List.append_assoc]
    rfl

theorem hold_kept (h : loading.Kept) (event : InteractiveEvent) : (loading.hold event).Kept := by
  unfold SelectionLoad.hold
  dsimp only
  split
  · next overflow hoverflow =>
      refine ⟨?_, ?_⟩
      · rintro ⟨⟩
      · rintro _ ⟨⟩
        rw [h.remembered overflow hoverflow]
        exact (record_concat _ _).symm
  · next hnone =>
      split
      · refine ⟨fun _ => ?_, ?_⟩
        · rw [← h.stored hnone]
        · intro overflow hoverflow
          cases hoverflow.symm.trans hnone
      · refine ⟨?_, ?_⟩
        · rintro ⟨⟩
        · rintro _ ⟨⟩
          rw [h.stored hnone]
          exact (record_concat _ _).symm

section

variable (h : feed.Accounted)

include h

theorem Accounted.with_loading {loading : Option SelectionLoad}
    (hloading : ∀ next, loading = some next → next.Kept) : Accounted { feed with loading } :=
  { h with loading := hloading }

theorem bufferSelectionEvent_accounted (hnext : feed.bufferSelectionEvent event = some next) : next.Accounted := by
  rw [bufferSelectionEvent] at hnext
  split at hnext
  · cases hnext
  · next loading hloading =>
      split at hnext
      · cases hnext
        apply h.with_loading
        rintro _ ⟨⟩
        exact hold_kept (h.loading loading hloading) event
      · cases hnext

theorem sessionDispatch_accounted (event : InteractiveEvent) :
    (feed.sessionDispatch event).Accounted := by
  rw [sessionDispatch]
  cases hbuffer : feed.bufferSelectionEvent event with
  | none => exact deliver_accounted h event none false
  | some next => exact bufferSelectionEvent_accounted h hbuffer

theorem releaseSelectionEvents_accounted (epoch : Int) (reason : String) :
    (feed.releaseSelectionEvents epoch reason).Accounted := by
  rw [releaseSelectionEvents]
  split
  · exact h
  · exact (foldl_deliver h _ epoch).1

theorem beginSelection_accounted (threadId : String) (previousThreadId : Option String) :
    (feed.beginSelection threadId previousThreadId).Accounted := by
  have hjoined : ∀ joined, feed.loading.filter (fun loading => loading.epoch = 0 && loading.threadId = threadId) =
      some joined → joined.Kept := fun joined hjoined => h.loading joined (Option.filter_eq_some_iff.mp hjoined).1
  unfold beginSelection
  generalize feed.loading.filter (fun loading => loading.epoch = 0 && loading.threadId = threadId) = joined at hjoined
  refine ⟨h.order, h.exact, h.recent, h.remembered, h.level, ?_⟩
  rintro _ ⟨⟩
  cases joined with
  | none => exact ⟨fun _ => rfl, by rintro _ ⟨⟩⟩
  | some joined =>
    obtain ⟨hstored, hremembered⟩ := hjoined joined rfl
    exact ⟨hstored, hremembered⟩

theorem finishSelection_accounted (epoch : Int) : (feed.finishSelection epoch).Accounted := by
  have hcleared : ∀ selectionRequest, Accounted { feed with loading := none, selectionRequest } := fun _ =>
    ⟨h.order, h.exact, h.recent, h.remembered, h.level, by rintro _ ⟨⟩⟩
  unfold finishSelection
  split
  · exact h
  · split
    · exact h
    · dsimp only
      split
      · split
        · exact releaseSelectionEvents_accounted (hcleared _) _ _
        · exact hcleared _
      · exact hcleared feed.selectionRequest

theorem commitSelection_accounted (epoch : Int) : (feed.commitSelection epoch).Accounted := by
  unfold commitSelection
  split
  · exact h
  · next loading hloading =>
      split
      · exact h
      · have hcommitted : Accounted { feed with loading := some { loading with committed := true } } := by
          apply h.with_loading
          rintro _ ⟨⟩
          exact ⟨(h.loading loading hloading).stored, (h.loading loading hloading).remembered⟩
        exact (releaseSelectionEvents_accounted hcommitted _ _).with_loading (by rintro _ ⟨⟩)

end

theorem drained_record : feed.drained (record log) = record (log ++ feed.queue.map (·.event)) := by
  rw [drained, record, record, List.foldl_append, List.foldl_map]

section

variable (h : feed.Accounted)

include h

theorem recovered_pending (hrecovers : feed.Recovers overflow)
    (holder : ∀ envelope ∈ feed.queue, Older feed.newer envelope.event) :
    ∃ log, feed.drained overflow = record log ∧ Agree log feed.pending := by
  obtain ⟨log, rfl, hagree⟩ := h.remembered overflow hrecovers.overflowed
  refine ⟨_, drained_record, ?_⟩
  have htaken : feed.consumer.taken = [] := by
    rw [hrecovers.looking]
    rfl
  rw [pending, htaken, List.append_nil]
  apply hagree.drain
  intro event hmem
  obtain ⟨envelope, hqueued, rfl⟩ := List.mem_map.mp hmem
  exact holder envelope hqueued

theorem recover_accounted (hlooking : feed.consumer = .looking)
    (hoverflow : feed.overflow = some overflow) (hqueued : feed.queue ≠ [])
    (hdrained : feed.Recovers overflow → (∀ envelope ∈ feed.queue, Older feed.newer envelope.event) ∧
      SettledLast feed.pending) : (feed.recover overflow).Accounted := by
  unfold recover
  dsimp only
  split
  · exact ⟨h.order, fun hfailed => absurd rfl hfailed, List.nil_suffix, by rintro _ ⟨⟩, fun _ => ⟨rfl, rfl⟩, h.loading⟩
  · next hkept =>
      rw [Bool.not_eq_true] at hkept
      have hrecovers : feed.Recovers overflow := ⟨hlooking, hoverflow, hqueued, hkept⟩
      obtain ⟨holder, hlast⟩ := hdrained hrecovers
      obtain ⟨log, hlog, hagree⟩ := recovered_pending h hrecovers holder
      have hcritical : critical (feed.recovered overflow) = critical feed.pending := by
        rw [recovered, hlog]
        exact critical_events hagree hlast (hlog ▸ hkept) _ _
      have hexact : critical feed.delivered = critical (feed.published ++ feed.recovered overflow) := by
        rw [critical_append, hcritical]
        exact h.exact (by rw [hlooking]; simp)
      refine ⟨?_, fun _ => ?_, ?_, by rintro _ ⟨⟩, fun _ => ⟨rfl, rfl⟩, h.loading⟩
      · exact hexact ▸ List.prefix_refl _
      · rw [hexact, pending, hlooking]
        exact (List.append_nil _).symm
      · rw [pending, hlooking]
        exact List.nil_suffix

theorem handle_accounted {envelope : SessionEnvelope} (hholding : feed.consumer = .holding envelope)
    (hrecalled : ∀ overflow, feed.overflow = some overflow → Older feed.newer envelope.event)
    (hreceived : feed.overflow = none → isCritical envelope.event = true → feed.receives envelope = true) :
    (feed.handle envelope).Accounted := by
  have htaken : feed.consumer.taken = [envelope.event] := by
    rw [hholding]
    rfl
  have hexact := h.exact (by rw [hholding]; simp)
  have hpending : feed.pending = feed.recalled ++ [envelope.event] ++ feed.queue.map (·.event) ++ feed.newer := by
    rw [pending, htaken]
  unfold handle
  dsimp only
  split
  · next overflow hoverflow =>
      have hsame : pending { feed with
          consumer := .looking
          overflow := some (remember overflow envelope.event)
          recalled := feed.recalled ++ [envelope.event] } = feed.pending := by
        rw [hpending, pending]
        exact congrArg (· ++ feed.queue.map (·.event) ++ feed.newer) (List.append_nil _)
      refine ⟨h.order, fun _ => ?_, ?_, ?_, by rintro ⟨⟩, h.loading⟩
      · rw [hsame]
        exact hexact
      · rw [hsame]
        exact h.recent
      · rintro _ ⟨⟩
        obtain ⟨log, rfl, hagree⟩ := h.remembered overflow hoverflow
        refine ⟨log ++ [envelope.event], (record_concat log _).symm, ?_⟩
        apply hagree.drain
        intro event hmem
        rw [List.mem_singleton.mp hmem]
        exact hrecalled _ hoverflow
  · next hlevel =>
      obtain ⟨hnewer, hnone⟩ := h.level hlevel
      rw [hnewer, hnone, List.append_nil, List.nil_append] at hpending
      have hrest : feed.queue.map (·.event) <:+ feed.delivered :=
        List.IsSuffix.trans ⟨[envelope.event], hpending.symm⟩ h.recent
      have hafter : ∀ published, pending { feed with consumer := .looking, published } = feed.queue.map (·.event) := by
        intro published
        simp [pending, hnewer, hnone, Consumer.taken]
      have hremembered : ∀ overflow, feed.overflow = some overflow →
          ∃ log, overflow = record log ∧ Agree log (feed.recalled ++ feed.newer) := h.remembered
      rw [hpending, critical_append, ← List.append_assoc, ← critical_append] at hexact
      split
      · refine ⟨?_, fun _ => ?_, ?_, hremembered, fun _ => ⟨hnewer, hnone⟩, h.loading⟩
        · rw [hexact]
          exact List.prefix_append _ _
        · rw [hafter]
          exact hexact
        · rw [hafter]
          exact hrest
      · next hskips =>
          have hnothing : critical [envelope.event] = [] := by
            rw [critical, List.filter_cons_of_neg (fun hcritical => hskips (hreceived hlevel hcritical)), List.filter_nil]
          rw [critical_append, hnothing, List.append_nil] at hexact
          refine ⟨h.order, fun _ => ?_, ?_, hremembered, fun _ => ⟨hnewer, hnone⟩, h.loading⟩
          · rw [hafter feed.published]
            exact hexact
          · rw [hafter feed.published]
            exact hrest

theorem advance_accounted (hkeeps : feed.Keeps .advance) : feed.advance.Accounted := by
  unfold advance
  split
  · next hconsumer hoverflow =>
      have hsame : pending { feed with consumer := .taking } = feed.pending := by
        rw [pending, pending, hconsumer]
        rfl
      refine ⟨h.order, fun _ => ?_, ?_, h.remembered, h.level, h.loading⟩
      · rw [hsame]
        exact h.exact (by rw [hconsumer]; simp)
      · rw [hsame]
        exact h.recent
  · exact h
  · next overflow envelope queue hconsumer hoverflow hqueue =>
      apply recover_accounted h hconsumer hoverflow (by rw [hqueue]; simp)
      exact hkeeps.drained overflow rfl
  · exact h
  · next envelope queue hconsumer hqueue =>
      have hsame : pending { feed with queue, consumer := .holding envelope } = feed.pending := by
        simp [pending, hconsumer, hqueue, Consumer.taken]
      refine ⟨h.order, fun _ => ?_, ?_, h.remembered, h.level, h.loading⟩
      · rw [hsame]
        exact h.exact (by rw [hconsumer]; simp)
      · rw [hsame]
        exact h.recent
  · next envelope hconsumer =>
      exact handle_accounted h hconsumer (fun overflow hoverflow => hkeeps.recalled envelope overflow rfl hconsumer hoverflow)
        (hkeeps.received envelope rfl hconsumer)
  · exact h

theorem step_accounted (hkeeps : feed.Keeps input) : (feed.step input).Accounted := by
  cases input with
  | deliver event selectionRequest selectedThreadOnly => exact deliver_accounted h event selectionRequest selectedThreadOnly
  | sessionDispatch event => exact sessionDispatch_accounted h event
  | selectionDispatch request event => exact deliver_accounted h event (some request) false
  | finishSelection epoch => exact finishSelection_accounted h epoch
  | commitSelection epoch => exact commitSelection_accounted h epoch
  | beginSelection threadId previousThreadId => exact beginSelection_accounted h threadId previousThreadId
  | clearSelection => exact h.with_loading (by rintro _ ⟨⟩)
  | select epoch thread | request epoch => exact ⟨h.order, h.exact, h.recent, h.remembered, h.level, h.loading⟩
  | advance => exact advance_accounted h hkeeps

theorem run_accounted (hkeeps : Throughout step Keeps feed inputs) : (feed.run inputs).Accounted :=
  foldl_invariant Accounted (fun _ _ haccounted => step_accounted haccounted) h hkeeps

end

theorem isCritical_withEpoch (event : InteractiveEvent) (epoch : Int) :
    isCritical (withEpoch event epoch) = isCritical event := by
  cases event <;> rfl

theorem critical_map_withEpoch (log : List InteractiveEvent) (epoch : Int) :
    critical (log.map fun event => withEpoch event epoch) = (critical log).map fun event => withEpoch event epoch := by
  rw [critical, List.filter_map]
  congr 2
  funext event
  exact isCritical_withEpoch event epoch

theorem critical_released (hkept : loading.Kept) (hwhole : loading.Whole) (epoch : Int)
    (reason : String) : critical (loading.released epoch reason) = critical loading.held := by
  unfold SelectionLoad.released
  split
  · next hnone => rw [hkept.stored hnone]
  · next overflow hoverflow =>
      obtain ⟨hroom, hlast⟩ := hwhole overflow hoverflow
      rw [hkept.remembered overflow hoverflow] at hroom ⊢
      exact critical_events (Agree.refl _) hlast hroom epoch reason

theorem critical_commitSelection (h : feed.Accounted) (hloading : feed.loading = some loading)
    (hwhole : loading.Whole) : critical (feed.commitSelection loading.epoch).delivered =
      critical feed.delivered ++ (critical loading.held).map fun event => withEpoch event loading.epoch := by
  have hkept := h.loading loading hloading
  have hcommitted : Accounted { feed with loading := some { loading with committed := true } } := by
    apply h.with_loading
    rintro _ ⟨⟩
    exact ⟨hkept.stored, hkept.remembered⟩
  simp only [commitSelection, hloading, ne_eq, not_true_eq_false, if_false, releaseSelectionEvents]
  rw [(foldl_deliver hcommitted _ loading.epoch).2, critical_append, critical_map_withEpoch]
  have hcritical := critical_released hkept hwhole loading.epoch "Selection activity exceeded its bounded live window"
  exact congrArg (fun events => critical feed.delivered ++ events.map fun event => withEpoch event loading.epoch) hcritical

theorem delivered_abandoned (habandons : input.Abandons loading) : (feed.step input).delivered = feed.delivered := by
  cases input with
  | finishSelection epoch =>
    change (feed.finishSelection epoch).delivered = feed.delivered
    unfold finishSelection
    split
    · rfl
    · split
      · rfl
      · dsimp only
        split
        · split <;> rfl
        · rfl
  | beginSelection threadId previousThreadId => rfl
  | clearSelection => rfl
  | _ => exact habandons.elim

structure CaughtUp (feed : EventFeed) : Prop where
  queue : feed.queue = []
  overflow : feed.overflow = none
  taken : feed.consumer.taken = []
  standing : feed.consumer ≠ .failed

/-- What is recovered is the newest that was delivered. -/
structure Newest (recovered delivered : List InteractiveEvent) : Prop where
  activation : ∀ event, .threadActivated event ∈ recovered → latest activation delivered = some event
  listing : ∀ threads, .threadsListed threads ∈ recovered → latest listing delivered = some threads
  invalidation : ∀ event, .executionModelPreviewChanged event ∈ recovered →
    latest (invalidation event.key) delivered = some event

theorem Fresh.newest {recovered delivered : List InteractiveEvent} (h : Fresh recovered log)
    (hrecent : log <:+ delivered) : Newest recovered delivered := by
  have hlatest : ∀ {α : Type} {f : InteractiveEvent → Option α} {a : α}, latest f log = some a →
      latest f delivered = some a := by
    intro α f a hlog
    obtain ⟨before, rfl⟩ := hrecent
    rw [latest_append, hlog, Option.some_or]
  constructor
  · exact fun event hmem => hlatest ((h.activation event).mp hmem)
  · exact fun threads hmem => hlatest ((h.listing threads).mp hmem)
  · exact fun event hmem => hlatest ((h.invalidation event).mp hmem)

/-- Critical events are passed on in their order, and of the others a recovery passes the newest on. -/
structure Faithful (feed : EventFeed) (input : Input) : Prop where
  order : critical (feed.step input).published <+: critical (feed.step input).delivered
  complete : (feed.step input).CaughtUp → critical (feed.step input).published = critical (feed.step input).delivered
  recovered : ∀ overflow, input = .advance → feed.Recovers overflow → Fresh (feed.recovered overflow) feed.pending
  newest : ∀ overflow, input = .advance → feed.Recovers overflow → Newest (feed.recovered overflow) feed.delivered
  released : ∀ loading, feed.loading = some loading → input.Abandons loading ∨ input = .commitSelection loading.epoch →
    critical (feed.step input).delivered =
      critical feed.delivered ++ (critical loading.held).map fun event => withEpoch event loading.epoch

theorem Accounted.complete (h : feed.Accounted) (hcaughtUp : feed.CaughtUp) :
    critical feed.published = critical feed.delivered := by
  obtain ⟨hnewer, hrecalled⟩ := h.level hcaughtUp.overflow
  have hnothing : feed.pending = [] := by
    rw [pending, hnewer, hrecalled, hcaughtUp.taken, hcaughtUp.queue]
    rfl
  have hexact := h.exact hcaughtUp.standing
  rw [hnothing] at hexact
  exact (hexact.trans (List.append_nil _)).symm

theorem faithful_of_accounted (h : feed.Accounted) (hkeeps : feed.Keeps input) : feed.Faithful input := by
  have hnext := step_accounted h hkeeps
  have hrecovered : ∀ overflow, input = .advance → feed.Recovers overflow →
      Fresh (feed.recovered overflow) feed.pending := by
    intro overflow hinput hrecovers
    obtain ⟨holder, -⟩ := hkeeps.drained overflow hinput hrecovers
    obtain ⟨log, hlog, hagree⟩ := recovered_pending h hrecovers holder
    rw [recovered, hlog]
    exact fresh_events hagree (hlog ▸ hrecovers.kept) _ _
  refine ⟨hnext.order, hnext.complete, hrecovered, ?_, ?_⟩
  · exact fun overflow hinput hrecovers => (hrecovered overflow hinput hrecovers).newest h.recent
  · rintro loading hloading (habandons | rfl)
    · rw [hkeeps.abandoned loading hloading habandons, delivered_abandoned habandons]
      exact (List.append_nil _).symm
    · exact critical_commitSelection h hloading (hkeeps.committed loading.epoch loading rfl hloading rfl)

/-- Every step of a feed, when it and all before it keep what they merge in order. -/
theorem run_faithful (initialThreadId : Option String) (inputs : List Input)
    (h : Throughout step Keeps (make initialThreadId) inputs) (before after : List Input) (input : Input)
    (hinputs : inputs = before ++ input :: after) : Faithful (run (make initialThreadId) before) input := by
  subst hinputs
  obtain ⟨hbefore, hkeeps⟩ := throughout_append h
  exact faithful_of_accounted (run_accounted (make_accounted initialThreadId) hbefore) hkeeps

def samplePassing : InteractiveEvent := .passing .submissionAdmitted 0 "thread" ""

def sampleCritical (payload : String) : InteractiveEvent := .critical .threadTitled none none payload

def sampleActivated (threadId : String) : InteractiveEvent := .threadActivated ⟨threadId, "Thread"⟩

/-- Events delivered while nothing is consumed: one of the two kinds, then as many of no
kind as fill the queue, then one more of each kind. -/
def sampleDeliveries (first : List InteractiveEvent) : List Input :=
  (first ++ List.replicate (capacity - first.length) samplePassing ++
    [sampleCritical "second", sampleActivated "second"]).map fun event => .deliver event none false

theorem keeps_deliver (event : InteractiveEvent) (selectionRequest : Option Int) (selectedThreadOnly : Bool) :
    feed.Keeps (.deliver event selectionRequest selectedThreadOnly) := by
  constructor
  · rintro _ _ ⟨⟩
  · rintro _ ⟨⟩
  · rintro _ ⟨⟩
  · rintro _ _ ⟨⟩
  · rintro _ _ ⟨⟩

theorem throughout_deliver {events : List InteractiveEvent}
    (h : Throughout step Keeps (feed.run (events.map fun event => .deliver event none false)) inputs) :
    Throughout step Keeps feed (events.map (fun event => .deliver event none false) ++ inputs) := by
  induction events generalizing feed with
  | nil => exact h
  | cons event events ih => exact ⟨keeps_deliver event none false, ih h⟩

theorem older_samplePassing (newer : List InteractiveEvent) : Older newer samplePassing := by
  constructor
  · rintro ⟨⟩
  · rintro _ ⟨⟩
  · rintro ⟨⟩
  · rintro ⟨⟩
  · rintro _ ⟨⟩

/-- One critical event and an activation after as many others as fill the queue. -/
theorem run_faithful_sample : Throughout step Keeps (make none) (sampleDeliveries [] ++ [.advance]) ∧
    Recovers (run (make none) (sampleDeliveries [])) (record [sampleCritical "second", sampleActivated "second"]) ∧
    Faithful (run (make none) (sampleDeliveries [])) .advance := by
  have hlooking : (run (make none) (sampleDeliveries [])).consumer = .looking := by decide +kernel
  have hqueue : ∀ envelope ∈ (run (make none) (sampleDeliveries [])).queue, envelope.event = samplePassing := by
    decide +kernel
  have hcritical : critical (run (make none) (sampleDeliveries [])).pending = [sampleCritical "second"] := by
    decide +kernel
  have hloading : (run (make none) (sampleDeliveries [])).loading = none := by decide +kernel
  have hkeeps : Keeps (run (make none) (sampleDeliveries [])) .advance := by
    constructor
    · intro envelope overflow _ hholding
      cases hlooking.symm.trans hholding
    · intro envelope _ hholding
      cases hlooking.symm.trans hholding
    · intro overflow _ _
      constructor
      · intro envelope hmem
        rw [hqueue envelope hmem]
        exact older_samplePassing _
      · rw [SettledLast, hcritical]
        exact List.pairwise_singleton _ _
    · rintro _ _ ⟨⟩
    · intro loading hsome
      cases hloading.symm.trans hsome
  have hthroughout : Throughout step Keeps (make none) (sampleDeliveries [] ++ [.advance]) :=
    throughout_deliver ⟨hkeeps, trivial⟩
  refine ⟨hthroughout, ⟨hlooking, ?_, ?_, ?_⟩, ?_⟩
  · decide +kernel
  · decide +kernel
  · decide +kernel
  · exact run_faithful none _ hthroughout _ [] _ rfl

/-- The critical events come out in the other order, and the thread activated first is activated. -/
theorem recovery_reverses :
    critical (run (make none) (sampleDeliveries [sampleCritical "first", sampleActivated "first"] ++
      [.advance])).published = [sampleCritical "second", sampleCritical "first"] ∧
    critical (run (make none) (sampleDeliveries [sampleCritical "first", sampleActivated "first"] ++
      [.advance])).delivered = [sampleCritical "first", sampleCritical "second"] ∧
    sampleActivated "first" ∈ (run (make none) (sampleDeliveries [sampleCritical "first", sampleActivated "first"] ++
      [.advance])).published ∧
    latest activation (run (make none) (sampleDeliveries [sampleCritical "first", sampleActivated "first"] ++
      [.advance])).delivered = some ⟨"second", "Thread"⟩ := by
  decide +kernel

end Rika.EventFeed
