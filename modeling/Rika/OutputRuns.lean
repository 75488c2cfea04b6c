import Rika.OutputConservation

namespace Rika.ProcessRegistry

structure Tracked (registry : Registry) (facts : List Fact) (processId : ProcessId) : Prop where
  absent : registry.processes processId = none →
    (∀ happening ∈ happenings processId facts, ∃ error, happening = .notFound error) ∧
      ∀ state, (processId, state) ∉ registry.entries
  present : ∀ entry, registry.processes processId = some entry → Sound (happenings processId facts) entry
  active : (processId, .active) ∈ registry.entries → Alive (happenings processId facts)
  terminal : ∀ output exit, (processId, .terminal output exit) ∈ registry.entries →
    Over (happenings processId facts) output

/-- Processes that were not started have not been heard of. -/
structure Kept (registry : Registry) (facts : List Fact) : Prop where
  fresh : ∀ number, registry.nextId ≤ number → registry.processes ⟨registry.incarnation, number⟩ = none
  tracked : ∀ processId, Tracked registry facts processId

section Steps

variable {registry : Registry} {facts : List Fact} {processId : ProcessId}

variable {entry : Entry} {history : List Happening} {output : Output} {states : States} {state : ProcessId × EntryState}

theorem set_self : (registry.set processId entry).processes processId = some entry := Function.update_self _ _ _

theorem set_other {other : ProcessId} (h : other ≠ processId) :
    (registry.set processId entry).processes other = registry.processes other := Function.update_of_ne h _ _

theorem Kept.number_ne (h : Kept registry facts) (hentry : registry.processes processId = some entry)
    {number : Nat} (hnumber : registry.nextId ≤ number) : (⟨registry.incarnation, number⟩ : ProcessId) ≠ processId := by
  intro heq
  have hnone := h.fresh number hnumber
  rw [heq, hentry] at hnone
  cases hnone

theorem Tracked.frame {changed : Registry} {more : List Fact} (h : Tracked registry facts processId)
    (hprocess : changed.processes processId = registry.processes processId)
    (hentries : ∀ state, (processId, state) ∈ changed.entries → (processId, state) ∈ registry.entries)
    (hmore : happenings processId more = []) : Tracked changed (facts ++ more) processId := by
  have hhistory : happenings processId (facts ++ more) = happenings processId facts := by
    rw [happenings_append, hmore, List.append_nil]
  refine ⟨fun habsent => ?_, fun entry hentry => ?_, fun hactive => ?_, fun output exit hterminal => ?_⟩
  · rw [hprocess] at habsent
    rw [hhistory]
    exact ⟨(h.absent habsent).1, fun state hstate => (h.absent habsent).2 state (hentries state hstate)⟩
  · rw [hprocess] at hentry
    rw [hhistory]
    exact h.present entry hentry
  · rw [hhistory]
    exact h.active (hentries _ hactive)
  · rw [hhistory]
    exact h.terminal output exit (hentries _ hterminal)

theorem over_append_none (h : Over history output) {more : List Happening}
    (hmore : returned more = []) : Over (history ++ more) output := by
  refine ⟨h.exited, ?_⟩
  rw [returned_append, hmore, List.append_nil]
  exact h.returned

section Silence

variable {entry changed : Entry} {more : List Happening}

variable {channel : Channel}

theorem returned_drain {bytes : List UInt8} (h : entry.drain channel bytes = some (changed, more)) : returned more = [] := by
  rw [Entry.drain] at h
  split at h
  · cases h
  · cases h
    rfl

theorem returned_drained {succeeded : Bool} (h : entry.drained channel succeeded = some (changed, more)) :
    returned more = [] := by
  rw [Entry.drained] at h
  split at h
  · cases h
  · cases h
    rfl

theorem returned_watched {exitCode : Option Int} (h : entry.watched exitCode = some (changed, more)) : returned more = [] := by
  rw [Entry.watched] at h
  split at h
  · cases h
  · cases h
    rfl

theorem returned_mark (h : entry.mark = some (changed, more)) : returned more = [] := by
  rw [Entry.mark] at h
  split at h
  · cases h
  · split at h
    · cases h
      rfl
    · cases h

theorem returned_settle {nanos : Nat} (h : entry.settle nanos = some (changed, more)) : returned more = [] := by
  rw [Entry.settle] at h
  split at h
  · split at h
    · cases h
    · cases h
      rfl
  · cases h

theorem returned_enter {outputLimit : Int} (h : entry.enter outputLimit = some (changed, more)) : returned more = [] := by
  rw [Entry.enter] at h
  split at h
  · cases h
  · cases h
    rfl

theorem returned_look (h : entry.look = some (changed, more)) : returned more = [] := by
  rw [Entry.look] at h
  split at h
  · split at h
    · cases h
      rfl
    · cases h
      rfl
    · cases h
      rfl
  · cases h
  · cases h

theorem returned_leave (h : entry.leave = some (changed, more)) : returned more = [] := by
  cases h
  rfl

end Silence

theorem Kept.within {change : Entry → Option Change} (h : Kept registry facts)
    (hchange : ∀ entry changed more, registry.processes processId = some entry → change entry = some (changed, more) →
      Sound (happenings processId facts ++ more) changed ∧ returned more = []) :
    Kept (registry.within processId change).1 (facts ++ (registry.within processId change).2) := by
  rw [Registry.within]
  split
  · rw [List.append_nil]
    exact h
  · next changed more hsome =>
      obtain ⟨entry, hentry, hchanged⟩ := Option.bind_eq_some_iff.mp hsome
      obtain ⟨hsound, hreturned⟩ := hchange entry changed more hentry hchanged
      refine ⟨fun number hnumber => (set_other (h.number_ne hentry hnumber)).trans (h.fresh number hnumber), fun other => ?_⟩
      · by_cases hother : other = processId
        · subst hother
          have hhistory : happenings other (facts ++ more.map (Fact.mk other)) = happenings other facts ++ more := by
            rw [happenings_append, happenings_map_self]
          have htracked := h.tracked other
          refine ⟨fun habsent => ?_, fun found hfound => ?_, fun hactive => ?_, fun output exit hterminal => ?_⟩
          · rw [set_self] at habsent
            cases habsent
          · rw [set_self] at hfound
            cases hfound
            rw [hhistory]
            exact hsound
          · rw [hhistory, Alive, returned_append, hreturned, List.append_nil]
            exact htracked.active hactive
          · rw [hhistory]
            exact over_append_none (htracked.terminal output exit hterminal) hreturned
        · exact (h.tracked other).frame (set_other hother) (fun _ hstate => hstate)
            (happenings_map_other (Ne.symm hother) more)

theorem Kept.changes {change : Entry → Option Change} (h : Kept registry facts)
    (hsound : ∀ {history entry changed more}, Sound history entry → change entry = some (changed, more) →
      Sound (history ++ more) changed)
    (hreturned : ∀ {entry changed more}, change entry = some (changed, more) → returned more = []) :
    Kept (registry.within processId change).1 (facts ++ (registry.within processId change).2) :=
  h.within fun entry _ _ hentry hchange => ⟨hsound ((h.tracked _).present entry hentry) hchange, hreturned hchange⟩

theorem mem_forget {count : Nat} (h : state ∈ forget count states) : state ∈ states := by
  induction states generalizing count with
  | nil => exact h
  | cons first states ih =>
    obtain ⟨firstId, active | ⟨output, exit⟩⟩ := first
    · rw [forget] at h
      rcases List.mem_cons.mp h with rfl | hlater
      · exact List.mem_cons_self
      · exact List.mem_cons_of_mem _ (ih hlater)
    · rw [forget] at h
      split at h
      · exact List.mem_cons_of_mem _ h
      · exact List.mem_cons_of_mem _ (ih h)

theorem mem_retainTerminalOutput {exit : ProcessExit} (h : state ∈ retainTerminalOutput states processId output exit) :
    state = (processId, .terminal output exit) ∨ state ∈ states ∧ state.1 ≠ processId := by
  have hnext : state ∈ (states.filter fun state => state.1 ≠ processId) ++ [(processId, .terminal output exit)] := by
    rw [retainTerminalOutput] at h
    split at h
    · exact h
    · exact mem_forget h
  rcases List.mem_append.mp hnext with hkept | hlast
  · obtain ⟨hmem, hne⟩ := List.mem_filter.mp hkept
    exact Or.inr ⟨hmem, of_decide_eq_true hne⟩
  · exact Or.inl (List.mem_singleton.mp hlast)

theorem mem_of_lookup {state : EntryState} (h : states.lookup processId = some state) : (processId, state) ∈ states := by
  obtain ⟨before, after, hsplit, _⟩ := List.lookup_eq_some_iff.mp h
  rw [hsplit]
  exact List.mem_append_right _ List.mem_cons_self

theorem Kept.take (h : Kept registry facts) (nanos : Nat) :
    Kept (registry.take processId nanos).1 (facts ++ (registry.take processId nanos).2) := by
  rw [Registry.take]
  split
  · rw [List.append_nil]
    exact h
  next entry hentry =>
  split
  · next outputLimit exit hadmission =>
      have hsound := (h.tracked processId).present entry hentry
      have halive : Alive (happenings processId facts) := hsound.admitted (by rw [hadmission]; rfl)
      have htaken := @Sound.take _ _ processId _ _ nanos hsound hadmission
      generalize houtput : pollOutput processId entry outputLimit exit nanos = output at htaken
      have hrunning : output.running = exit.isNone := by rw [← houtput]; rfl
      refine ⟨fun number hnumber => (set_other (h.number_ne hentry hnumber)).trans (h.fresh number hnumber), fun other => ?_⟩
      · by_cases hother : other = processId
        · subst hother
          refine ⟨fun habsent => ?_, fun found hfound => ?_, fun hactive => ?_, fun last lastExit hterminal => ?_⟩
          · exact absurd (set_self.symm.trans habsent) (Option.some_ne_none _)
          · rw [happenings_concat_self, ← Option.some.inj (set_self.symm.trans hfound)]
            exact htaken
          · rw [happenings_concat_self, Alive, returned_concat]
            cases exit with
            | none =>
              refine List.forall_mem_append.mpr ⟨halive, fun last hlast => ?_⟩
              rw [List.mem_singleton.mp hlast, hrunning]
              rfl
            | some exit =>
              rcases mem_retainTerminalOutput hactive with heq | ⟨_, hne⟩
              · cases heq
              · exact absurd rfl hne
          · rw [happenings_concat_self]
            cases exit with
            | none => exact absurd halive ((h.tracked other).terminal last lastExit hterminal).not_alive
            | some exit =>
              rcases mem_retainTerminalOutput hterminal with heq | ⟨_, hne⟩
              · cases heq
                exact ⟨hrunning, returned (happenings other facts), 0, returned_concat _, halive⟩
              · exact absurd rfl hne
        · refine (h.tracked other).frame (set_other hother) (fun state hstate => ?_)
            (happenings_map_other (Ne.symm hother) [.returned output])
          cases exit with
          | none => exact hstate
          | some exit =>
            rcases mem_retainTerminalOutput hstate with heq | ⟨hmem, _⟩
            · exact absurd (congrArg Prod.fst heq) hother
            · exact hmem
  · rw [List.append_nil]
    exact h
  · rw [List.append_nil]
    exact h

theorem Kept.enter (h : Kept registry facts) (outputLimit : Int) :
    Kept (registry.enter processId outputLimit).1 (facts ++ (registry.enter processId outputLimit).2) := by
  rw [Registry.enter]
  split
  · next hnone =>
      refine ⟨h.fresh, fun other => ?_⟩
      by_cases hother : other = processId
      · subst hother
        have htracked := h.tracked other
        refine ⟨fun habsent => ?_, fun entry hentry => ?_, fun hactive => ?_, fun output exit hterminal => ?_⟩
        · obtain ⟨hquiet, hentries⟩ := htracked.absent habsent
          rw [happenings_concat_self]
          refine ⟨List.forall_mem_append.mpr ⟨hquiet, fun happening hlast => ?_⟩, hentries⟩
          exact ⟨_, List.mem_singleton.mp hlast⟩
        · rw [happenings_concat_self]
          exact (htracked.present entry hentry).notFound _
        · rw [happenings_concat_self]
          exact alive_append_none rfl (htracked.active hactive)
        · rw [happenings_concat_self]
          exact over_append_none (htracked.terminal output exit hterminal) rfl
      · exact (h.tracked other).frame rfl (fun _ hstate => hstate) (happenings_map_other (Ne.symm hother) [.notFound _])
  · next output exit hlookup =>
      refine ⟨h.fresh, fun other => ?_⟩
      by_cases hother : other = processId
      · subst hother
        have htracked := h.tracked other
        have hover := htracked.terminal output exit (mem_of_lookup hlookup)
        refine ⟨fun habsent => ?_, fun entry hentry => ?_, fun hactive => ?_, fun last lastExit hterminal => ?_⟩
        · exact absurd (mem_of_lookup hlookup) ((htracked.absent habsent).2 _)
        · rw [happenings_concat_self]
          exact (htracked.present entry hentry).again hover
        · exact absurd (htracked.active hactive) hover.not_alive
        · rw [happenings_concat_self, (htracked.terminal last lastExit hterminal).unique hover]
          exact hover.concat
      · exact (h.tracked other).frame rfl (fun _ hstate => hstate) (happenings_map_other (Ne.symm hother) [.returned output])
  · next hlookup =>
      refine h.within fun entry changed more hentry hchange => ?_
      have halive := (h.tracked processId).active (mem_of_lookup hlookup)
      exact ⟨((h.tracked processId).present entry hentry).enter halive hchange, returned_enter hchange⟩

section Quiet

variable {history : List Happening}

theorem silent_of_notFound {happening : Happening} (h : ∃ error, happening = .notFound error) :
    happening.output = none ∧ happening.fails = false ∧
      ∀ channel, happening.bytes channel = [] ∧ happening.ends channel = false := by
  obtain ⟨error, rfl⟩ := h
  exact ⟨rfl, rfl, fun _ => ⟨rfl, rfl⟩⟩

section

variable (h : ∀ happening ∈ history, ∃ error, happening = .notFound error)

include h

theorem returned_quiet : returned history = [] :=
  List.filterMap_eq_nil_iff.mpr fun happening hmem => (silent_of_notFound (h happening hmem)).1

theorem decodedText_quiet (channel : Channel) :
    bytesRead channel history = [] ∧ hasEnded channel history = false ∧ decodedText channel history = [] := by
  have hbytes : bytesRead channel history = [] :=
    List.flatMap_eq_nil_iff.mpr fun happening hmem => ((silent_of_notFound (h happening hmem)).2.2 channel).1
  have hends : hasEnded channel history = false := List.any_eq_false.mpr fun happening hmem => by
    rw [((silent_of_notFound (h happening hmem)).2.2 channel).2]
    exact Bool.false_ne_true
  refine ⟨hbytes, hends, ?_⟩
  rw [decodedText, hbytes, hends]
  rfl

theorem alive_quiet : Alive history := by
  rw [Alive, returned_quiet h]
  exact fun _ hmem => absurd hmem List.not_mem_nil

end

theorem sound_start (nanos : Nat) (h : ∀ happening ∈ history, ∃ error, happening = .notFound error) :
    Sound history (Entry.start nanos) := by
  have halive := alive_quiet h
  refine ⟨fun channel => ?_, fun channel => ?_, fun _ => ⟨fun _ => [], fun channel => ?_, fun _ channel => ?_, fun _ _ _ => rfl⟩,
    fun exit hexit => ?_, fun outputLimit exit hadmission => ?_, fun hfails => ?_, fun hmarked => ?_, fun hadmitted => halive,
    Or.inl halive⟩
  · rw [(decodedText_quiet h channel).1]
    rfl
  · rw [(decodedText_quiet h channel).2.1]
    rfl
  · rw [returned_quiet h, (decodedText_quiet h channel).2.2]
    rfl
  · cases channel <;> rfl
  · cases hexit
  · cases hadmission
  · obtain ⟨happening, hmem, hfail⟩ := List.any_eq_true.mp hfails
    rw [(silent_of_notFound (h happening hmem)).2.1] at hfail
    exact absurd hfail Bool.false_ne_true
  · cases hmarked

end Quiet

theorem Kept.start (h : Kept registry facts) (nanos : Nat) : Kept (registry.start nanos) facts := by
  rw [Registry.start]
  split
  · exact h
  · generalize hid : (⟨registry.incarnation, registry.nextId⟩ : ProcessId) = started
    have hnone : registry.processes started = none := by
      rw [← hid]
      exact h.fresh _ (Nat.le_refl _)
    refine ⟨fun number hnumber => ?_, fun other => ?_⟩
    · have hle : registry.nextId + 1 ≤ number := hnumber
      have hne : (⟨registry.incarnation, number⟩ : ProcessId) ≠ started := by
        rw [← hid]
        intro heq
        cases heq
        exact absurd hle (Nat.not_succ_le_self _)
      exact (set_other hne).trans (h.fresh number (Nat.le_of_succ_le hle))
    · have htracked := h.tracked other
      by_cases hother : other = started
      · subst hother
        obtain ⟨hquiet, hentries⟩ := htracked.absent hnone
        refine ⟨fun habsent => ?_, fun entry hentry => ?_, fun _ => alive_quiet hquiet, fun output exit hterminal => ?_⟩
        · exact absurd (set_self.symm.trans habsent) (Option.some_ne_none _)
        · rw [← Option.some.inj (set_self.symm.trans hentry)]
          exact sound_start nanos hquiet
        · rcases List.mem_append.mp hterminal with hmem | hlast
          · exact absurd hmem (hentries _)
          · cases List.mem_singleton.mp hlast
      · have hframe : Tracked { registry.set started (Entry.start nanos) with
            entries := registry.entries ++ [(started, .active)], nextId := registry.nextId + 1 } (facts ++ []) other :=
          htracked.frame (set_other hother) (fun state hstate => ?_) rfl
        · rwa [List.append_nil] at hframe
        · rcases List.mem_append.mp hstate with hmem | hlast
          · exact hmem
          · exact absurd (congrArg Prod.fst (List.mem_singleton.mp hlast)) hother

theorem Kept.close (h : Kept registry facts) : Kept registry.close facts := by
  have hprocesses : ∀ other, registry.close.processes other = (registry.processes other).map fun entry =>
      if (other, .active) ∈ registry.entries then
        { entry with exit := entry.exit.or (some (.error (unavailable other))) }
      else entry := fun _ => rfl
  refine ⟨fun number hnumber => ?_, fun other => ⟨fun habsent => ?_, fun entry hentry => ?_, fun hactive => ?_,
    fun output exit hterminal => ?_⟩⟩
  · have hnone := h.fresh number hnumber
    rw [hprocesses]
    exact Option.map_eq_none_iff.mpr hnone
  · rw [hprocesses] at habsent
    exact ⟨((h.tracked other).absent (Option.map_eq_none_iff.mp habsent)).1, fun _ => List.not_mem_nil⟩
  · rw [hprocesses] at hentry
    obtain ⟨before, hbefore, rfl⟩ := Option.map_eq_some_iff.mp hentry
    have hsound := (h.tracked other).present before hbefore
    split
    · exact hsound.close _
    · exact hsound
  · cases hactive
  · cases hterminal

theorem Kept.step (h : Kept registry facts) (event : Event) :
    Kept (step registry event).1 (facts ++ (step registry event).2) := by
  cases event with
  | start nanos =>
    have hstart := h.start nanos
    rwa [← List.append_nil facts] at hstart
  | chunk processId channel bytes =>
    exact h.changes (·.drain) returned_drain
  | drained processId channel succeeded =>
    exact h.changes (·.drained) returned_drained
  | watched processId exitCode =>
    exact h.changes (·.watched) returned_watched
  | mark processId =>
    exact h.changes (·.mark) returned_mark
  | settle processId nanos =>
    exact h.changes (·.settle) returned_settle
  | enter processId outputLimit => exact h.enter outputLimit
  | look processId =>
    exact h.changes (·.look) returned_look
  | take processId nanos => exact h.take nanos
  | leave processId =>
    exact h.changes (·.leave) returned_leave
  | close =>
    have hclose := h.close
    rwa [← List.append_nil facts] at hclose

theorem kept_run (incarnation : Int × Int) (events : List Event) :
    Kept (run incarnation events).1 (run incarnation events).2 := by
  have hstart : Kept (Registry.empty incarnation) [] := by
    refine ⟨fun _ _ => rfl, fun processId => ⟨fun _ => ⟨fun happening hmem => ?_, fun _ => List.not_mem_nil⟩,
      fun entry hentry => ?_, fun hactive => ?_, fun output exit hterminal => ?_⟩⟩
    · cases hmem
    · cases hentry
    · cases hactive
    · cases hterminal
  have hruns : ∀ (history : Registry × List Fact), Kept history.1 history.2 →
      Kept (events.foldl advance history).1 (events.foldl advance history).2 := by
    induction events with
    | nil => exact fun _ h => h
    | cons event events ih => exact fun history h => ih (advance history event) (h.step event)
  exact hruns _ hstart

theorem Sound.conserved (h : Sound history entry) : Conserved history := by
  have hover : ∀ output ∈ returned history, output.running = false →
      ∃ last, Over history last ∧ entry.output = .empty ∧ ∃ exit, entry.exit = some (.ok exit) := by
    intro output hmem hexited
    rcases h.phase with halive | hover
    · have hrunning := halive output hmem
      rw [hexited] at hrunning
      exact Bool.noConfusion hrunning
    · exact hover
  refine ⟨?_, fun hclear channel => ?_, fun hclear output hlast channel => ?_, fun hclear output hmem hexited channel => ?_,
    fun hfails output hmem hexited => ?_⟩
  · rcases h.phase with halive | ⟨last, hlast, _⟩
    · rw [untilExit_running halive, List.drop_length]
      intro output hmem
      cases hmem
    · obtain ⟨before, count, hreturned, huntil⟩ := hlast.untilExit
      rw [huntil, hreturned, List.getLast?_concat, List.append_cons before last (List.replicate count last),
        List.drop_left]
      intro output hmem
      rw [List.eq_of_mem_replicate hmem]
  · obtain ⟨held, hheld⟩ := h.held hclear
    exact ⟨held channel, hheld.decoded channel⟩
  · obtain ⟨held, hheld⟩ := h.held hclear
    rw [← hheld.decoded channel, hheld.empty output hlast channel, List.append_nil]
  · obtain ⟨held, hheld⟩ := h.held hclear
    obtain ⟨_, _, hempty, exit, hexit⟩ := hover output hmem hexited
    obtain ⟨exits, hexits, _⟩ := h.settled exit hexit
    have hnone : held channel = [] := by
      rw [hempty] at hheld
      rw [← hheld.text rfl channel]
      cases channel <;> rfl
    refine ⟨?_, (h.ended channel).trans (exit_of_exits hexits channel)⟩
    rw [← hheld.decoded channel, hnone, List.append_nil]
  · obtain ⟨_, _, hempty, exit, hexit⟩ := hover output hmem hexited
    obtain ⟨exits, hexits, hmarked⟩ := h.settled exit hexit
    rcases h.marked (hmarked (isFailure_of_failing hexits (h.failed hfails))) with hpending | hfound
    · rw [hempty] at hpending
      cases hpending
    · exact hfound

theorem conserved_of_kept (h : Kept registry facts) (processId : ProcessId) : Conserved (happenings processId facts) := by
  have htracked := h.tracked processId
  cases hentry : registry.processes processId with
  | some entry => exact (htracked.present entry hentry).conserved
  | none => exact (sound_start 0 (htracked.absent hentry).1).conserved

end Steps

end Rika.ProcessRegistry
