import Mathlib.Data.List.DropRight
import Rika.OutputRuns

namespace Rika.ProcessRegistry

open RuntimeFilesystem WideText

section Output

variable {history : List Happening} {channel : Channel} {pending : PendingOutput}

def untilPoll (history : List Happening) : List Happening := history.rdropWhile fun happening => happening.output.isNone

def produced (channel : Channel) (history : List Happening) : List Char :=
  (decodedText channel history).drop (decodedText channel (untilPoll history)).length

def PendingOutput.bytes (pending : PendingOutput) : Channel → Nat
  | .stdout => pending.stdoutBytes
  | .stderr => pending.stderrBytes

variable {happening : Happening}

theorem untilPoll_silent (h : happening.output = none) : untilPoll (history ++ [happening]) = untilPoll history :=
  List.rdropWhile_concat_pos _ _ _ (by rw [h]; rfl)

theorem produced_returned (output : Output) : produced channel (history ++ [.returned output]) = [] := by
  have huntil : untilPoll (history ++ [.returned output]) = history ++ [.returned output] :=
    List.rdropWhile_concat_neg _ _ _ Bool.false_ne_true
  rw [produced, huntil, List.drop_length]

/-- On each channel the characters that came first since the last poll, as far as there is room, and all unless it is
marked. -/
structure Retains (history : List Happening) (pending : PendingOutput) : Prop where
  since : ∀ channel, (decodedText channel (untilPoll history)).length ≤ (decodedText channel history).length
  kept : ∃ kept : Channel → List Char,
    (∀ channel, pending.text channel = units (kept channel) ∧ kept channel <+: produced channel history ∧
      (pending.truncated = false → kept channel = produced channel history)) ∧
    pending.retainedBytes = utf8Size (kept .stdout) + utf8Size (kept .stderr)
  bytes : ∀ channel, pending.bytes channel = utf8Size (produced channel history)
  room : pending.retainedBytes ≤ pendingOutputLimit

theorem retains_empty (h : ∀ channel, produced channel history = [])
    (hsince : ∀ channel, (decodedText channel (untilPoll history)).length ≤ (decodedText channel history).length) :
    Retains history .empty := by
  refine ⟨hsince, ⟨fun _ => [], fun channel => ⟨?_, List.nil_prefix, fun _ => (h channel).symm⟩, rfl⟩, fun channel => ?_,
    Nat.zero_le _⟩
  · cases channel <;> rfl
  · rw [h channel]
    cases channel <;> rfl

theorem retains_returned (output : Output) : Retains (history ++ [.returned output]) .empty := by
  refine retains_empty (fun channel => produced_returned output) fun channel => Nat.le_of_eq ?_
  have huntil : untilPoll (history ++ [.returned output]) = history ++ [.returned output] :=
    List.rdropWhile_concat_neg _ _ _ Bool.false_ne_true
  rw [huntil]

theorem Retains.silent (h : Retains history pending) (houtput : happening.output = none)
    (hdecoded : ∀ channel, decodedText channel (history ++ [happening]) = decodedText channel history) :
    Retains (history ++ [happening]) pending := by
  have hproduced : ∀ channel, produced channel (history ++ [happening]) = produced channel history := by
    intro channel
    rw [produced, produced, untilPoll_silent houtput, hdecoded]
  obtain ⟨hsince, ⟨kept, hkept, hretained⟩, hbytes, hroom⟩ := h
  refine ⟨fun channel => ?_, ⟨kept, fun channel => ?_, hretained⟩, fun channel => ?_, hroom⟩
  · rw [untilPoll_silent houtput, hdecoded]
    exact hsince channel
  · rw [hproduced]
    exact hkept channel
  · rw [hproduced]
    exact hbytes channel

theorem Retains.mark (h : Retains history pending) : Retains history { pending with truncated := true } := by
  obtain ⟨kept, hkept, hretained⟩ := h.kept
  refine ⟨h.since, ⟨kept, fun channel => ⟨?_, (hkept channel).2.1, fun hfalse => absurd hfalse Bool.noConfusion⟩, hretained⟩,
    fun channel => ?_, h.room⟩
  · rw [← (hkept channel).1]
    cases channel <;> rfl
  · rw [← h.bytes channel]
    cases channel <;> rfl

section

variable (pending : PendingOutput) (text : List Char)

def accepted : List Char :=
  if pending.truncated then [] else fitting ((pendingOutputLimit - pending.retainedBytes : Int)).toNat text

theorem units_accepted :
    (if pending.truncated then [] else boundedPrefix (units text) (pendingOutputLimit - pending.retainedBytes)) =
      units (accepted pending text) := by
  rw [accepted, boundedPrefix_units]
  by_cases htruncated : pending.truncated = true
  · rw [if_pos htruncated, if_pos htruncated]
    rfl
  · rw [if_neg htruncated, if_neg htruncated]

theorem accepted_isPrefix : accepted pending text <+: text := by
  rw [accepted]
  by_cases htruncated : pending.truncated = true
  · rw [if_pos htruncated]
    exact List.nil_prefix
  · rw [if_neg htruncated]
    exact (longestPrefix_fitting _ _).isPrefix

end

theorem accepted_size (h : pending.retainedBytes ≤ pendingOutputLimit) (text : List Char) :
    pending.retainedBytes + utf8Size (accepted pending text) ≤ pendingOutputLimit := by
  rw [accepted]
  by_cases htruncated : pending.truncated = true
  · rw [if_pos htruncated]
    exact h
  · have hsize := (longestPrefix_fitting (pendingOutputLimit - pending.retainedBytes : Int).toNat text).size
    rw [if_neg htruncated]
    omega

theorem appendOutput_units (pending : PendingOutput) (channel : Channel) (text : List Char) :
    (∀ other, (appendOutput pending channel (units text)).text other =
        if other = channel then pending.text other ++ units (accepted pending text) else pending.text other) ∧
      (∀ other, (appendOutput pending channel (units text)).bytes other =
        if other = channel then pending.bytes other + utf8Size text else pending.bytes other) ∧
      (appendOutput pending channel (units text)).retainedBytes = pending.retainedBytes + utf8Size (accepted pending text) ∧
      ((appendOutput pending channel (units text)).truncated = false →
        pending.truncated = false ∧ accepted pending text = text) := by
  have hclear : (pending.truncated || decide (units (accepted pending text) ≠ units text)) = false →
      pending.truncated = false ∧ accepted pending text = text := by
    intro h
    obtain ⟨htruncated, hsame⟩ := Bool.or_eq_false_iff.mp h
    exact ⟨htruncated, units_injective (Decidable.not_not.mp (of_decide_eq_false hsame))⟩
  unfold appendOutput
  rw [units_accepted]
  dsimp only
  rw [byteLength_units, byteLength_units]
  cases channel with
  | stdout | stderr =>
    refine ⟨fun other => ?_, fun other => ?_, rfl, hclear⟩
    · cases other <;> rfl
    · cases other <;> rfl

theorem Retains.append (h : Retains history pending) (houtput : happening.output = none)
    {text : List Char} (hdecoded : decodedText channel (history ++ [happening]) = decodedText channel history ++ text)
    (hothers : ∀ other, other ≠ channel → decodedText other (history ++ [happening]) = decodedText other history) :
    Retains (history ++ [happening]) (appendOutput pending channel (units text)) := by
  obtain ⟨hsince, ⟨kept, hkept, hretained⟩, hbytes, hroom⟩ := h
  obtain ⟨htext, hcounts, hadded, hclear⟩ := appendOutput_units pending channel text
  have hproduced : ∀ other, produced other (history ++ [happening]) =
      if other = channel then produced other history ++ text else produced other history := by
    intro other
    rw [produced, produced, untilPoll_silent houtput]
    by_cases hother : other = channel
    · rw [if_pos hother, hother, hdecoded, List.drop_append_of_le_length (hsince channel)]
    · rw [if_neg hother, hothers other hother]
  refine ⟨fun other => ?_,
    ⟨fun other => if other = channel then kept other ++ accepted pending text else kept other, fun other => ?_, ?_⟩,
    fun other => ?_, ?_⟩
  · rw [untilPoll_silent houtput]
    by_cases hother : other = channel
    · rw [hother, hdecoded, List.length_append]
      exact (hsince channel).trans (Nat.le_add_right _ _)
    · rw [hothers other hother]
      exact hsince other
  · obtain ⟨hheld, hinit, hwhole⟩ := hkept other
    dsimp only
    rw [htext, hproduced, hheld]
    by_cases hother : other = channel
    · rw [if_pos hother, if_pos hother, if_pos hother, units_append]
      refine ⟨rfl, ?_, fun hfalse => ?_⟩
      · by_cases htruncated : pending.truncated = true
        · rw [accepted, if_pos htruncated, List.append_nil]
          exact hinit.trans (List.prefix_append _ _)
        · rw [hwhole (Bool.eq_false_iff.mpr htruncated)]
          exact (List.prefix_append_right_inj _).mpr (accepted_isPrefix pending text)
      · rw [hwhole (hclear hfalse).1, (hclear hfalse).2]
    · rw [if_neg hother, if_neg hother, if_neg hother]
      exact ⟨rfl, hinit, fun hfalse => hwhole (hclear hfalse).1⟩
  · dsimp only
    rw [hadded, hretained]
    cases channel with
    | stdout | stderr =>
      rw [if_pos rfl, if_neg Channel.noConfusion, utf8Size_append]
      omega
  · rw [hcounts, hproduced, hbytes other]
    by_cases hother : other = channel
    · rw [if_pos hother, if_pos hother, utf8Size_append]
    · rw [if_neg hother, if_neg hother]
  · rw [hadded]
    exact accepted_size hroom text

end Output

section Steps

variable {registry : Registry} {facts : List Fact} {processId : ProcessId}

def Retaining (registry : Registry) (facts : List Fact) : Prop :=
  ∀ processId entry, registry.processes processId = some entry → Retains (happenings processId facts) entry.output

theorem Retaining.within {change : Entry → Option Change} (h : Retaining registry facts)
    (hchange : ∀ entry changed more, registry.processes processId = some entry → change entry = some (changed, more) →
      Retains (happenings processId facts ++ more) changed.output) :
    Retaining (registry.within processId change).1 (facts ++ (registry.within processId change).2) := by
  rw [Registry.within]
  split
  · rw [List.append_nil]
    exact h
  · next changed more hsome =>
      obtain ⟨entry, hentry, hchanged⟩ := Option.bind_eq_some_iff.mp hsome
      intro other found hfound
      rw [happenings_append]
      by_cases hother : other = processId
      · subst hother
        rw [happenings_map_self, ← Option.some.inj (set_self.symm.trans hfound)]
        exact hchange entry changed more hentry hchanged
      · rw [happenings_map_other (Ne.symm hother), List.append_nil]
        exact h other found ((set_other hother).symm.trans hfound)

theorem Retaining.step (hkept : Kept registry facts) (h : Retaining registry facts) (event : Event) :
    Retaining (step registry event).1 (facts ++ (step registry event).2) := by
  cases event with
  | start nanos =>
    rw [ProcessRegistry.step, List.append_nil, Registry.start]
    split
    · exact h
    · intro other entry hentry
      by_cases hother : other = ⟨registry.incarnation, registry.nextId⟩
      · have hnone := hkept.fresh registry.nextId (Nat.le_refl _)
        rw [← hother] at hnone hentry
        rw [← Option.some.inj (set_self.symm.trans hentry)]
        have hquiet := ((hkept.tracked other).absent hnone).1
        have hdecoded := fun channel => (decodedText_quiet hquiet channel).2.2
        have huntil : untilPoll (happenings other facts) = [] := by
          refine List.rdropWhile_eq_nil_iff.mpr fun happening hmem => ?_
          rw [(silent_of_notFound (hquiet happening hmem)).1]
          rfl
        refine retains_empty (fun channel => ?_) fun channel => ?_
        · rw [produced, hdecoded, List.drop_nil]
        · rw [huntil, hdecoded]
          exact Nat.le_refl _
      · exact h other entry ((set_other hother).symm.trans hentry)
  | chunk processId channel bytes =>
    refine h.within fun entry changed more hentry hchange => ?_
    have hsound := (hkept.tracked processId).present entry hentry
    rw [Entry.drain] at hchange
    split at hchange
    · cases hchange
    · next hopen =>
        cases hchange
        have hnotEnded : hasEnded channel (happenings processId facts) = false := by rw [hsound.ended, hopen]; rfl
        refine (h processId entry hentry).append rfl ?_ fun other hother => decodedText_silent (if_neg hother.symm) rfl
        rw [decodedText_append_read hnotEnded, hsound.decoder]
  | drained processId channel succeeded =>
    refine h.within fun entry changed more hentry hchange => ?_
    have hsound := (hkept.tracked processId).present entry hentry
    rw [Entry.drained] at hchange
    split at hchange
    · cases hchange
    · next hopen =>
        cases hchange
        have hnotEnded : hasEnded channel (happenings processId facts) = false := by rw [hsound.ended, hopen]; rfl
        refine (h processId entry hentry).append rfl ?_ fun other hother => decodedText_silent rfl (decide_eq_false hother.symm)
        rw [decodedText_append_ended hnotEnded, hsound.decoder]
  | watched processId exitCode =>
    refine h.within fun entry changed more hentry hchange => ?_
    rw [Entry.watched] at hchange
    split at hchange
    · cases hchange
    · cases hchange
      exact (h processId entry hentry).silent rfl fun channel => decodedText_silent rfl rfl
  | mark processId =>
    refine h.within fun entry changed more hentry hchange => ?_
    rw [Entry.mark] at hchange
    split at hchange
    · cases hchange
    · split at hchange
      · cases hchange
        rw [List.append_nil]
        exact (h processId entry hentry).mark
      · cases hchange
  | settle processId nanos =>
    refine h.within fun entry changed more hentry hchange => ?_
    rw [Entry.settle] at hchange
    split at hchange
    · split at hchange
      · cases hchange
      · cases hchange
        rw [List.append_nil]
        exact h processId entry hentry
    · cases hchange
  | enter processId outputLimit =>
    rw [ProcessRegistry.step, Registry.enter]
    split
    · intro other entry hentry
      by_cases hother : other = processId
      · subst hother
        rw [happenings_concat_self]
        exact (h other entry hentry).silent rfl fun channel => decodedText_silent rfl rfl
      · rw [happenings_concat_other (Ne.symm hother)]
        exact h other entry hentry
    · next output exit hlookup =>
        intro other entry hentry
        by_cases hother : other = processId
        · subst hother
          have hover := (hkept.tracked other).terminal output exit (mem_of_lookup hlookup)
          rcases ((hkept.tracked other).present entry hentry).phase with halive | ⟨_, _, hempty, _⟩
          · exact absurd halive hover.not_alive
          · rw [happenings_concat_self, hempty]
            exact retains_returned output
        · rw [happenings_concat_other (Ne.symm hother)]
          exact h other entry hentry
    · refine h.within fun entry changed more hentry hchange => ?_
      rw [Entry.enter] at hchange
      split at hchange
      · cases hchange
      · cases hchange
        rw [List.append_nil]
        exact h processId entry hentry
  | look processId =>
    refine h.within fun entry changed more hentry hchange => ?_
    rw [Entry.look] at hchange
    split at hchange
    · split at hchange
      · cases hchange
        rw [List.append_nil]
        exact h processId entry hentry
      · cases hchange
        rw [List.append_nil]
        exact h processId entry hentry
      · cases hchange
        exact (h processId entry hentry).silent rfl fun channel => decodedText_silent rfl rfl
    · cases hchange
    · cases hchange
  | take processId nanos =>
    rw [ProcessRegistry.step, Registry.take]
    split
    · rw [List.append_nil]
      exact h
    next entry hentry =>
    split
    · next outputLimit exit hadmission =>
        generalize pollOutput processId entry outputLimit exit nanos = output
        intro other found hfound
        by_cases hother : other = processId
        · subst hother
          rw [happenings_concat_self, ← Option.some.inj (set_self.symm.trans hfound)]
          exact retains_returned output
        · rw [happenings_concat_other (Ne.symm hother)]
          exact h other found ((set_other hother).symm.trans hfound)
    · rw [List.append_nil]
      exact h
    · rw [List.append_nil]
      exact h
  | leave processId =>
    refine h.within fun entry changed more hentry hchange => ?_
    cases hchange
    rw [List.append_nil]
    exact h processId entry hentry
  | close =>
    rw [ProcessRegistry.step, List.append_nil]
    intro other entry hentry
    obtain ⟨before, hbefore, rfl⟩ := Option.map_eq_some_iff.mp hentry
    have hretains := h other before hbefore
    split
    · exact hretains
    · exact hretains

end Steps

section Eviction

variable {registry : Registry} {facts : List Fact} {processId : ProcessId}

/-- The outputs of finished processes that are retained, in the order of the entries. -/
def finished (states : States) : List (ProcessId × Output) :=
  states.filterMap fun state =>
    match state.2 with
    | .active => none
    | .terminal output _ => some (state.1, output)

def addExit (known : List (ProcessId × Output)) (fact : Fact) : List (ProcessId × Output) :=
  match fact.happening.output with
  | none => known
  | some output =>
    if output.running || known.any (fun exit => exit.1 = fact.processId) then known else known ++ [(fact.processId, output)]

/-- The processes whose exit polls returned, in this order, each with the output that was the first to tell it. -/
def exited (facts : List Fact) : List (ProcessId × Output) := facts.foldl addExit []

theorem exited_concat (facts : List Fact) (fact : Fact) : exited (facts ++ [fact]) = addExit (exited facts) fact :=
  List.foldl_concat addExit [] fact facts

theorem mem_addExit {known : List (ProcessId × Output)} {fact : Fact} : processId ∈ (addExit known fact).map Prod.fst ↔
    processId ∈ known.map Prod.fst ∨
      fact.processId = processId ∧ ∃ output, fact.happening.output = some output ∧ output.running = false := by
  rw [addExit]
  cases houtput : fact.happening.output with
  | none =>
    refine ⟨.inl, fun h => h.resolve_right ?_⟩
    rintro ⟨-, _, hnone, -⟩
    cases hnone
  | some output =>
    dsimp only
    cases hrunning : output.running with
    | true =>
      rw [Bool.true_or, if_pos rfl]
      refine ⟨.inl, fun h => h.resolve_right ?_⟩
      rintro ⟨-, _, heq, hfalse⟩
      rw [← Option.some.inj heq, hrunning] at hfalse
      cases hfalse
    | false =>
      rw [Bool.false_or]
      by_cases hknown : known.any (fun exit => exit.1 = fact.processId) = true
      · rw [if_pos hknown]
        refine ⟨.inl, fun h => h.elim id ?_⟩
        rintro ⟨rfl, -⟩
        obtain ⟨exit, hexit, hid⟩ := List.any_eq_true.mp hknown
        rw [← of_decide_eq_true hid]
        exact List.mem_map_of_mem hexit
      · rw [if_neg hknown, List.map_append, List.mem_append]
        refine or_congr_right ?_
        rw [List.map_singleton, List.mem_singleton]
        exact ⟨fun h => ⟨h.symm, output, rfl, hrunning⟩, fun h => h.1.symm⟩

theorem alive_append {history more : List Happening} : Alive (history ++ more) ↔ Alive history ∧ Alive more := by
  rw [Alive, returned_append]
  exact List.forall_mem_append

theorem mem_exited : processId ∈ (exited facts).map Prod.fst ↔ ¬ Alive (happenings processId facts) := by
  induction facts using List.reverseRecOn with
  | nil => exact ⟨nofun, fun h => absurd (nofun) h⟩
  | append_singleton facts fact ih =>
    obtain ⟨told, happening⟩ := fact
    rw [exited_concat, mem_addExit, ih]
    by_cases hfact : told = processId
    · subst hfact
      rw [happenings_concat_self, alive_append, not_and_or, and_iff_right rfl]
      refine or_congr_right ?_
      rw [Alive, returned, List.filterMap_cons, List.filterMap_nil]
      cases happening.output with
      | none => simp
      | some output => simp
    · rw [happenings_concat_other hfact]
      exact ⟨fun h => h.resolve_right fun h => hfact h.1, .inl⟩

theorem exited_silent {more : List Happening} (h : returned more = []) : exited (facts ++ more.map (Fact.mk processId)) = exited facts := by
  induction more generalizing facts with
  | nil => rw [List.map_nil, List.append_nil]
  | cons happening more ih =>
    rw [returned, List.filterMap_cons] at h
    cases houtput : happening.output with
    | some output =>
      rw [houtput] at h
      cases h
    | none =>
      rw [houtput] at h
      have hsplit : facts ++ (happening :: more).map (Fact.mk processId) =
          facts ++ [⟨processId, happening⟩] ++ more.map (Fact.mk processId) := by
        rw [List.append_assoc]
        rfl
      rw [hsplit, ih h, exited_concat, addExit, houtput]

theorem finished_append (states others : States) : finished (states ++ others) = finished states ++ finished others :=
  List.filterMap_append

theorem terminalCount_eq (states : States) : terminalCount states = (finished states).length := by
  induction states with
  | nil => rfl
  | cons state states ih =>
    obtain ⟨id, active | ⟨output, exit⟩⟩ := state
    · rw [terminalCount, List.countP_cons_of_neg (by simp)]
      exact ih
    · rw [terminalCount, List.countP_cons_of_pos (by simp)]
      exact congrArg (· + 1) ih

variable {count : Nat} {states : States} {output : Output} {exit : ProcessExit}

theorem finished_forget (h : terminalOutputLimit < count) :
    finished (forget count states) = (finished states).drop (count - terminalOutputLimit) := by
  induction states generalizing count with
  | nil => exact List.drop_nil.symm
  | cons state states ih =>
    obtain ⟨id, active | ⟨output, exit⟩⟩ := state
    · exact ih h
    · have hcount : count - terminalOutputLimit = count - 1 - terminalOutputLimit + 1 := by omega
      have hcons : finished ((id, .terminal output exit) :: states) = (id, output) :: finished states := rfl
      rw [hcons, hcount, List.drop_succ_cons, forget]
      by_cases hlast : count - 1 ≤ terminalOutputLimit
      · rw [if_pos hlast, Nat.sub_eq_zero_of_le hlast, List.drop_zero]
      · rw [if_neg hlast]
        exact ih (Nat.lt_of_not_le hlast)

theorem active_forget : (processId, .active) ∈ forget count states ↔ (processId, .active) ∈ states := by
  induction states generalizing count with
  | nil => rfl
  | cons state states ih =>
    obtain ⟨id, active | ⟨output, exit⟩⟩ := state
    · rw [forget, List.mem_cons, List.mem_cons, ih]
    · rw [forget, List.mem_cons, or_iff_right (by simp)]
      split
      · rfl
      · exact ih

/-- A finished process is retained after those before it, of which the first go where there are too many. -/
theorem finished_retain (hnone : ∀ output exit, (processId, .terminal output exit) ∉ states) :
    finished (retainTerminalOutput states processId output exit) =
    (finished states ++ [(processId, output)]).rtake terminalOutputLimit := by
  have hfilter : finished (states.filter fun state => state.1 ≠ processId) = finished states := by
    induction states with
    | nil => rfl
    | cons state states ih =>
      have hrest := ih fun output exit hmem => hnone output exit (List.mem_cons_of_mem _ hmem)
      obtain ⟨id, active | ⟨output, exit⟩⟩ := state
      · rw [List.filter_cons]
        split
        · exact hrest
        · exact hrest
      · have hid : id ≠ processId := by
          rintro rfl
          exact hnone output exit List.mem_cons_self
        rw [List.filter_cons, if_pos (decide_eq_true hid)]
        exact congrArg ((id, output) :: ·) hrest
  have hnext : finished ((states.filter fun state => state.1 ≠ processId) ++ [(processId, .terminal output exit)]) =
      finished states ++ [(processId, output)] := by
    rw [finished_append, hfilter]
    rfl
  rw [retainTerminalOutput, terminalCount_eq, List.rtake, hnext]
  split
  · next hfew => rw [hnext, Nat.sub_eq_zero_of_le hfew, List.drop_zero]
  · next hmany => rw [finished_forget (Nat.lt_of_not_le hmany), hnext]

theorem active_retain {other : ProcessId} :
    (other, .active) ∈ retainTerminalOutput states processId output exit ↔ (other, .active) ∈ states ∧ other ≠ processId := by
  have hnext : (other, .active) ∈ (states.filter fun state => state.1 ≠ processId) ++ [(processId, .terminal output exit)] ↔
      (other, .active) ∈ states ∧ other ≠ processId := by
    rw [List.mem_append, or_iff_left (by simp), List.mem_filter, decide_eq_true_iff]
  rw [retainTerminalOutput]
  split
  · exact hnext
  · exact active_forget.trans hnext

theorem rtake_concat {α : Type*} (xs : List α) (x : α) (n : Nat) : (xs.rtake n ++ [x]).rtake n = (xs ++ [x]).rtake n := by
  rw [List.rtake, List.rtake, List.rtake, List.length_append, List.length_append, List.length_drop, List.length_singleton]
  by_cases hfew : xs.length ≤ n
  · rw [Nat.sub_eq_zero_of_le hfew, List.drop_zero, Nat.sub_zero]
  · rw [← List.drop_append_of_le_length (Nat.sub_le _ _), List.drop_drop]
    congr 1
    omega

/-- The entries are those of the processes that have not been seen to exit, and the last of the others. -/
structure Evicts (registry : Registry) (facts : List Fact) : Prop where
  finished : finished registry.entries = (exited facts).rtake terminalOutputLimit
  active : ∀ processId, (processId, .active) ∈ registry.entries ↔
    (registry.processes processId).isSome = true ∧ processId ∉ (exited facts).map Prod.fst

theorem Evicts.within {change : Entry → Option Change} (h : Evicts registry facts)
    (hchange : ∀ entry changed more, change entry = some (changed, more) → returned more = []) :
    Evicts (registry.within processId change).1 (facts ++ (registry.within processId change).2) := by
  rw [Registry.within]
  split
  · rw [List.append_nil]
    exact h
  · next changed more hsome =>
      obtain ⟨entry, hentry, hchanged⟩ := Option.bind_eq_some_iff.mp hsome
      have hexited := @exited_silent facts processId more (hchange entry changed more hchanged)
      refine ⟨?_, fun other => ?_⟩
      · rw [hexited]
        exact h.finished
      · rw [hexited]
        refine (h.active other).trans (and_congr_left fun _ => ?_)
        by_cases hother : other = processId
        · subst hother
          rw [set_self, hentry]
          exact Iff.rfl
        · rw [set_other hother]

section

variable (hkept : Kept registry facts) (h : Evicts registry facts)

include hkept h

theorem Evicts.start (nanos : Nat) : Evicts (registry.start nanos) facts := by
  rw [Registry.start]
  split
  · exact h
  · refine ⟨?_, fun other => ?_⟩
    · exact (finished_append registry.entries _).trans ((List.append_nil _).trans h.finished)
    · rw [List.mem_append, h.active other]
      by_cases hother : other = ⟨registry.incarnation, registry.nextId⟩
      · have hnone : registry.processes other = none := hother ▸ hkept.fresh registry.nextId (Nat.le_refl _)
        have halive := alive_quiet ((hkept.tracked other).absent hnone).1
        rw [← hother]
        dsimp only
        rw [set_self, mem_exited]
        exact ⟨fun _ => ⟨rfl, not_not_intro halive⟩, fun _ => .inr (List.mem_singleton_self _)⟩
      · dsimp only
        rw [set_other hother, or_iff_left]
        intro hmem
        exact hother (congrArg Prod.fst (List.mem_singleton.mp hmem))

theorem Evicts.take (nanos : Nat) :
    Evicts (registry.take processId nanos).1 (facts ++ (registry.take processId nanos).2) := by
  rw [Registry.take]
  split
  · rw [List.append_nil]
    exact h
  next entry hentry =>
  split
  · next outputLimit exit hadmission =>
      have hsound := (hkept.tracked processId).present entry hentry
      have halive : Alive (happenings processId facts) := hsound.admitted (by rw [hadmission]; rfl)
      have hrunning : (pollOutput processId entry outputLimit exit nanos).running = exit.isNone := rfl
      generalize pollOutput processId entry outputLimit exit nanos = output at hrunning
      have hstarted : ∀ other, ((registry.set processId entry.taken).processes other).isSome = (registry.processes other).isSome := by
        intro other
        by_cases hother : other = processId
        · rw [hother, set_self, hentry]
          rfl
        · rw [set_other hother]
      have hunknown : processId ∉ (exited facts).map Prod.fst := fun hmem => mem_exited.mp hmem halive
      have hexited : exited (facts ++ [⟨processId, .returned output⟩]) =
          if output.running || (exited facts).any (fun exit => exit.1 = processId) then exited facts
          else exited facts ++ [(processId, output)] := exited_concat _ _
      cases exit with
      | none =>
        rw [hrunning, Option.isNone_none, Bool.true_or, if_pos rfl] at hexited
        refine ⟨?_, fun other => ?_⟩
        · rw [hexited]
          exact h.finished
        · rw [hexited, hstarted other]
          exact h.active other
      | some exit =>
        have hnew : (exited facts).any (fun known => known.1 = processId) = false := by
          refine List.any_eq_false.mpr fun known hknown hid => hunknown ?_
          rw [← of_decide_eq_true hid]
          exact List.mem_map_of_mem hknown
        have hnone : ∀ output exit, (processId, .terminal output exit) ∉ registry.entries := fun last lastExit hmem =>
          ((hkept.tracked processId).terminal last lastExit hmem).not_alive halive
        rw [hrunning, hnew, Option.isNone_some, Bool.or_false, if_neg Bool.false_ne_true] at hexited
        refine ⟨?_, fun other => ?_⟩
        · rw [hexited, ← rtake_concat, ← h.finished]
          exact finished_retain hnone
        · rw [hexited, hstarted other, List.map_append, List.mem_append, not_or, ← and_assoc, ← h.active other]
          refine active_retain.trans (and_congr_right fun _ => not_congr ?_)
          exact List.mem_singleton.symm
  · rw [List.append_nil]
    exact h
  · rw [List.append_nil]
    exact h

theorem Evicts.enter (outputLimit : Int) :
    Evicts (registry.enter processId outputLimit).1 (facts ++ (registry.enter processId outputLimit).2) := by
  rw [Registry.enter]
  split
  · have hexited : exited (facts ++ [⟨processId, .notFound (unknown processId)⟩]) = exited facts := by
      rw [exited_concat]
      rfl
    refine ⟨?_, fun other => ?_⟩
    · rw [hexited]
      exact h.finished
    · rw [hexited]
      exact h.active other
  · next output exit hlookup =>
      have hover := (hkept.tracked processId).terminal output exit (mem_of_lookup hlookup)
      have hknown : processId ∈ (exited facts).map Prod.fst := mem_exited.mpr hover.not_alive
      have hexited : exited (facts ++ [⟨processId, .returned output⟩]) = exited facts := by
        obtain ⟨known, hmem, hid⟩ := List.mem_map.mp hknown
        rw [exited_concat, addExit]
        dsimp only [Happening.output]
        rw [List.any_eq_true.mpr ⟨known, hmem, decide_eq_true hid⟩, Bool.or_true, if_pos rfl]
      refine ⟨?_, fun other => ?_⟩
      · rw [hexited]
        exact h.finished
      · rw [hexited]
        exact h.active other
  · exact h.within fun entry changed more hchange => returned_enter hchange

theorem Evicts.step {event : Event} (hopen : event ≠ .close) :
    Evicts (step registry event).1 (facts ++ (step registry event).2) := by
  cases event with
  | start nanos =>
    have hstart := h.start hkept nanos
    rwa [← List.append_nil facts] at hstart
  | chunk processId channel bytes => exact h.within fun _ _ _ => returned_drain
  | drained processId channel succeeded => exact h.within fun _ _ _ => returned_drained
  | watched processId exitCode => exact h.within fun _ _ _ => returned_watched
  | mark processId => exact h.within fun _ _ _ => returned_mark
  | settle processId nanos => exact h.within fun _ _ _ => returned_settle
  | enter processId outputLimit => exact h.enter hkept outputLimit
  | look processId => exact h.within fun _ _ _ => returned_look
  | take processId nanos => exact h.take hkept nanos
  | leave processId => exact h.within fun _ _ _ => returned_leave
  | close => exact absurd rfl hopen

end

end Eviction

section Runs

/-- What a registry retains of the processes it was told of. -/
structure Retention (registry : Registry) (facts : List Fact) : Prop where
  limit : ∀ processId entry, registry.processes processId = some entry →
    byteLength entry.output.stdout + byteLength entry.output.stderr ≤ pendingOutputLimit
  first : ∀ processId entry, registry.processes processId = some entry → ∀ channel,
    entry.output.text channel <+: units (produced channel (happenings processId facts))
  whole : ∀ processId entry, registry.processes processId = some entry → entry.output.truncated = false → ∀ channel,
    entry.output.text channel = units (produced channel (happenings processId facts))
  bytes : ∀ processId entry, registry.processes processId = some entry → ∀ channel,
    entry.output.bytes channel = utf8Size (produced channel (happenings processId facts))
  terminals : terminalCount registry.entries ≤ terminalOutputLimit
  active : ∀ processId, (processId, .active) ∈ registry.entries ↔
    (registry.processes processId).isSome = true ∧ processId ∉ (exited facts).map Prod.fst
  oldest : finished registry.entries = (exited facts).rtake terminalOutputLimit

theorem retention_of {registry : Registry} {facts : List Fact} (h : Retaining registry facts) (hevicts : Evicts registry facts) :
    Retention registry facts := by
  refine ⟨fun processId entry hentry => ?_, fun processId entry hentry channel => ?_, fun processId entry hentry hclear channel => ?_,
    fun processId entry hentry => (h processId entry hentry).bytes, ?_, hevicts.active, hevicts.finished⟩
  · obtain ⟨-, ⟨kept, hkept, hretained⟩, -, hroom⟩ := h processId entry hentry
    have hstdout : entry.output.stdout = units (kept .stdout) := (hkept .stdout).1
    have hstderr : entry.output.stderr = units (kept .stderr) := (hkept .stderr).1
    rw [hstdout, hstderr, byteLength_units, byteLength_units, ← hretained]
    exact hroom
  · obtain ⟨kept, hkept, -⟩ := (h processId entry hentry).kept
    obtain ⟨htext, ⟨rest, hrest⟩, -⟩ := hkept channel
    rw [htext, ← hrest, units_append]
    exact List.prefix_append _ _
  · obtain ⟨kept, hkept, -⟩ := (h processId entry hentry).kept
    obtain ⟨htext, -, hall⟩ := hkept channel
    rw [htext, hall hclear]
  · rw [terminalCount_eq, hevicts.finished, List.rtake, List.length_drop]
    omega

/-- In every run each process holds what came first since its last poll, and the oldest exits are forgotten. -/
theorem retention_run (incarnation : Int × Int) {events : List Event} (h : Event.close ∉ events) :
    Retention (run incarnation events).1 (run incarnation events).2 := by
  have hruns : ∀ (history : Registry × List Fact), Kept history.1 history.2 → Retaining history.1 history.2 →
      Evicts history.1 history.2 →
        Retaining (events.foldl advance history).1 (events.foldl advance history).2 ∧
          Evicts (events.foldl advance history).1 (events.foldl advance history).2 := by
    induction events with
    | nil => exact fun _ _ hretaining hevicts => ⟨hretaining, hevicts⟩
    | cons event events ih =>
      intro history hkept hretaining hevicts
      rw [List.mem_cons, not_or] at h
      exact ih h.2 (advance history event) (hkept.step event) (hretaining.step hkept event)
        (hevicts.step hkept (Ne.symm h.1))
  have hstart : Evicts (Registry.empty incarnation) [] :=
    ⟨rfl, fun _ => ⟨nofun, fun hsome => absurd hsome.1 Bool.false_ne_true⟩⟩
  obtain ⟨hretaining, hevicts⟩ := hruns (Registry.empty incarnation, []) (kept_run incarnation [])
    (fun _ _ hentry => by cases hentry) hstart
  exact retention_of hretaining hevicts

theorem retention_run_sample : Retention
    (run (0, 0) [.start 0, .chunk ⟨(0, 0), 1⟩ .stdout [104, 105], .enter ⟨(0, 0), 1⟩ 64, .look ⟨(0, 0), 1⟩]).1
    (run (0, 0) [.start 0, .chunk ⟨(0, 0), 1⟩ .stdout [104, 105], .enter ⟨(0, 0), 1⟩ 64, .look ⟨(0, 0), 1⟩]).2 :=
  retention_run (0, 0) (by simp)

end Runs

end Rika.ProcessRegistry
