import Rika.BoundedResults
import Rika.OutputRuns

namespace Rika.ProcessRegistry

open NativeRuntime (Result boundResult)
open WideText (Units units)

def joinOutputs (first terminal : Output) : Output :=
  { terminal with
    stdout := first.stdout ++ terminal.stdout
    stderr := first.stderr ++ terminal.stderr
    truncated := first.truncated || terminal.truncated }

/-- The blanks that `trim` removes. -/
def isBlank (unit : UInt16) : Bool :=
  unit.toNat ∈ [9, 10, 11, 12, 13, 32, 0xA0, 0x1680, 0x2028, 0x2029, 0x202F, 0x205F, 0x3000, 0xFEFF] ||
    0x2000 ≤ unit.toNat && unit.toNat ≤ 0x200A

def trim (text : Units) : Units := ((text.dropWhile isBlank).reverse.dropWhile isBlank).reverse

def exitText (exitCode : Option Int) : Units :=
  match exitCode with
  | none => []
  | some code => if code = 0 then [] else units ("\nexit ".toList ++ (toString code).toList)

def bashResult (output : Output) : Result :=
  { text := trim (output.stdout ++ output.stderr ++ exitText output.exitCode)
    truncated := output.truncated
    running := some output.running
    processId := some (units output.processId.text.toList)
    exitCode := output.exitCode
    elapsedMillis := some output.elapsedMillis
    stdout := none
    stderr := none
    diff := none }

inductive Stage
  | polling
  | observing (first : Output)
  | pollingAgain (first : Output)
  | done (output : Output)
  | failed

def Stage.next : Stage → Output → Stage
  | .polling, output => if output.running then .observing output else .done output
  | .pollingAgain first, output => .done (joinOutputs first output)
  | .observing first, _ => .observing first
  | .done output, _ => .done output
  | .failed, _ => .failed

def Stage.polls : Stage → Bool
  | .polling | .pollingAgain _ => true
  | .observing _ | .done _ | .failed => false

def Event.polls (processId : ProcessId) : Event → Bool
  | .enter other _ | .look other | .take other _ | .leave other => other = processId
  | .start _ | .chunk _ _ _ | .drained _ _ _ | .watched _ _ | .mark _ | .settle _ _ | .close => false

def Event.leaves (processId : ProcessId) : Event → Bool
  | .leave other => other = processId
  | .start _ | .chunk _ _ _ | .drained _ _ _ | .watched _ _ | .mark _ | .settle _ _ | .enter _ _ | .look _ | .take _ _
  | .close => false

structure Bash where
  history : Registry × List Fact
  stage : Stage

inductive BashEvent
  | registry (event : Event)
  | observe

def Stage.sees (stage : Stage) : Happening → Stage
  | .returned output => stage.next output
  | .notFound _ => .failed
  | .read _ _ | .ended _ _ | .watched _ => stage

def bashStep (processId : ProcessId) (state : Bash) : BashEvent → Bash
  | .registry event =>
    if event.polls processId && (!state.stage.polls || event.leaves processId) then state
    else
      { history := advance state.history event
        stage := (happenings processId (step state.history.1 event).2).foldl Stage.sees state.stage }
  | .observe =>
    match state.stage, state.history.1.observe processId with
    | .observing first, some (.ok _) => { state with stage := .pollingAgain first }
    | .observing _, some (.error _) => { state with stage := .failed }
    | _, _ => state

section Calls

variable {registry : Registry} {facts : List Fact} {processId : ProcessId}

/-- What does not poll a process leaves its permit, and its exit once that is known. -/
structure Spares (entry changed : Entry) (more : List Happening) : Prop where
  admission : changed.admission = entry.admission
  exit : ∀ exit, entry.exit = some (.ok exit) → changed.exit = some (.ok exit)
  quiet : ∀ happening ∈ more, happening.output = none ∧ ∀ error, happening ≠ .notFound error

variable {change : Entry → Option Change} {other : ProcessId} {entry changed : Entry} {event : Event}
    {history more : List Happening} {stage : Stage}

theorem within_at (P : Entry → List Happening → Prop) (hentry : registry.processes processId = some entry) (hsame : P entry [])
    (hchange : other = processId → ∀ changed more, change entry = some (changed, more) → P changed more) :
    ∃ changed, (registry.within other change).1.processes processId = some changed ∧
      P changed (happenings processId (registry.within other change).2) := by
  rw [Registry.within]
  split
  · exact ⟨entry, hentry, hsame⟩
  · next changed more hsome =>
      by_cases hother : other = processId
      · subst hother
        rw [hentry] at hsome
        refine ⟨changed, Function.update_self _ _ _, ?_⟩
        rw [happenings_map_self]
        exact hchange rfl changed more hsome
      · refine ⟨entry, (Function.update_of_ne (Ne.symm hother) _ _).trans hentry, ?_⟩
        rw [happenings_map_other hother]
        exact hsame

theorem Spares.same (entry : Entry) : Spares entry entry [] :=
  ⟨rfl, fun _ h => h, nofun⟩

theorem spares_append {channel : Channel} {text : Units} {drain : Drain} {happening : Happening}
    (houtput : happening.output = none) (hfound : ∀ error, happening ≠ .notFound error) :
    Spares entry (entry.append channel text drain) [happening] := by
  refine ⟨rfl, fun _ h => h, fun other hmem => ?_⟩
  rw [List.mem_singleton.mp hmem]
  exact ⟨houtput, hfound⟩

theorem step_spares (h : Kept registry facts) (hentry : registry.processes processId = some entry)
    (hpolls : event.polls processId = false) :
    ∃ changed, (step registry event).1.processes processId = some changed ∧
      Spares entry changed (happenings processId (step registry event).2) := by
  have hnone : ∀ happening ∈ ([] : List Happening), happening.output = none ∧ ∀ error, happening ≠ .notFound error :=
    nofun
  cases event with
  | start nanos =>
    rw [step, Registry.start]
    split
    · exact ⟨entry, hentry, .same entry⟩
    · have hne : processId ≠ ⟨registry.incarnation, registry.nextId⟩ := by
        intro heq
        have hfresh := h.fresh registry.nextId (Nat.le_refl _)
        rw [← heq, hentry] at hfresh
        cases hfresh
      exact ⟨entry, (Function.update_of_ne hne _ _).trans hentry, .same entry⟩
  | chunk other channel bytes =>
    refine within_at (Spares entry) hentry (.same entry) fun _ changed more hchange => ?_
    rw [Entry.drain] at hchange
    split at hchange <;> cases hchange
    exact spares_append rfl fun error heq => by cases heq
  | drained other channel succeeded =>
    refine within_at (Spares entry) hentry (.same entry) fun _ changed more hchange => ?_
    rw [Entry.drained] at hchange
    split at hchange <;> cases hchange
    exact spares_append rfl fun error heq => by cases heq
  | watched other exitCode =>
    refine within_at (Spares entry) hentry (.same entry) fun _ changed more hchange => ?_
    rw [Entry.watched] at hchange
    split at hchange <;> cases hchange
    refine ⟨rfl, fun _ h => h, fun happening hmem => ?_⟩
    rw [List.mem_singleton.mp hmem]
    exact ⟨rfl, fun error heq => by cases heq⟩
  | mark other =>
    refine within_at (Spares entry) hentry (.same entry) fun _ changed more hchange => ?_
    rw [Entry.mark] at hchange
    split at hchange
    · cases hchange
    · split at hchange <;> cases hchange
      exact ⟨rfl, fun _ h => h, hnone⟩
  | settle other nanos =>
    refine within_at (Spares entry) hentry (.same entry) fun _ changed more hchange => ?_
    rw [Entry.settle] at hchange
    split at hchange
    · next hexit =>
        split at hchange <;> cases hchange
        refine ⟨rfl, fun exit hsome => ?_, hnone⟩
        rw [hexit] at hsome
        cases hsome
    · cases hchange
  | enter other outputLimit =>
    have hother : other ≠ processId := of_decide_eq_false hpolls
    rw [step, Registry.enter]
    split
    · refine ⟨entry, hentry, ?_⟩
      rw [← List.map_singleton, happenings_map_other hother]
      exact .same entry
    · refine ⟨entry, hentry, ?_⟩
      rw [← List.map_singleton, happenings_map_other hother]
      exact .same entry
    · exact within_at (Spares entry) hentry (.same entry) fun heq => absurd heq hother
  | look other => exact within_at (Spares entry) hentry (.same entry) fun heq => absurd heq (of_decide_eq_false hpolls)
  | take other nanos =>
    have hother : other ≠ processId := of_decide_eq_false hpolls
    rw [step, Registry.take]
    split
    · exact ⟨entry, hentry, .same entry⟩
    · split
      · refine ⟨entry, (Function.update_of_ne (Ne.symm hother) _ _).trans hentry, rfl, fun _ h => h, fun happening hmem => ?_⟩
        simp [happenings, hother] at hmem
      · exact ⟨entry, hentry, .same entry⟩
      · exact ⟨entry, hentry, .same entry⟩
  | leave other => exact within_at (Spares entry) hentry (.same entry) fun heq => absurd heq (of_decide_eq_false hpolls)
  | close =>
    refine ⟨_, congrArg (Option.map _) hentry, ?_⟩
    split
    · refine ⟨rfl, fun exit hsome => ?_, hnone⟩
      exact (congrArg (Option.or · _) hsome).trans rfl
    · exact ⟨rfl, fun _ h => h, hnone⟩

/-- What a step of a poll does to the process it polls. -/
inductive Polled (history : List Happening) (entry changed : Entry) : List Happening → Prop
  | quiet (hexit : changed.exit = entry.exit)
      (hadmission : ∀ outputLimit, changed.admission = some (.looked outputLimit none) →
        entry.admission = some (.looked outputLimit none) ∨ entry.exit = none) : Polled history entry changed []
  | notFound (error : ProcessNotFound) : Polled history entry changed [.notFound error]
  | again (output : Output) (hover : Over history output) : Polled history entry changed [.returned output]
  | taken (output : Output) (outputLimit : Int) (exit : Option ProcessExit)
      (hadmission : entry.admission = some (.looked outputLimit exit)) (hrunning : output.running = exit.isNone)
      (hleft : changed.admission = none) : Polled history entry changed [.returned output]

theorem Polled.same (entry : Entry) : Polled history entry entry [] :=
  .quiet rfl fun _ h => Or.inl h

theorem happenings_singleton (processId : ProcessId) (happening : Happening) :
    happenings processId [⟨processId, happening⟩] = [happening] :=
  happenings_map_self processId [happening]

theorem step_polled (h : Kept registry facts) (hentry : registry.processes processId = some entry)
    (hpolls : event.polls processId = true) :
    ∃ changed, (step registry event).1.processes processId = some changed ∧
      Polled (happenings processId facts) entry changed (happenings processId (step registry event).2) := by
  cases event with
  | start | chunk | drained | watched | mark | settle | close => cases hpolls
  | enter other outputLimit =>
    obtain rfl : other = processId := of_decide_eq_true hpolls
    rw [step, Registry.enter]
    split
    · refine ⟨entry, hentry, ?_⟩
      rw [happenings_singleton]
      exact .notFound _
    · next output exit hlookup =>
        refine ⟨entry, hentry, ?_⟩
        rw [happenings_singleton]
        exact .again output ((h.tracked other).terminal output exit (mem_of_lookup hlookup))
    · refine within_at (Polled (happenings _ facts) entry) hentry (.same entry) fun _ changed more hchange => ?_
      rw [Entry.enter] at hchange
      split at hchange <;> cases hchange
      refine .quiet rfl fun limit hlooked => ?_
      cases hlooked
  | look other =>
    obtain rfl : other = processId := of_decide_eq_true hpolls
    refine within_at (Polled (happenings _ facts) entry) hentry (.same entry) fun _ changed more hchange => ?_
    rw [Entry.look] at hchange
    split at hchange
    · split at hchange
      · next hexit =>
          cases hchange
          exact .quiet rfl fun _ _ => Or.inr hexit
      · cases hchange
        refine .quiet rfl fun limit hlooked => ?_
        cases hlooked
      · cases hchange
        exact .notFound _
    · cases hchange
    · cases hchange
  | take other nanos =>
    obtain rfl : other = processId := of_decide_eq_true hpolls
    rw [step, Registry.take, hentry]
    simp only
    split
    · next outputLimit exit hadmission =>
        refine ⟨entry.taken, Function.update_self _ _ _, ?_⟩
        rw [happenings_singleton]
        exact .taken _ outputLimit exit hadmission rfl rfl
    · exact ⟨entry, hentry, Polled.same entry⟩
    · exact ⟨entry, hentry, Polled.same entry⟩
  | leave other =>
    obtain rfl : other = processId := of_decide_eq_true hpolls
    refine within_at (Polled (happenings _ facts) entry) hentry (.same entry) fun _ changed more hchange => ?_
    cases hchange
    refine .quiet rfl fun limit hlooked => ?_
    cases hlooked

def Stage.Agrees (history : List Happening) (entry : Entry) : Stage → Prop
  | .polling => returned history = []
  | .observing first => returned history = [first] ∧ first.running = true ∧ entry.admission = none
  | .pollingAgain first => returned history = [first] ∧ first.running = true ∧ (∃ exit, entry.exit = some (.ok exit)) ∧
      ∀ outputLimit, entry.admission ≠ some (.looked outputLimit none)
  | .done output => output.running = false ∧ (returned history = [output] ∨
      ∃ first terminal, first.running = true ∧ returned history = [first, terminal] ∧ output = joinOutputs first terminal)
  | .failed => True

structure Bash.Sound (processId : ProcessId) (state : Bash) : Prop where
  kept : Kept state.history.1 state.history.2
  agrees : state.stage = .failed ∨ ∃ entry, state.history.1.processes processId = some entry ∧
    state.stage.Agrees (happenings processId state.history.2) entry

theorem Stage.Agrees.spares
    (h : stage.Agrees history entry) (hspares : Spares entry changed more) : stage.Agrees (history ++ more) changed := by
  have hreturned : returned (history ++ more) = returned history := by
    have hnone : returned more = [] := List.filterMap_eq_nil_iff.mpr fun happening hmem => (hspares.quiet happening hmem).1
    rw [returned_append, hnone, List.append_nil]
  cases stage with
  | polling => exact hreturned.trans h
  | observing first => exact ⟨hreturned.trans h.1, h.2.1, hspares.admission.trans h.2.2⟩
  | pollingAgain first =>
    obtain ⟨hfirst, hrunning, ⟨exit, hexit⟩, hlooked⟩ := h
    refine ⟨hreturned.trans hfirst, hrunning, ⟨exit, hspares.exit exit hexit⟩, fun outputLimit => ?_⟩
    rw [hspares.admission]
    exact hlooked outputLimit
  | done output =>
    rw [Stage.Agrees, hreturned]
    exact h
  | failed => trivial

theorem foldl_sees_quiet (h : ∀ happening ∈ more, happening.output = none ∧ ∀ error, happening ≠ .notFound error)
    (stage : Stage) : more.foldl Stage.sees stage = stage := by
  induction more with
  | nil => rfl
  | cons happening more ih =>
    obtain ⟨houtput, hfound⟩ := h happening List.mem_cons_self
    have hsees : stage.sees happening = stage := by
      cases happening with
      | read | ended | watched => rfl
      | returned output => cases houtput
      | notFound error => exact absurd rfl (hfound error)
    rw [List.foldl_cons, hsees]
    exact ih fun other hother => h other (List.mem_cons_of_mem _ hother)

theorem Stage.Agrees.polled
    (h : stage.Agrees history entry) (hpolls : stage.polls = true) (hpolled : Polled history entry changed more) :
    (more.foldl Stage.sees stage).Agrees (history ++ more) changed := by
  cases hpolled with
  | notFound error => trivial
  | quiet hexit hadmission =>
    rw [List.append_nil]
    cases stage with
    | polling => exact h
    | pollingAgain first =>
      obtain ⟨hfirst, hrunning, ⟨exit, hsome⟩, hlooked⟩ := h
      refine ⟨hfirst, hrunning, ⟨exit, hexit.trans hsome⟩, fun outputLimit hlook => ?_⟩
      rcases hadmission outputLimit hlook with hbefore | hnone
      · exact hlooked outputLimit hbefore
      · rw [hsome] at hnone
        cases hnone
    | observing | done | failed => cases hpolls
  | again output hover =>
    have hmem := hover.mem
    cases stage with
    | polling =>
      rw [show returned history = [] from h] at hmem
      cases hmem
    | pollingAgain first =>
      rw [h.1, List.mem_singleton] at hmem
      have hrunning := h.2.1
      rw [← hmem, hover.exited] at hrunning
      cases hrunning
    | observing | done | failed => cases hpolls
  | taken output outputLimit exit hadmission hrunning hleft =>
    have hreturned := @returned_concat history output
    cases stage with
    | polling =>
      rw [show returned history = [] from h, List.nil_append] at hreturned
      cases hout : output.running with
      | true =>
        have hnext : [Happening.returned output].foldl Stage.sees .polling = .observing output := by
          simp [Stage.sees, Stage.next, hout]
        rw [hnext]
        exact ⟨hreturned, hout, hleft⟩
      | false =>
        have hnext : [Happening.returned output].foldl Stage.sees .polling = .done output := by
          simp [Stage.sees, Stage.next, hout]
        rw [hnext]
        exact ⟨hout, Or.inl hreturned⟩
    | pollingAgain first =>
      obtain ⟨hfirst, hfirstRunning, _, hlooked⟩ := h
      rw [hfirst] at hreturned
      cases exit with
      | none => exact absurd hadmission (hlooked outputLimit)
      | some exit => exact ⟨hrunning, Or.inr ⟨first, output, hfirstRunning, hreturned, rfl⟩⟩
    | observing | done | failed => cases hpolls

theorem foldl_sees_failed (more : List Happening) : more.foldl Stage.sees .failed = .failed := by
  induction more with
  | nil => rfl
  | cons happening more ih =>
    have hsees : Stage.sees .failed happening = .failed := by cases happening <;> rfl
    rw [List.foldl_cons, hsees]
    exact ih

theorem Bash.Sound.step_failed {state : Bash} (h : state.Sound processId) (hfailed : state.stage = .failed) (event : BashEvent) :
    (bashStep processId state event).Sound processId := by
  cases event with
  | registry event =>
    rw [bashStep]
    split
    · exact h
    · refine ⟨h.kept.step event, Or.inl ?_⟩
      rw [hfailed]
      exact foldl_sees_failed _
  | observe =>
    rw [bashStep, hfailed]
    exact h

theorem Bash.Sound.step {state : Bash} (h : state.Sound processId) (event : BashEvent) :
    (bashStep processId state event).Sound processId := by
  rcases h.agrees with hfailed | ⟨entry, hentry, hagrees⟩
  · exact h.step_failed hfailed event
  cases event with
  | registry event =>
    rw [bashStep]
    split
    · exact h
    · next hallowed =>
        have hkept := h.kept.step event
        have hhistory := happenings_append processId state.history.2 (ProcessRegistry.step state.history.1 event).2
        cases hpolls : event.polls processId with
        | false =>
          obtain ⟨changed, hchanged, hspares⟩ := step_spares h.kept hentry hpolls
          refine ⟨hkept, Or.inr ⟨changed, hchanged, ?_⟩⟩
          rw [foldl_sees_quiet hspares.quiet]
          exact hhistory ▸ hagrees.spares hspares
        | true =>
          obtain ⟨changed, hchanged, hpolled⟩ := step_polled h.kept hentry hpolls
          refine ⟨hkept, Or.inr ⟨changed, hchanged, ?_⟩⟩
          have hstage : state.stage.polls = true := by
            rw [hpolls, Bool.true_and, Bool.or_eq_true, not_or, Bool.not_eq_true, Bool.not_eq_false'] at hallowed
            exact hallowed.1
          exact hhistory ▸ hagrees.polled hstage hpolled
  | observe =>
    rw [bashStep]
    split
    · next first exit hstage hobserve =>
        refine ⟨h.kept, Or.inr ⟨entry, hentry, ?_⟩⟩
        rw [hstage] at hagrees
        obtain ⟨hfirst, hrunning, hadmission⟩ := hagrees
        refine ⟨hfirst, hrunning, ?_, fun outputLimit hlooked => ?_⟩
        · rw [Registry.observe] at hobserve
          split at hobserve
          · cases hobserve
          · next output known hlookup =>
              have hover := (h.kept.tracked processId).terminal output known (mem_of_lookup hlookup)
              have hmem := hover.mem
              rw [hfirst, List.mem_singleton] at hmem
              rw [← hmem, hover.exited] at hrunning
              cases hrunning
          · rw [hentry] at hobserve
            exact ⟨exit, hobserve⟩
        · rw [hadmission] at hlooked
          cases hlooked
    · exact ⟨h.kept, Or.inl rfl⟩
    · exact h

section

variable (incarnation : Int × Int) (before : List Event) (nanos : Nat) (events : List BashEvent)

def bashCall : ProcessId × Bash :=
  let history := run incarnation before
  let processId : ProcessId := ⟨history.1.incarnation, history.1.nextId⟩
  let state : Bash := ⟨advance history (.start nanos), if history.1.closed then .failed else .polling⟩
  (processId, events.foldl (bashStep processId) state)

theorem sound_bashCall :
    (bashCall incarnation before nanos events).2.Sound (bashCall incarnation before nanos events).1 := by
  have hkept := kept_run incarnation before
  rw [bashCall]
  generalize run incarnation before = history at hkept ⊢
  simp only
  generalize hid : (⟨history.1.incarnation, history.1.nextId⟩ : ProcessId) = processId
  have hnone : history.1.processes processId = none := by
    rw [← hid]
    exact hkept.fresh _ (Nat.le_refl _)
  have hstart : (Bash.mk (advance history (.start nanos)) (if history.1.closed then .failed else .polling)).Sound processId := by
    refine ⟨hkept.step _, ?_⟩
    cases hclosed : history.1.closed with
    | true => exact Or.inl rfl
    | false =>
      refine Or.inr ⟨Entry.start nanos, ?_, ?_⟩
      · have hadvance : (advance history (.start nanos)).1 = history.1.start nanos := rfl
        rw [hadvance, Registry.start, hclosed, if_neg Bool.false_ne_true, ← hid]
        exact Function.update_self _ _ _
      · have hquiet := ((hkept.tracked processId).absent hnone).1
        have hfacts : (advance history (.start nanos)).2 = history.2 := List.append_nil _
        rw [if_neg Bool.false_ne_true, hfacts]
        exact returned_quiet hquiet
  generalize Bash.mk (advance history (.start nanos)) (if history.1.closed then .failed else .polling) = state at hstart
  induction events generalizing state with
  | nil => exact hstart
  | cons event events ih => exact ih _ (hstart.step event)

end

/-- The text of a call has all that its process has put out, but for the blanks at its ends. -/
structure Untruncated (history : List Happening) (exitCode : Option Int) (result : Result) : Prop where
  text : result.text =
    trim (units (decodedText .stdout history) ++ units (decodedText .stderr history) ++ exitText exitCode)
  ended : ∀ channel, hasEnded channel history = true
  unfailed : history.any Happening.fails = false

theorem untruncated_of_joined {history : List Happening} (h : Conserved history) {output : Output} (hmem : output ∈ returned history)
    (hexited : output.running = false) (hclear : ∀ other ∈ untilExit (returned history), other.truncated = false)
    {joinedOutput : Output} (hjoined : ∀ channel, joinedOutput.text channel = joined channel (untilExit (returned history))) :
    Untruncated history joinedOutput.exitCode (bashResult joinedOutput) := by
  have hwhole := fun channel => h.whole hclear output hmem hexited channel
  have hstdout : joinedOutput.stdout = units (decodedText .stdout history) := (hjoined .stdout).trans (hwhole .stdout).1
  have hstderr : joinedOutput.stderr = units (decodedText .stderr history) := (hjoined .stderr).trans (hwhole .stderr).1
  refine ⟨?_, fun channel => (hwhole channel).2, ?_⟩
  · rw [bashResult, hstdout, hstderr]
  · cases hfails : history.any Happening.fails with
    | false => rfl
    | true =>
      obtain ⟨marked, hmarked, htruncated⟩ := h.failure hfails output hmem hexited
      rw [hclear marked hmarked] at htruncated
      exact absurd htruncated Bool.false_ne_true

theorem boundResult_unmarked {limit : Int} {result : Result} (h : (boundResult .bash limit result).truncated = false) :
    boundResult .bash limit result = result := by
  rw [boundResult] at h ⊢
  split at h
  · next hfits => rw [if_pos hfits]
  · exact absurd h Bool.noConfusion

/-- Polls conserve the output of every process, and a bash call that has lost output, but for blanks at its ends, is
marked. -/
theorem process_output_conserved (incarnation : Int × Int) (before : List Event) :
    (∀ processId, Conserved (happenings processId (run incarnation before).2)) ∧
      ∀ nanos events limit output, (bashCall incarnation before nanos events).2.stage = .done output →
        (boundResult .bash limit (bashResult output)).truncated = false →
        Untruncated (happenings (bashCall incarnation before nanos events).1 (bashCall incarnation before nanos events).2.history.2)
          output.exitCode (boundResult .bash limit (bashResult output)) := by
  refine ⟨fun processId => conserved_of_kept (kept_run incarnation before) processId, fun nanos events limit output hdone hclear => ?_⟩
  have hsound := sound_bashCall incarnation before nanos events
  generalize bashCall incarnation before nanos events = call at hdone hsound ⊢
  have hresult := boundResult_unmarked hclear
  rw [hresult] at hclear ⊢
  have hconserved := conserved_of_kept hsound.kept call.1
  rcases hsound.agrees with hfailed | ⟨entry, _, hagrees⟩
  · rw [hdone] at hfailed
    cases hfailed
  rw [hdone] at hagrees
  obtain ⟨hexited, honly | ⟨first, terminal, hfirst, htwo, rfl⟩⟩ := hagrees
  · have huntil : untilExit (returned (happenings call.1 call.2.history.2)) = [output] := by
      rw [honly, untilExit_singleton]
    refine @untruncated_of_joined _ hconserved output ?_ hexited ?_ _ fun channel => ?_
    · rw [honly]
      exact List.mem_cons_self
    · rw [huntil]
      intro other hother
      rw [List.mem_singleton.mp hother]
      exact hclear
    · rw [huntil]
      exact (List.append_nil _).symm
  · have hterminal : terminal.running = false := hexited
    have hmarks : first.truncated = false ∧ terminal.truncated = false := Bool.or_eq_false_iff.mp hclear
    have huntil : untilExit (returned (happenings call.1 call.2.history.2)) = [first, terminal] := by
      rw [htwo, untilExit, if_pos hfirst, untilExit_singleton]
    refine @untruncated_of_joined _ hconserved terminal ?_ hterminal ?_ _ fun channel => ?_
    · rw [htwo]
      exact List.mem_cons_of_mem _ List.mem_cons_self
    · rw [huntil]
      intro other hother
      rcases List.mem_cons.mp hother with rfl | hlast
      · exact hmarks.1
      · rw [List.mem_singleton.mp hlast]
        exact hmarks.2
    · rw [huntil]
      cases channel <;> exact congrArg (_ ++ ·) (List.append_nil _).symm

def sampleId : ProcessId := ⟨(3, 5), 1⟩

def samplePrint : List Event :=
  [.chunk sampleId .stdout (Utf8Stream.encode " hi\n".toList), .drained sampleId .stdout true,
    .drained sampleId .stderr true, .watched sampleId (some 0), .settle sampleId 1000000]

def samplePoll : List Event := [.enter sampleId 16384, .look sampleId, .take sampleId 2000000]

def sampleOutput : Output := ⟨sampleId, units " hi\n".toList, [], false, some 0, 1, false⟩

/-- A poll after the exit returns the output again, and a bash call drops the blanks at its ends. -/
theorem returned_again_and_trimmed :
    returned (happenings sampleId (run (3, 5) ([.start 0] ++ samplePrint ++ samplePoll ++ samplePoll)).2) =
        [sampleOutput, sampleOutput] ∧
      joined .stdout [sampleOutput, sampleOutput] ≠
        units (decodedText .stdout
          (happenings sampleId (run (3, 5) ([.start 0] ++ samplePrint ++ samplePoll ++ samplePoll)).2)) ∧
      (bashCall (3, 5) [] 0 ((samplePrint ++ samplePoll).map .registry)).2.stage = .done sampleOutput ∧
      boundResult .bash 16384 (bashResult sampleOutput) =
        ⟨units "hi".toList, false, some false, some (units sampleId.text.toList), some 0, some 1, none, none, none⟩ := by
  refine ⟨by decide +kernel, by decide +kernel, ?_, by decide +kernel⟩
  rfl

end Calls

end Rika.ProcessRegistry
