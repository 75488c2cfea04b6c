import Mathlib.Data.List.Induction

namespace Rika.OperationAdmission

structure AdmissionState where
  closed : Bool
  active : Nat

section

variable (current : AdmissionState)

def enter : Bool × AdmissionState :=
  if current.closed then (false, current) else (true, { current with active := current.active + 1 })

def release : Bool × AdmissionState :=
  let next := { current with active := current.active - 1 }
  (next.closed && next.active = 0, next)

def close : Nat × AdmissionState :=
  (current.active, if current.closed then current else { current with closed := true })

end

/-- Where a call of `withExecutionAdmission` is; one that is `draining` is about to complete `drained`. -/
inductive CallPhase
  | running
  | draining
  | settled
  | refused
deriving DecidableEq

inductive CloserPhase
  | waiting
  | returned
deriving DecidableEq

structure Runtime where
  state : AdmissionState := ⟨false, 0⟩
  drained : Bool := false
  calls : List CallPhase := []
  closers : List CloserPhase := []

/-- What a fiber does next. A call is released once its effect is over, be it by a failure or an interruption. -/
inductive Event
  | enter
  | release (call : Nat)
  | complete (call : Nat)
  | close
  | awake (closer : Nat)
deriving DecidableEq

def step (runtime : Runtime) : Event → Runtime
  | .enter =>
    let (admitted, state) := enter runtime.state
    { runtime with state, calls := runtime.calls ++ [if admitted then .running else .refused] }
  | .release call =>
    if runtime.calls[call]? = some .running then
      let (complete, state) := release runtime.state
      { runtime with state, calls := runtime.calls.set call (if complete then .draining else .settled) }
    else runtime
  | .complete call =>
    if runtime.calls[call]? = some .draining then
      { runtime with drained := true, calls := runtime.calls.set call .settled }
    else runtime
  | .close =>
    let (active, state) := close runtime.state
    { runtime with state, closers := runtime.closers ++ [if active = 0 then .returned else .waiting] }
  | .awake closer =>
    if runtime.closers[closer]? = some .waiting ∧ runtime.drained then
      { runtime with closers := runtime.closers.set closer .returned }
    else runtime

def run (events : List Event) : Runtime := events.foldl step {}

/-- The calls that run are counted, and whoever waits for the last of them is told of it. -/
structure Sound (runtime : Runtime) : Prop where
  counted : runtime.state.active = runtime.calls.count .running
  refused : .refused ∈ runtime.calls → runtime.state.closed = true
  idle : .draining ∈ runtime.calls ∨ runtime.drained = true ∨ .returned ∈ runtime.closers →
    runtime.state.closed = true ∧ runtime.state.active = 0
  waiting : .waiting ∈ runtime.closers → runtime.state.closed = true ∧
    (0 < runtime.state.active ∨ .draining ∈ runtime.calls ∨ runtime.drained = true)

section

variable {runtime : Runtime} {call : Nat}

theorem count_set_running {calls : List CallPhase} {phase phase' : CallPhase} (h : calls[call]? = some phase)
    (hphase' : phase' ≠ .running) :
    (calls.set call phase').count .running = calls.count .running - if phase = .running then 1 else 0 := by
  obtain ⟨hlt, rfl⟩ := List.getElem?_eq_some_iff.mp h
  rw [List.count_set hlt]
  simp [hphase']

variable (h : Sound runtime)

include h

theorem Sound.enter : Sound (step runtime .enter) := by
  obtain ⟨⟨closed, active⟩, drained, calls, closers⟩ := runtime
  cases closed with
  | true =>
    refine ⟨?_, fun _ => rfl, fun hidle => h.idle ?_, fun hwait => ?_⟩
    · simpa [step, OperationAdmission.enter] using h.counted
    · simpa [step, OperationAdmission.enter] using hidle
    · simpa [step, OperationAdmission.enter] using (h.waiting hwait).2
  | false =>
    refine ⟨?_, fun hmem => ?_, fun hidle => ?_, fun hwait => ?_⟩
    · simpa [step, OperationAdmission.enter] using h.counted
    · exact absurd (h.refused (by simpa [step, OperationAdmission.enter] using hmem)) Bool.false_ne_true
    · exact absurd (h.idle (by simpa [step, OperationAdmission.enter] using hidle)).1 Bool.false_ne_true
    · exact absurd (h.waiting hwait).1 Bool.false_ne_true

theorem Sound.release (hphase : runtime.calls[call]? = some .running) : Sound (step runtime (.release call)) := by
  have hpos : 0 < runtime.state.active := by
    rw [h.counted, List.count_pos_iff]
    exact List.mem_of_getElem? hphase
  have hbusy : ¬(.draining ∈ runtime.calls ∨ runtime.drained = true ∨ .returned ∈ runtime.closers) := fun hidle =>
    Nat.ne_of_gt hpos (h.idle hidle).2
  have hcount {phase' : CallPhase} (hphase' : phase' ≠ .running) :
      runtime.state.active - 1 = (runtime.calls.set call phase').count .running := by
    rw [count_set_running hphase hphase', if_pos rfl, h.counted]
  rw [OperationAdmission.step, if_pos hphase]
  by_cases hlast : runtime.state.closed = true ∧ runtime.state.active - 1 = 0
  · have hcomplete : (OperationAdmission.release runtime.state).1 = true := by simpa [OperationAdmission.release] using hlast
    simp only [hcomplete, if_true]
    refine ⟨hcount (by decide), fun _ => hlast.1, fun _ => hlast, fun _ => ⟨hlast.1, .inr (.inl ?_)⟩⟩
    exact List.mem_set (List.getElem?_eq_some_iff.mp hphase).1 _
  · have hcomplete : (OperationAdmission.release runtime.state).1 = false := by simpa [OperationAdmission.release] using hlast
    simp only [hcomplete, Bool.false_eq_true, if_false]
    refine ⟨hcount (by decide), fun hmem => h.refused ?_, fun hidle => absurd ?_ hbusy, fun hwait => ?_⟩
    · exact (List.mem_or_eq_of_mem_set hmem).resolve_right (by decide)
    · exact hidle.imp_left fun hmem => (List.mem_or_eq_of_mem_set hmem).resolve_right (by decide)
    · have hclosed := (h.waiting hwait).1
      exact ⟨hclosed, .inl (Nat.pos_of_ne_zero fun hzero => hlast ⟨hclosed, hzero⟩)⟩

theorem Sound.complete (hphase : runtime.calls[call]? = some .draining) : Sound (step runtime (.complete call)) := by
  have hidle := h.idle (.inl (List.mem_of_getElem? hphase))
  rw [OperationAdmission.step, if_pos hphase]
  refine ⟨?_, fun _ => hidle.1, fun _ => hidle, fun _ => ⟨hidle.1, .inr (.inr rfl)⟩⟩
  rw [count_set_running hphase (by decide)]
  exact h.counted

theorem Sound.close : Sound (step runtime .close) := by
  have hclosed : (OperationAdmission.close runtime.state).2 = { runtime.state with closed := true } := by
    rw [OperationAdmission.close]
    split
    · next hclosed => rw [← hclosed]
    · rfl
  simp only [OperationAdmission.step, hclosed]
  refine ⟨h.counted, fun _ => rfl, fun hidle => ⟨rfl, ?_⟩, fun hwait => ⟨rfl, ?_⟩⟩
  · rcases hidle with hmem | hdrained | hmem
    · exact (h.idle (.inl hmem)).2
    · exact (h.idle (.inr (.inl hdrained))).2
    · rcases List.mem_append.mp hmem with hmem | hmem
      · exact (h.idle (.inr (.inr hmem))).2
      · by_contra hactive
        simp [OperationAdmission.close, hactive] at hmem
  · rcases List.mem_append.mp hwait with hmem | hmem
    · exact (h.waiting hmem).2
    · refine .inl (Nat.pos_of_ne_zero fun (hzero : runtime.state.active = 0) => ?_)
      simp [OperationAdmission.close, hzero] at hmem

theorem Sound.step (event : Event) : Sound (step runtime event) := by
  cases event with
  | enter => exact h.enter
  | release call =>
    by_cases hphase : runtime.calls[call]? = some .running
    · exact h.release hphase
    · rwa [OperationAdmission.step, if_neg hphase]
  | complete call =>
    by_cases hphase : runtime.calls[call]? = some .draining
    · exact h.complete hphase
    · rwa [OperationAdmission.step, if_neg hphase]
  | close => exact h.close
  | awake closer =>
    rw [OperationAdmission.step]
    split
    · next hwoken =>
        have hidle := h.idle (.inr (.inl hwoken.2))
        exact ⟨h.counted, h.refused, fun _ => hidle, fun _ => ⟨hidle.1, .inr (.inr hwoken.2)⟩⟩
    · exact h

end

theorem run_append (done later : List Event) : run (done ++ later) = later.foldl step (run done) := List.foldl_append ..

theorem run_sound (events : List Event) : Sound (run events) := by
  induction events using List.reverseRecOn with
  | nil => exact ⟨rfl, nofun, by simp [run], nofun⟩
  | append_singleton events event ih =>
    rw [run_append]
    exact ih.step event

theorem returned_foldl {runtime : Runtime} (h : .returned ∈ runtime.closers) (later : List Event) :
    .returned ∈ (later.foldl step runtime).closers := by
  induction later generalizing runtime with
  | nil => exact h
  | cons event later ih =>
    refine ih ?_
    cases event with
    | enter => exact h
    | release call | complete call =>
      rw [step]
      split <;> exact h
    | close => exact List.mem_append_left _ h
    | awake closer =>
      rw [step]
      split
      · next hwoken => exact List.mem_set (List.getElem?_eq_some_iff.mp hwoken.1).1 _
      · exact h

theorem closed_step (runtime : Runtime) (event : Event) :
    (step runtime event).state.closed = (runtime.state.closed || event = .close) := by
  cases event with
  | enter =>
    rw [step, enter]
    cases hclosed : runtime.state.closed <;> simp [hclosed]
  | release call | complete call | awake closer =>
    rw [step]
    split <;> simp [release]
  | close =>
    rw [step, close]
    cases hclosed : runtime.state.closed <;> simp [hclosed]

theorem closed_run (events : List Event) : (run events).state.closed = true ↔ .close ∈ events := by
  induction events using List.reverseRecOn with
  | nil => simp [run]
  | append_singleton events event ih =>
    rw [run_append, List.foldl_cons, List.foldl_nil, closed_step, Bool.or_eq_true, ih, decide_eq_true_iff, List.mem_append,
      List.mem_singleton]
    exact or_congr_right eq_comm

/-- Closing waits for the calls that were admitted, and lets no other run. -/
structure Drains (events : List Event) : Prop where
  returned : .returned ∈ (run events).closers → ∀ later, .running ∉ (run (events ++ later)).calls
  waiting : .waiting ∈ (run events).closers →
    (run events).drained = true ∨ .running ∈ (run events).calls ∨ .draining ∈ (run events).calls
  refused : .refused ∈ (run events).calls → .close ∈ events

/-- In every interleaving, a closing that has returned leaves nothing running behind it for ever, one that waits is
released or waits for a call that has steps to take, and a call is refused only where admissions are closed. -/
theorem admissions_drain (events : List Event) : Drains events := by
  have hsound := run_sound events
  refine ⟨fun hreturned later => ?_, fun hwaiting => ?_, fun hrefused => (closed_run events).mp (hsound.refused hrefused)⟩
  · have hlater : .returned ∈ (run (events ++ later)).closers := by
      rw [run_append]
      exact returned_foldl hreturned later
    have hlast := run_sound (events ++ later)
    rw [← List.count_eq_zero, ← hlast.counted]
    exact (hlast.idle (.inr (.inr hlater))).2
  · rcases (hsound.waiting hwaiting).2 with hactive | hdraining | hdrained
    · rw [hsound.counted, List.count_pos_iff] at hactive
      exact .inr (.inl hactive)
    · exact .inr (.inr hdraining)
    · exact .inl hdrained

def CallPhase.left : CallPhase → Nat
  | .running => 2
  | .draining => 1
  | .settled | .refused => 0

def CloserPhase.left : CloserPhase → Nat
  | .waiting => 1
  | .returned => 0

/-- The steps that the calls and the closings have left. -/
def Runtime.left (runtime : Runtime) : Nat :=
  runtime.calls.foldr (·.left + ·) 0 + runtime.closers.foldr (·.left + ·) 0

theorem foldr_set_lt {α : Type} {left : α → Nat} {phases : List α} {i : Nat} {phase phase' : α}
    (h : phases[i]? = some phase) (hless : left phase' < left phase) :
    (phases.set i phase').foldr (left · + ·) 0 < phases.foldr (left · + ·) 0 := by
  induction phases generalizing i with
  | nil => cases h
  | cons head phases ih =>
    cases i with
    | zero =>
      obtain rfl := Option.some_inj.mp h
      exact Nat.add_lt_add_right hless _
    | succ i => exact Nat.add_lt_add_left (ih h) _

theorem progress {runtime : Runtime} (h : Sound runtime) (hwaiting : .waiting ∈ runtime.closers) :
    ∃ event, (event ≠ .enter ∧ event ≠ .close) ∧ (step runtime event).left < runtime.left := by
  rcases (h.waiting hwaiting).2 with hactive | hdraining | hdrained
  · rw [h.counted, List.count_pos_iff] at hactive
    obtain ⟨call, hphase⟩ := List.getElem?_of_mem hactive
    refine ⟨.release call, ⟨nofun, nofun⟩, ?_⟩
    rw [step, if_pos hphase]
    exact Nat.add_lt_add_right (foldr_set_lt hphase (by split <;> decide)) _
  · obtain ⟨call, hphase⟩ := List.getElem?_of_mem hdraining
    refine ⟨.complete call, ⟨nofun, nofun⟩, ?_⟩
    rw [step, if_pos hphase]
    exact Nat.add_lt_add_right (foldr_set_lt hphase (by decide)) _
  · obtain ⟨closer, hphase⟩ := List.getElem?_of_mem hwaiting
    refine ⟨.awake closer, ⟨nofun, nofun⟩, ?_⟩
    rw [step, if_pos ⟨hphase, hdrained⟩]
    exact Nat.add_lt_add_left (foldr_set_lt hphase (by decide)) _

/-- Closing is never stuck: the calls and the closings can end every closing by steps of their own. -/
theorem closings_can_return (events : List Event) :
    ∃ later, (∀ event ∈ later, event ≠ .enter ∧ event ≠ .close) ∧ .waiting ∉ (run (events ++ later)).closers := by
  induction hleft : (run events).left using Nat.strongRecOn generalizing events with
  | _ left ih =>
    by_cases hwaiting : .waiting ∈ (run events).closers
    · obtain ⟨event, hown, hless⟩ := progress (run_sound events) hwaiting
      rw [hleft] at hless
      obtain ⟨later, hlater, hreturned⟩ := ih _ hless (events ++ [event]) (by rw [run_append]; rfl)
      exact ⟨event :: later, List.forall_mem_cons.mpr ⟨hown, hlater⟩, by rwa [List.append_cons]⟩
    · exact ⟨[], nofun, by rwa [List.append_nil]⟩

end Rika.OperationAdmission
