import Mathlib.Data.List.Induction
import Rika.InsertionMap
import Rika.Turn

namespace Rika.RootTurnOwner

open InsertionMap (get_delete get_set has has_delete has_iff has_set)

abbrev TurnSet := InsertionMap String Unit

/-- The lifecycles that run are known by their fibers. -/
structure ThreadOwnerState where
  claimed : TurnSet := .empty
  reobserve : TurnSet := .empty
  running : InsertionMap String Nat := .empty
  relaunch : TurnSet := .empty
  quiesced : Bool := false

section

variable (state : ThreadOwnerState) (turnId : String)

/-- `latest` is the status of the turn, if it is still a turn of the thread. -/
def claim (latest expectedStatus : Option Status) : Bool × ThreadOwnerState :=
  match latest with
  | none => (false, state)
  | some status =>
    if state.claimed.has turnId then (false, { state with reobserve := state.reobserve.set turnId () })
    else if state.quiesced ∨ status = .queued ∨ status.isTerminalStatus ∧ expectedStatus = none ∨
        expectedStatus.any (· ≠ status) then
      (false, state)
    else (true, { state with claimed := state.claimed.set turnId () })

def release : Bool × ThreadOwnerState :=
  (state.reobserve.has turnId,
    { state with claimed := state.claimed.delete turnId, reobserve := state.reobserve.delete turnId })

/-- `next` is the turn that `claimNextQueued` claims; its claim is given back when the turn is claimed here. -/
def claimQueued (next : Option String) : Option String × ThreadOwnerState :=
  if state.quiesced then (none, state)
  else
    match next with
    | none => (none, state)
    | some turnId =>
      if state.claimed.has turnId then (none, state)
      else (some turnId, { state with claimed := state.claimed.set turnId () })

/-- What `launch` does under the permit: it forks `fiber`, leaves word to launch again, or does nothing. -/
def launch (installed : Bool) (fiber : Nat) : Bool × ThreadOwnerState :=
  if ¬installed then (false, state)
  else if state.running.has turnId then (false, { state with relaunch := state.relaunch.set turnId () })
  else if state.quiesced then (false, state)
  else (true, { state with running := state.running.set turnId fiber })

/-- What a lifecycle does under the permit when it is over. -/
def finish : Bool × ThreadOwnerState :=
  (state.relaunch.has turnId,
    { state with running := state.running.delete turnId, relaunch := state.relaunch.delete turnId })

end

def quiesce : ThreadOwnerState := { quiesced := true }

/-- Where the fiber of a lifecycle is. -/
inductive Phase
  | forked
  | running
  | ended
  | relaunching
  | done
deriving DecidableEq

structure LifecycleFiber where
  turnId : String
  phase : Phase
deriving DecidableEq

structure Owner where
  state : ThreadOwnerState := {}
  installed : Bool := false
  fibers : List LifecycleFiber := []

/-- The next step of some fiber. A lifecycle ends in any way, also when it is interrupted; one that has not begun is
dropped then. -/
inductive Event
  | install
  | claim (turnId : String) (latest expectedStatus : Option Status)
  | release (turnId : String)
  | claimQueued (next : Option String)
  | accepted (turnId : String)
  | begin (fiber : Nat)
  | complete (fiber : Nat)
  | finish (fiber : Nat)
  | relaunch (fiber : Nat)
  | drop (fiber : Nat)
  | quiesce

section

variable (owner : Owner)

def Owner.move (fiber : Nat) (turnId : String) (phase : Phase) : Owner :=
  { owner with fibers := owner.fibers.set fiber ⟨turnId, phase⟩ }

def Owner.launch (turnId : String) : Owner :=
  let (forked, state) := RootTurnOwner.launch owner.state turnId owner.installed owner.fibers.length
  { owner with state, fibers := if forked then owner.fibers ++ [⟨turnId, .forked⟩] else owner.fibers }

def step : Event → Owner
  | .install => { owner with installed := true }
  | .claim turnId latest expectedStatus => { owner with state := (claim owner.state turnId latest expectedStatus).2 }
  | .release turnId => { owner with state := (release owner.state turnId).2 }
  | .claimQueued next => { owner with state := (claimQueued owner.state next).2 }
  | .accepted turnId => owner.launch turnId
  | .begin fiber =>
    match owner.fibers[fiber]? with
    | some ⟨turnId, .forked⟩ => owner.move fiber turnId .running
    | _ => owner
  | .complete fiber =>
    match owner.fibers[fiber]? with
    | some ⟨turnId, .running⟩ => owner.move fiber turnId .ended
    | _ => owner
  | .finish fiber =>
    match owner.fibers[fiber]? with
    | some ⟨turnId, .ended⟩ =>
      let (requested, state) := finish owner.state turnId
      { owner.move fiber turnId (if requested then .relaunching else .done) with state }
    | _ => owner
  | .relaunch fiber =>
    match owner.fibers[fiber]? with
    | some ⟨turnId, .relaunching⟩ => (owner.move fiber turnId .done).launch turnId
    | _ => owner
  | .drop fiber =>
    match owner.fibers[fiber]? with
    | some ⟨turnId, .forked⟩ => if owner.state.quiesced then owner.move fiber turnId .done else owner
    | _ => owner
  | .quiesce => { owner with state := quiesce }

end

def run (events : List Event) : Owner := events.foldl step {}

/-- What is in the one set is in the other. -/
def Grows (before after : TurnSet) : Prop := ∀ turnId, before.has turnId = true → after.has turnId = true

theorem Grows.set (turns : TurnSet) (turnId : String) : Grows turns (turns.set turnId ()) := by
  intro other h
  rw [has_set, h, Bool.or_true]

theorem claim_state (state : ThreadOwnerState) (turnId : String) (latest expectedStatus : Option Status) :
    ∃ claimed reobserve, (claim state turnId latest expectedStatus).2 = { state with claimed, reobserve } ∧
      Grows state.claimed claimed ∧ Grows state.reobserve reobserve := by
  cases latest with
  | none => exact ⟨_, _, rfl, fun _ => id, fun _ => id⟩
  | some status =>
    simp only [claim]
    split_ifs
    · exact ⟨_, _, rfl, fun _ => id, .set _ _⟩
    · exact ⟨_, _, rfl, fun _ => id, fun _ => id⟩
    · exact ⟨_, _, rfl, .set _ _, fun _ => id⟩

theorem claimQueued_state (state : ThreadOwnerState) (next : Option String) :
    ∃ claimed, (claimQueued state next).2 = { state with claimed } ∧ Grows state.claimed claimed := by
  cases next with
  | none =>
    simp only [claimQueued]
    split <;> exact ⟨_, rfl, fun _ => id⟩
  | some turnId =>
    simp only [claimQueued]
    split_ifs
    · exact ⟨_, rfl, fun _ => id⟩
    · exact ⟨_, rfl, fun _ => id⟩
    · exact ⟨_, rfl, .set _ _⟩

/-- The fiber has not taken its lifecycle out of `running`. -/
def Phase.lives : Phase → Bool
  | .forked | .running | .ended => true
  | .relaunching | .done => false

abbrev Owner.At (owner : Owner) (fiber : Nat) (turnId : String) (phase : Phase) : Prop :=
  owner.fibers[fiber]? = some ⟨turnId, phase⟩

/-- What a step does to the fibers and to what is known of them. -/
inductive Step (owner : Owner) : Event → Owner → Prop
  | kept {event : Event} (claimed reobserve : TurnSet) {installed : Bool} (hinstalled : owner.installed = true → installed = true)
      (hclaimed : Grows owner.state.claimed claimed) (hreobserve : Grows owner.state.reobserve reobserve) :
      Step owner event { owner with state := { owner.state with claimed, reobserve }, installed }
  | released (turnId : String) : Step owner (.release turnId) { owner with state := (release owner.state turnId).2 }
  | accepted (turnId : String) : Step owner (.accepted turnId) (owner.launch turnId)
  | began {fiber : Nat} {turnId : String} (hfiber : owner.At fiber turnId .forked) :
      Step owner (.begin fiber) (owner.move fiber turnId .running)
  | completed {fiber : Nat} {turnId : String} (hfiber : owner.At fiber turnId .running) :
      Step owner (.complete fiber) (owner.move fiber turnId .ended)
  | finished {fiber : Nat} {turnId : String} (hfiber : owner.At fiber turnId .ended) :
      Step owner (.finish fiber)
        { owner.move fiber turnId (if owner.state.relaunch.has turnId then .relaunching else .done) with
          state := (finish owner.state turnId).2 }
  | relaunched {fiber : Nat} {turnId : String} (hfiber : owner.At fiber turnId .relaunching) :
      Step owner (.relaunch fiber) ((owner.move fiber turnId .done).launch turnId)
  | dropped {fiber : Nat} {turnId : String} (hfiber : owner.At fiber turnId .forked) (hquiesced : owner.state.quiesced = true) :
      Step owner (.drop fiber) (owner.move fiber turnId .done)
  | quiesced : Step owner .quiesce { owner with state := quiesce }

variable {owner : Owner}

theorem Step.same {event : Event} : Step owner event owner :=
  .kept owner.state.claimed owner.state.reobserve id (fun _ => id) fun _ => id

theorem step_cases (owner : Owner) (event : Event) : Step owner event (step owner event) := by
  cases event with
  | install => exact .kept owner.state.claimed owner.state.reobserve (fun _ => rfl) (fun _ => id) fun _ => id
  | claim turnId latest expectedStatus =>
    obtain ⟨claimed, reobserve, hstate, hclaimed, hreobserve⟩ := claim_state owner.state turnId latest expectedStatus
    rw [step, hstate]
    exact .kept claimed reobserve id hclaimed hreobserve
  | release turnId => exact .released turnId
  | claimQueued next =>
    obtain ⟨claimed, hstate, hclaimed⟩ := claimQueued_state owner.state next
    rw [step, hstate]
    exact .kept claimed owner.state.reobserve id hclaimed fun _ => id
  | accepted turnId => exact .accepted turnId
  | begin fiber =>
    rw [step]
    split
    · next hfiber => exact .began hfiber
    · exact .same
  | complete fiber =>
    rw [step]
    split
    · next hfiber => exact .completed hfiber
    · exact .same
  | finish fiber =>
    rw [step]
    split
    · next hfiber => exact .finished hfiber
    · exact .same
  | relaunch fiber =>
    rw [step]
    split
    · next hfiber => exact .relaunched hfiber
    · exact .same
  | drop fiber =>
    rw [step]
    split
    · next hfiber =>
        split
        · next hquiesced => exact .dropped hfiber hquiesced
        · exact .same
    · exact .same
  | quiesce => exact .quiesced

/-- Lifecycles that live are known under their turns, until the thread is quiesced. -/
structure Sound (owner : Owner) : Prop where
  filed {fiber : Nat} {turnId : String} {phase : Phase} : owner.At fiber turnId phase → phase.lives = true →
    owner.state.quiesced = true ∨ owner.state.running.get turnId = some fiber
  held {fiber : Nat} {turnId : String} : owner.state.running.get turnId = some fiber → owner.state.quiesced = false ∧
    ∃ phase, owner.At fiber turnId phase ∧ phase.lives = true
  alone {fiber fiber' : Nat} {turnId : String} {phase phase' : Phase} : owner.At fiber turnId phase →
    owner.At fiber' turnId phase' → phase.lives = true → phase'.lives = true → fiber = fiber'
  word {turnId : String} : owner.state.relaunch.has turnId = true → owner.state.running.has turnId = true

section

variable {owner : Owner} {turnId other : String} {fiber index : Nat} {phase phase' before : Phase}

theorem at_move (hfiber : owner.At fiber turnId phase) : (owner.move fiber turnId phase').At index other before ↔
    if index = fiber then other = turnId ∧ before = phase' else owner.At index other before := by
  split
  · next heq =>
      rw [heq, Owner.At, Owner.move, List.getElem?_set_self (List.getElem?_eq_some_iff.mp hfiber).1]
      simp [eq_comm]
  · next hne => rw [Owner.At, Owner.move, List.getElem?_set_ne (Ne.symm hne)]

theorem at_of_move (hfiber : owner.At fiber turnId phase) (hphase' : phase'.lives = false)
    (hindex : (owner.move fiber turnId phase').At index other before) (hlive : before.lives = true) :
    index ≠ fiber ∧ owner.At index other before := by
  rw [at_move hfiber] at hindex
  split at hindex
  · rw [hindex.2, hphase'] at hlive
    cases hlive
  · next hne => exact ⟨hne, hindex⟩

theorem launch_cases (owner : Owner) (turnId : String) :
    (owner.launch turnId = owner ∧ (owner.installed = false ∨ owner.state.quiesced = true)) ∨
      (owner.launch turnId = { owner with state := { owner.state with relaunch := owner.state.relaunch.set turnId () } } ∧
        owner.state.running.has turnId = true) ∨
      (owner.launch turnId =
          { owner with
            state := { owner.state with running := owner.state.running.set turnId owner.fibers.length }
            fibers := owner.fibers ++ [⟨turnId, .forked⟩] } ∧
        owner.state.running.get turnId = none ∧ owner.state.quiesced = false) := by
  rw [Owner.launch, launch]
  by_cases hinstalled : owner.installed = true
  · rw [if_neg (not_not.mpr hinstalled)]
    by_cases hrunning : owner.state.running.has turnId = true
    · rw [if_pos hrunning]
      exact .inr (.inl ⟨rfl, hrunning⟩)
    · rw [if_neg hrunning]
      by_cases hquiesced : owner.state.quiesced = true
      · rw [if_pos hquiesced]
        exact .inl ⟨rfl, .inr hquiesced⟩
      · rw [if_neg hquiesced]
        refine .inr (.inr ⟨rfl, ?_, Bool.eq_false_iff.mpr hquiesced⟩)
        rwa [has, Bool.not_eq_true, Option.isSome_eq_false_iff, Option.isNone_iff_eq_none] at hrunning
  · rw [if_pos hinstalled]
    exact .inl ⟨rfl, .inl (Bool.eq_false_iff.mpr hinstalled)⟩

theorem at_append {last : LifecycleFiber} (hfiber : (owner.fibers ++ [last])[fiber]? = some ⟨turnId, phase⟩) :
    owner.At fiber turnId phase ∨ fiber = owner.fibers.length ∧ last = ⟨turnId, phase⟩ := by
  rcases Nat.lt_or_ge fiber owner.fibers.length with hlt | hge
  · rw [List.getElem?_append_left hlt] at hfiber
    exact .inl hfiber
  · rw [List.getElem?_append_right hge, List.getElem?_singleton] at hfiber
    obtain ⟨hzero, hlast⟩ := Option.ite_none_right_eq_some.mp hfiber
    exact .inr ⟨by omega, Option.some_inj.mp hlast⟩

section

variable (h : Sound owner)

include h

theorem Sound.move (hfiber : owner.At fiber turnId phase) (hlives : phase'.lives = phase.lives) :
    Sound (owner.move fiber turnId phase') := by
  have hback {index : Nat} {other : String} {next : Phase} (hindex : (owner.move fiber turnId phase').At index other next) :
      ∃ before, owner.At index other before ∧ before.lives = next.lives := by
    rw [at_move hfiber] at hindex
    split at hindex
    · next heq =>
        obtain ⟨rfl, rfl⟩ := hindex
        exact ⟨phase, heq ▸ hfiber, hlives.symm⟩
    · exact ⟨next, hindex, rfl⟩
  refine ⟨fun hindex hlive => ?_, fun {index other} hget => ?_, fun hindex hindex' hlive hlive' => ?_, h.word⟩
  · obtain ⟨before, hbefore, hsame⟩ := hback hindex
    exact h.filed hbefore (hsame.trans hlive)
  · obtain ⟨hopen, before, hbefore, hlive⟩ := h.held hget
    by_cases heq : index = fiber
    · obtain ⟨rfl, rfl⟩ : other = turnId ∧ before = phase := by simpa [heq ▸ hfiber, eq_comm] using hbefore
      exact ⟨hopen, phase', (at_move hfiber).mpr (by simp [heq]), hlives.trans hlive⟩
    · exact ⟨hopen, before, (at_move hfiber).mpr (by rwa [if_neg heq]), hlive⟩
  · obtain ⟨before, hbefore, hsame⟩ := hback hindex
    obtain ⟨before', hbefore', hsame'⟩ := hback hindex'
    exact h.alone hbefore hbefore' (hsame.trans hlive) (hsame'.trans hlive')

theorem Sound.launch (turnId : String) : Sound (owner.launch turnId) := by
  rcases launch_cases owner turnId with ⟨heq, -⟩ | ⟨heq, hrunning⟩ | ⟨heq, hnone, hopen⟩
  · rwa [heq]
  · rw [heq]
    refine ⟨h.filed, h.held, h.alone, fun {other} hword => ?_⟩
    rw [has_set, Bool.or_eq_true, decide_eq_true_iff] at hword
    rcases hword with rfl | hword
    · exact hrunning
    · exact h.word hword
  · rw [heq]
    have hnew {index : Nat} {phase : Phase} (hindex : owner.At index turnId phase) (hlive : phase.lives = true) : False := by
      rcases h.filed hindex hlive with hquiesced | hget
      · exact Bool.false_ne_true (hopen.symm.trans hquiesced)
      · cases hnone.symm.trans hget
    refine ⟨fun {index other phase} hindex hlive => ?_, fun {index other} hget => ?_, ?_, fun {other} hword => ?_⟩
    · rw [get_set]
      rcases at_append hindex with hold | ⟨rfl, hlast⟩
      · rw [if_neg]
        · exact h.filed hold hlive
        · rintro rfl
          exact hnew hold hlive
      · cases hlast
        exact .inr (if_pos rfl)
    · rw [get_set] at hget
      split at hget
      · next hsame =>
          cases hget
          exact ⟨hopen, .forked, by rw [hsame, Owner.At, List.getElem?_concat_length], rfl⟩
      · obtain ⟨-, phase, hphase, hlive⟩ := h.held hget
        exact ⟨hopen, phase, (List.getElem?_append_left (List.getElem?_eq_some_iff.mp hphase).1).trans hphase, hlive⟩
    · intro index index' other phase phase' hindex hindex' hlive hlive'
      rcases at_append hindex with hold | ⟨rfl, hlast⟩ <;> rcases at_append hindex' with hold' | ⟨rfl, hlast'⟩
      · exact h.alone hold hold' hlive hlive'
      · cases hlast'
        exact (hnew hold hlive).elim
      · cases hlast
        exact (hnew hold' hlive').elim
      · rfl
    · rw [has_set, h.word hword, Bool.or_true]

theorem Sound.finish (hfiber : owner.At fiber turnId .ended) (hphase' : phase'.lives = false) :
    Sound { owner.move fiber turnId phase' with state := (finish owner.state turnId).2 } := by
  refine ⟨fun {index other next} hindex hlive => ?_, fun {index other} hget => ?_, fun hindex hindex' hlive hlive' => ?_,
    fun {other} hword => ?_⟩
  · obtain ⟨hne, hold⟩ := at_of_move hfiber hphase' hindex hlive
    refine (h.filed hold hlive).imp_right fun hget => ?_
    rw [RootTurnOwner.finish, get_delete, if_neg]
    · exact hget
    · rintro rfl
      exact hne (h.alone hold hfiber hlive rfl)
  · rw [RootTurnOwner.finish, get_delete] at hget
    obtain ⟨hne, hget⟩ := Option.ite_none_left_eq_some.mp hget
    obtain ⟨hopen, before, hbefore, hlive⟩ := h.held hget
    refine ⟨hopen, before, (at_move hfiber).mpr ?_, hlive⟩
    rw [if_neg]
    · exact hbefore
    · rintro rfl
      exact hne (LifecycleFiber.mk.inj (Option.some_inj.mp (hbefore.symm.trans hfiber))).1
  · exact h.alone (at_of_move hfiber hphase' hindex hlive).2 (at_of_move hfiber hphase' hindex' hlive').2 hlive hlive'
  · simp only [RootTurnOwner.finish, has_delete, Bool.and_eq_true] at hword ⊢
    exact ⟨hword.1, h.word hword.2⟩

theorem Sound.drop (hfiber : owner.At fiber turnId .forked) (hquiesced : owner.state.quiesced = true) :
    Sound (owner.move fiber turnId .done) := by
  refine ⟨fun _ _ => .inl hquiesced, fun hget => absurd ((h.held hget).1.symm.trans hquiesced) Bool.false_ne_true, ?_, h.word⟩
  exact fun hindex hindex' hlive hlive' => h.alone (at_of_move hfiber rfl hindex hlive).2 (at_of_move hfiber rfl hindex' hlive').2
    hlive hlive'

theorem Sound.step {event : Event} {next : Owner} (hstep : Step owner event next) : Sound next := by
  cases hstep with
  | kept | released => exact ⟨h.filed, h.held, h.alone, h.word⟩
  | accepted turnId => exact h.launch turnId
  | began hfiber | completed hfiber => exact h.move hfiber rfl
  | finished hfiber => exact h.finish hfiber (by split <;> rfl)
  | relaunched hfiber =>
    have hdone : Sound (owner.move _ _ .done) := h.move hfiber rfl
    exact hdone.launch _
  | dropped hfiber hquiesced => exact h.drop hfiber hquiesced
  | quiesced =>
    refine ⟨fun _ _ => .inl rfl, fun hget => ?_, h.alone, fun hword => ?_⟩
    · cases hget
    · cases hword

end

end

theorem run_sound (events : List Event) : Sound (run events) := by
  induction events using List.reverseRecOn with
  | nil =>
    refine ⟨fun hfiber => ?_, fun hget => ?_, fun hfiber => ?_, fun hword => ?_⟩
    · cases hfiber
    · cases hget
    · cases hfiber
    · cases hword
  | append_singleton events event ih =>
    rw [run, List.foldl_append]
    exact ih.step (step_cases _ event)

/-- At most one lifecycle of a turn lives, whatever is accepted again, launched again or quiesced meanwhile. -/
theorem lifecycles_exclusive (events : List Event) (turnId : String) :
    {fiber | ∃ phase, (run events).At fiber turnId phase ∧ phase.lives = true}.Subsingleton := by
  rintro fiber ⟨phase, hfiber, hlive⟩ fiber' ⟨phase', hfiber', hlive'⟩
  exact (run_sound events).alone hfiber hfiber' hlive hlive'

/-- A lifecycle of the turn is yet to begin: one is forked, one launches it again, or one was left word to. -/
def Owner.Pending (owner : Owner) (turnId : String) : Prop :=
  owner.state.relaunch.has turnId = true ∨ ∃ fiber, owner.At fiber turnId .forked ∨ owner.At fiber turnId .relaunching

section

variable {owner : Owner} {turnId other : String} {fiber : Nat} {phase : Phase}

theorem launch_quiesced (owner : Owner) (turnId : String) : (owner.launch turnId).state.quiesced = owner.state.quiesced := by
  rcases launch_cases owner turnId with ⟨heq, -⟩ | ⟨heq, -⟩ | ⟨heq, -⟩ <;> rw [heq]

variable {next : Owner} {event : Event}

theorem Step.installed (hstep : Step owner event next) (h : owner.installed = true) :
    next.installed = true := by
  cases hstep with
  | kept _ _ hinstalled => exact hinstalled h
  | _ => exact h

theorem Step.quiesced_of (hstep : Step owner event next)
    (h : owner.state.quiesced = true) : next.state.quiesced = true := by
  cases hstep with
  | accepted | relaunched => exact (launch_quiesced _ _).trans h
  | quiesced => rfl
  | _ => exact h

theorem pending_move (h : owner.Pending other) (hfiber : owner.At fiber turnId phase) (hforked : phase ≠ .forked)
    (hrelaunching : phase ≠ .relaunching) (phase' : Phase) : (owner.move fiber turnId phase').Pending other := by
  refine h.imp_right fun ⟨index, hindex⟩ => ⟨index, ?_⟩
  have hne : index ≠ fiber := by
    rintro rfl
    rcases hindex with hindex | hindex
    · exact hforked (LifecycleFiber.mk.inj (Option.some_inj.mp (hfiber.symm.trans hindex))).2
    · exact hrelaunching (LifecycleFiber.mk.inj (Option.some_inj.mp (hfiber.symm.trans hindex))).2
  rwa [at_move hfiber, at_move hfiber, if_neg hne, if_neg hne]

/-- A fiber that moves was all that was pending, or what is pending stays so. -/
theorem pending_move_or (h : owner.Pending other) (hfiber : owner.At fiber turnId phase) (phase' : Phase) :
    (owner.move fiber turnId phase').Pending other ∨ other = turnId := by
  rcases h with hword | ⟨index, hindex⟩
  · exact .inl (.inl hword)
  · by_cases heq : index = fiber
    · refine .inr ?_
      rcases hindex with hindex | hindex <;>
        exact (LifecycleFiber.mk.inj (Option.some_inj.mp ((heq ▸ hindex).symm.trans hfiber))).1
    · refine .inl (.inr ⟨index, ?_⟩)
      rwa [at_move hfiber, at_move hfiber, if_neg heq, if_neg heq]

theorem pending_launch (h : owner.Pending other) (turnId : String) : (owner.launch turnId).Pending other := by
  rcases launch_cases owner turnId with ⟨heq, -⟩ | ⟨heq, -⟩ | ⟨heq, -⟩ <;> rw [heq]
  · exact h
  · refine h.imp_left fun hword => ?_
    rw [has_set, hword, Bool.or_true]
  · exact h.imp_right fun ⟨index, hindex⟩ =>
      ⟨index, hindex.imp (fun h => (List.getElem?_append_left (List.getElem?_eq_some_iff.mp h).1).trans h) fun h =>
        (List.getElem?_append_left (List.getElem?_eq_some_iff.mp h).1).trans h⟩

theorem launch_pending (hinstalled : owner.installed = true) (hopen : owner.state.quiesced = false) (turnId : String) :
    (owner.launch turnId).Pending turnId := by
  rcases launch_cases owner turnId with ⟨-, hclosed | hquiesced⟩ | ⟨heq, -⟩ | ⟨heq, -⟩
  · exact absurd (hclosed.symm.trans hinstalled) Bool.false_ne_true
  · exact absurd (hopen.symm.trans hquiesced) Bool.false_ne_true
  · rw [heq]
    refine .inl ?_
    simp
  · rw [heq]
    exact .inr ⟨owner.fibers.length, .inl List.getElem?_concat_length⟩

theorem Step.keeps (hstep : Step owner event next) (hrelease : event ≠ .release turnId)
    (hopen : next.state.quiesced = false) :
    (owner.state.claimed.has turnId = true → next.state.claimed.has turnId = true) ∧
      (owner.state.reobserve.has turnId = true → next.state.reobserve.has turnId = true) := by
  have hlaunch (owner : Owner) (other : String) : (owner.launch other).state.claimed = owner.state.claimed ∧
      (owner.launch other).state.reobserve = owner.state.reobserve := by
    rcases launch_cases owner other with ⟨heq, -⟩ | ⟨heq, -⟩ | ⟨heq, -⟩ <;> rw [heq] <;> exact ⟨rfl, rfl⟩
  cases hstep with
  | kept _ _ _ hclaimed hreobserve => exact ⟨hclaimed turnId, hreobserve turnId⟩
  | released other =>
    have hne : turnId ≠ other := fun heq => hrelease (by rw [heq])
    simp only [release, has_delete, decide_eq_false hne, Bool.not_false, Bool.true_and, imp_self, and_self]
  | accepted | relaunched =>
    rw [(hlaunch _ _).1, (hlaunch _ _).2]
    exact ⟨id, id⟩
  | quiesced => cases hopen
  | _ => exact ⟨id, id⟩

theorem Step.fibers_of_quiesced (hstep : Step owner event next)
    (hquiesced : owner.state.quiesced = true) : next.fibers.length = owner.fibers.length := by
  have hlaunch {owner : Owner} (other : String) (hquiesced : owner.state.quiesced = true) :
      (owner.launch other).fibers.length = owner.fibers.length := by
    rcases launch_cases owner other with ⟨heq, -⟩ | ⟨heq, -⟩ | ⟨-, -, hopen⟩
    · rw [heq]
    · rw [heq]
    · exact absurd (hopen.symm.trans hquiesced) Bool.false_ne_true
  cases hstep with
  | kept | released | quiesced => rfl
  | accepted turnId => exact hlaunch turnId hquiesced
  | began | completed | finished | dropped => exact List.length_set
  | @relaunched fiber turnId hfiber =>
    have hmoved : (owner.move fiber turnId .done).state.quiesced = true := hquiesced
    exact (hlaunch turnId hmoved).trans List.length_set

/-- What is pending stays pending until a lifecycle of the turn begins. -/
theorem Step.pending_or_begin (hstep : Step owner event next) (hinstalled : owner.installed = true)
    (h : owner.Pending other) (hopen : next.state.quiesced = false) :
    next.Pending other ∨ ∃ fiber, event = .begin fiber ∧ owner.At fiber other .forked := by
  cases hstep with
  | kept | released => exact .inl h
  | accepted turnId => exact .inl (pending_launch h turnId)
  | began hfiber =>
    rcases pending_move_or h hfiber .running with hpending | rfl
    · exact .inl hpending
    · exact .inr ⟨_, rfl, hfiber⟩
  | completed hfiber => exact .inl (pending_move h hfiber nofun nofun .ended)
  | @finished fiber turnId hfiber =>
    refine .inl ?_
    rcases pending_move h hfiber nofun nofun (if owner.state.relaunch.has turnId then .relaunching else .done) with
      hword | hindex
    · by_cases heq : other = turnId
      · subst heq
        refine .inr ⟨fiber, .inr ((at_move hfiber).mpr ?_)⟩
        rw [if_pos rfl]
        exact ⟨rfl, (if_pos hword).symm⟩
      · refine .inl ?_
        simp only [finish, has_delete, decide_eq_false heq, Bool.not_false, Bool.true_and]
        exact hword
    · exact .inr hindex
  | @relaunched fiber turnId hfiber =>
    rw [launch_quiesced] at hopen
    refine .inl ?_
    rcases pending_move_or h hfiber .done with hpending | rfl
    · exact pending_launch hpending turnId
    · have hmoved : (owner.move fiber other .done).installed = true := hinstalled
      exact launch_pending hmoved hopen other
  | dropped hfiber hquiesced => exact absurd (hopen.symm.trans hquiesced) Bool.false_ne_true
  | quiesced => cases hopen

end

theorem run_append (before later : List Event) (event : Event) :
    run (before ++ event :: later) = later.foldl step (step (run before) event) := List.foldl_append ..

theorem run_installed (later : List Event) (h : owner.installed = true) :
    (later.foldl step owner).installed = true :=
  List.foldlRecOn (motive := fun owner => owner.installed = true) later step h fun owner h event _ => (step_cases owner event).installed h

/-- Once the fibers of a turn have come to rest, each acceptance of the turn has been followed by the beginning of a
lifecycle, unless the thread is quiesced. -/
theorem accepted_begins (before later : List Event) (turnId : String) (hinstalled : (run before).installed = true)
    (hopen : (run (before ++ .accepted turnId :: later)).state.quiesced = false)
    (hrest : ∀ fiber phase, (run (before ++ .accepted turnId :: later)).At fiber turnId phase → phase = .done) :
    ∃ earlier fiber rest, later = earlier ++ .begin fiber :: rest ∧
      (run (before ++ .accepted turnId :: earlier)).At fiber turnId .forked := by
  have hpending : ∀ later : List Event, (run (before ++ .accepted turnId :: later)).state.quiesced = false →
      (run (before ++ .accepted turnId :: later)).Pending turnId ∨ ∃ earlier fiber rest,
        later = earlier ++ .begin fiber :: rest ∧ (run (before ++ .accepted turnId :: earlier)).At fiber turnId .forked := by
    intro later
    induction later using List.reverseRecOn with
    | nil =>
      intro hopen
      rw [run_append, List.foldl_nil, step] at hopen ⊢
      rw [launch_quiesced] at hopen
      exact .inl (launch_pending hinstalled hopen turnId)
    | append_singleton later event ih =>
      intro hopen
      rw [run_append, List.foldl_append, List.foldl_cons, List.foldl_nil, ← run_append] at hopen ⊢
      have hearlier : (run (before ++ .accepted turnId :: later)).state.quiesced = false :=
        Bool.eq_false_iff.mpr fun hquiesced => Bool.false_ne_true (hopen.symm.trans ((step_cases _ event).quiesced_of hquiesced))
      rcases ih hearlier with hpending | ⟨earlier, fiber, rest, rfl, hfiber⟩
      · have hlaunched : (run (before ++ .accepted turnId :: later)).installed = true := by
          rw [run_append]
          exact run_installed later hinstalled
        rcases (step_cases _ event).pending_or_begin hlaunched hpending hopen with hnext | ⟨fiber, rfl, hfiber⟩
        · exact .inl hnext
        · exact .inr ⟨later, fiber, [], rfl, hfiber⟩
      · exact .inr ⟨earlier, fiber, rest ++ [event], by simp, hfiber⟩
  refine (hpending later hopen).resolve_left ?_
  rintro (hword | ⟨fiber, hfiber | hfiber⟩)
  · obtain ⟨fiber, hget⟩ := has_iff.mp ((run_sound _).word hword)
    obtain ⟨-, phase, hfiber, hlive⟩ := (run_sound _).held hget
    rw [hrest fiber phase hfiber] at hlive
    cases hlive
  · cases hrest fiber .forked hfiber
  · cases hrest fiber .relaunching hfiber

def sampleEvents : List Event := [.complete 0, .finish 0, .relaunch 0, .begin 1, .complete 1, .finish 1]

theorem accepted_begins_again : ∃ earlier fiber rest, sampleEvents = earlier ++ .begin fiber :: rest ∧
    (run ([.install, .accepted "t", .begin 0] ++ .accepted "t" :: earlier)).At fiber "t" .forked := by
  refine accepted_begins [.install, .accepted "t", .begin 0] sampleEvents "t" rfl rfl fun fiber phase hfiber => ?_
  have hfibers : (run ([.install, .accepted "t", .begin 0] ++ .accepted "t" :: sampleEvents)).fibers =
      [⟨"t", .done⟩, ⟨"t", .done⟩] := by
    decide
  rw [Owner.At, hfibers] at hfiber
  match fiber with
  | 0 | 1 => exact (LifecycleFiber.mk.inj (Option.some_inj.mp hfiber)).2.symm
  | fiber + 2 => cases hfiber

/-- The event claims the turn, by itself or from the queue. -/
def Claims (owner : Owner) (turnId : String) : Event → Prop
  | .claim other latest expectedStatus => other = turnId ∧ (claim owner.state turnId latest expectedStatus).1 = true
  | .claimQueued next => (claimQueued owner.state next).1 = some turnId
  | _ => False

theorem claims_cases {turnId : String} {event : Event} (h : Claims owner turnId event) :
    owner.state.claimed.has turnId = false ∧ owner.state.quiesced = false ∧ (step owner event).state.claimed.has turnId = true := by
  have hset : (owner.state.claimed.set turnId ()).has turnId = true := by simp
  cases event with
  | claim other latest expectedStatus =>
    obtain ⟨rfl, h⟩ := h
    cases latest with
    | none => cases h
    | some status =>
      simp only [claim] at h
      split_ifs at h with hclaimed hrefused
      refine ⟨Bool.eq_false_iff.mpr hclaimed, Bool.eq_false_iff.mpr fun hquiesced => hrefused (.inl hquiesced), ?_⟩
      simp only [step, claim, if_neg hclaimed, if_neg hrefused, hset]
  | claimQueued next =>
    simp only [Claims, claimQueued] at h
    split at h
    · cases h
    · next hquiesced =>
        cases next with
        | none => cases h
        | some other =>
          dsimp only at h
          split at h
          · cases h
          · next hclaimed =>
              obtain rfl := Option.some_inj.mp h
              refine ⟨Bool.eq_false_iff.mpr hclaimed, Bool.eq_false_iff.mpr hquiesced, ?_⟩
              simp only [step, claimQueued, if_neg hquiesced, if_neg hclaimed, hset]
  | _ => exact h.elim

theorem run_quiesced (later : List Event) (h : owner.state.quiesced = true) :
    (later.foldl step owner).state.quiesced = true ∧ (later.foldl step owner).fibers.length = owner.fibers.length := by
  induction later generalizing owner with
  | nil => exact ⟨h, rfl⟩
  | cons event later ih =>
    have hstep := step_cases owner event
    obtain ⟨hquiesced, hfibers⟩ := ih (hstep.quiesced_of h)
    exact ⟨hquiesced, hfibers.trans (hstep.fibers_of_quiesced h)⟩

theorem run_keeps {turnId : String} {later : List Event} (hrelease : .release turnId ∉ later)
    (hopen : (later.foldl step owner).state.quiesced = false) :
    (owner.state.claimed.has turnId = true → (later.foldl step owner).state.claimed.has turnId = true) ∧
      (owner.state.reobserve.has turnId = true → (later.foldl step owner).state.reobserve.has turnId = true) := by
  induction later generalizing owner with
  | nil => exact ⟨id, id⟩
  | cons event later ih =>
    obtain ⟨hne, hlater⟩ := not_or.mp (List.mem_cons.not.mp hrelease)
    have hnext : (step owner event).state.quiesced = false := Bool.eq_false_iff.mpr fun hquiesced =>
      Bool.false_ne_true (hopen.symm.trans (run_quiesced later hquiesced).1)
    obtain ⟨hclaimed, hreobserve⟩ := (step_cases owner event).keeps (Ne.symm hne) hnext
    obtain ⟨hclaimed', hreobserve'⟩ := ih hlater hopen
    exact ⟨hclaimed' ∘ hclaimed, hreobserve' ∘ hreobserve⟩

/-- A turn that is claimed is not claimed again before it is released, the release reports a claim that was made
meanwhile, and a quiesced thread claims and launches nothing more. -/
structure HandsOver (events : List Event) : Prop where
  exclusive {before middle later : List Event} {event event' : Event} {turnId : String} :
    events = before ++ event :: middle ++ event' :: later → Claims (run before) turnId event →
      Claims (run (before ++ event :: middle)) turnId event' → .release turnId ∈ middle
  reported {before middle later : List Event} {turnId : String} {latest : Status} {expectedStatus : Option Status} :
    events = before ++ .claim turnId (some latest) expectedStatus :: middle ++ .release turnId :: later →
      (run before).state.claimed.has turnId = true → .release turnId ∉ middle →
      (run (before ++ .claim turnId (some latest) expectedStatus :: middle)).state.quiesced = false →
      (release (run (before ++ .claim turnId (some latest) expectedStatus :: middle)).state turnId).1 = true
  quiesced {before later : List Event} : events = before ++ .quiesce :: later →
    (run events).fibers.length = (run before).fibers.length ∧ ∀ turnId event, ¬ Claims (run events) turnId event

theorem claims_handed_over (events : List Event) : HandsOver events := by
  refine ⟨fun {before middle later event event' turnId} _ hclaims hclaims' => ?_,
    fun {before middle later turnId latest expectedStatus} _ hclaimed hrelease hopen => ?_, fun {before later} heq => ?_⟩
  · by_contra hrelease
    obtain ⟨hfree, hopen, -⟩ := claims_cases hclaims'
    rw [run_append] at hfree hopen
    have hheld := (run_keeps hrelease hopen).1 (claims_cases hclaims).2.2
    exact Bool.false_ne_true (hfree.symm.trans hheld)
  · rw [run_append] at hopen ⊢
    refine (run_keeps hrelease hopen).2 ?_
    simp only [step, claim, if_pos hclaimed]
    simp
  · rw [heq, run_append]
    have hstart : (step (run before) .quiesce).state.quiesced = true := rfl
    obtain ⟨hquiesced, hfibers⟩ := run_quiesced later hstart
    refine ⟨hfibers, fun turnId event hclaims => ?_⟩
    exact Bool.false_ne_true ((claims_cases hclaims).2.1.symm.trans hquiesced)

end Rika.RootTurnOwner
