import Mathlib.Data.List.Induction
import Mathlib.Data.Prod.Lex
import Rika.WorkspacePreparations

namespace Rika.WorkspacePreparations

variable {json : StoredJson} {preparations : Preparations} {world : World} {input : PreparationAttempt}

/-! ### What a call does to a row -/

/-- What a call may do to the row of one workspace. -/
inductive Change : Option WorkspacePreparation → Option WorkspacePreparation → Prop
  | same {row} : Change row row
  | started {input deadlineAt assignment} : Change none (some (startedRow input deadlineAt assignment))
  | restarted {row excluded} (hsuperseded : row.superseded excluded = true) (hpreparing : excluded.state = .preparing) :
      Change (some row) (some (row.restarted excluded))
  | finished {row input ending} (hfinishable : row.finishable input = true) :
      Change (some row) (some (finishedRow input ending row))
  | expired {row now} (hoverdue : row.overdue now = true) : Change (some row) (some (expiredRow now row))

/-- The start gets as far as the write: its assignment is authenticated, and the row to be
written passes the checks. -/
structure Startable (json : StoredJson) (world : World) (input : PreparationAttempt) (deadlineAt : Nat)
    (assignment : AuthenticatedAssignment) : Prop where
  authenticated : authenticate json world input.access = .ok assignment
  workspace : assignment.workspaceId = input.workspaceId
  deadline : input.now < deadlineAt
  valid : (startedRow input deadlineAt assignment).violates json = false

def started (preparations : Preparations) (excluded : WorkspacePreparation) : Preparations :=
  preparations.upsert excluded (fun row => row.restarted excluded) (WorkspacePreparation.restarted_key excluded)

theorem start_cases (json : StoredJson) (preparations : Preparations) (world : World) (input : PreparationAttempt)
    (deadlineAt : Nat) :
    ((∀ assignment, ¬ Startable json world input deadlineAt assignment) ∧
      ∃ error, start json preparations world input deadlineAt = (.error error, preparations)) ∨
    ∃ assignment, Startable json world input deadlineAt assignment ∧
      start json preparations world input deadlineAt =
        (startedPreparation (started preparations (startedRow input deadlineAt assignment)) input,
          started preparations (startedRow input deadlineAt assignment)) := by
  rw [start]
  cases hauthenticated : authenticate json world input.access with
  | error error =>
    refine .inl ⟨?_, error, rfl⟩
    intro assignment h
    rw [h.authenticated] at hauthenticated
    cases hauthenticated
  | ok assignment =>
    have hsame : ∀ {assignment'}, Startable json world input deadlineAt assignment' → assignment' = assignment := by
      intro assignment' h
      exact Except.ok.inj (h.authenticated.symm.trans hauthenticated)
    dsimp only
    by_cases hworkspace : assignment.workspaceId ≠ input.workspaceId
    · rw [if_pos hworkspace]
      exact .inl ⟨fun assignment' h => hworkspace (hsame h ▸ h.workspace), _, rfl⟩
    · rw [if_neg hworkspace]
      by_cases hdeadline : deadlineAt ≤ input.now
      · rw [if_pos hdeadline]
        exact .inl ⟨fun assignment' h => absurd h.deadline (Nat.not_lt_of_le hdeadline), _, rfl⟩
      · rw [if_neg hdeadline]
        cases hvalid : (startedRow input deadlineAt assignment).violates json with
        | true =>
          rw [if_pos rfl]
          refine .inl ⟨?_, _, rfl⟩
          intro assignment' h
          have hchecked := h.valid
          rw [hsame h, hvalid] at hchecked
          cases hchecked
        | false =>
          rw [if_neg Bool.false_ne_true]
          exact .inr ⟨assignment, ⟨hauthenticated, not_not.mp hworkspace, Nat.lt_of_not_le hdeadline, hvalid⟩, rfl⟩

structure Finishable (json : StoredJson) (world : World) (input : PreparationAttempt) (ending : Ending)
    (row : WorkspacePreparation) : Prop where
  authenticated : ∃ assignment, authenticate json world input.access = .ok assignment ∧
    assignment.workspaceId = input.workspaceId ∧ ending.matchesAssignment assignment = true
  finishable : row.finishable input = true
  valid : (finishedRow input ending row).violates json = false

section

variable (preparations : Preparations) (input : PreparationAttempt) (ending : Ending)

def finished : Preparations :=
  preparations.update (fun row => row.finishable input) (finishedRow input ending) (finishedRow_key input ending)

theorem finish_cases (json : StoredJson) (preparations : Preparations) (world : World) (input : PreparationAttempt)
    (ending : Ending) :
    ((∃ error, (finish json preparations world input ending).1 = .error error) ∧
        (finish json preparations world input ending).2 = preparations) ∨
    (∃ row, preparations.find input.key = some row ∧ Finishable json world input ending row ∧
      finish json preparations world input ending =
        (current (finished preparations input ending) input.access.assignmentId input.access.assignmentGeneration,
          finished preparations input ending)) ∨
    ∃ row, preparations.find input.key = some row ∧ duplicate row input ending = true ∧
      finish json preparations world input ending = (.ok row, preparations) := by
  rw [finish]
  cases hauthenticated : authenticate json world input.access with
  | error error => exact .inl ⟨⟨error, rfl⟩, rfl⟩
  | ok assignment =>
    dsimp only
    by_cases hworkspace : assignment.workspaceId ≠ input.workspaceId
    · rw [if_pos hworkspace]
      exact .inl ⟨⟨_, rfl⟩, rfl⟩
    · rw [if_neg hworkspace]
      by_cases hmatches : ¬ ending.matchesAssignment assignment = true
      · rw [if_pos hmatches]
        exact .inl ⟨⟨_, rfl⟩, rfl⟩
      · rw [if_neg hmatches]
        cases hfound : (preparations.find input.key).filter fun row => row.finishable input with
        | some row =>
          obtain ⟨hfind, hfinishable⟩ := Option.filter_eq_some_iff.mp hfound
          dsimp only
          cases hvalid : (finishedRow input ending row).violates json with
          | true =>
            rw [if_pos rfl]
            exact .inl ⟨⟨_, rfl⟩, rfl⟩
          | false =>
            rw [if_neg Bool.false_ne_true]
            refine .inr (.inl ⟨row, hfind, ⟨⟨assignment, hauthenticated, not_not.mp hworkspace, not_not.mp hmatches⟩,
              hfinishable, hvalid⟩, rfl⟩)
        | none =>
          dsimp only
          cases hcurrent : current preparations input.access.assignmentId input.access.assignmentGeneration with
          | error error => exact .inl ⟨⟨error, rfl⟩, rfl⟩
          | ok existing =>
            dsimp only
            by_cases hduplicate : ¬ duplicate existing input ending = true
            · rw [if_pos hduplicate]
              exact .inl ⟨⟨_, rfl⟩, rfl⟩
            · rw [if_neg hduplicate]
              refine .inr (.inr ⟨existing, ?_, not_not.mp hduplicate, rfl⟩)
              rw [current] at hcurrent
              split at hcurrent
              · cases hcurrent
              · next row hfind =>
                  rw [decode] at hcurrent
                  obtain ⟨-, hcurrent⟩ := Fold.ite_error_eq_ok.mp hcurrent
                  cases hcurrent
                  exact hfind

theorem find_started (preparations : Preparations) (excluded : WorkspacePreparation) (k : String × Nat) :
    (started preparations excluded).find k =
      if k = excluded.key then some ((preparations.find k).elim excluded fun row => row.restarted excluded)
      else preparations.find k :=
  Table.find_upsert ..

theorem find_finished (k : String × Nat) : (finished preparations input ending).find k =
      (preparations.find k).map fun row => if row.finishable input then finishedRow input ending row else row :=
  Table.find_update ..

end

theorem restarted_change (row excluded : WorkspacePreparation) (hpreparing : excluded.state = .preparing) :
    Change (some row) (some (row.restarted excluded)) := by
  by_cases hsuperseded : row.superseded excluded = true
  · exact .restarted hsuperseded hpreparing
  · rw [WorkspacePreparation.restarted, if_neg hsuperseded]
    exact .same

section

variable (json : StoredJson) (preparations : Preparations)

theorem start_change (world : World) (input : PreparationAttempt)
    (deadlineAt : Nat) (k : String × Nat) :
    Change (preparations.find k) ((start json preparations world input deadlineAt).2.find k) := by
  rcases start_cases json preparations world input deadlineAt with ⟨-, error, h⟩ | ⟨assignment, -, h⟩
  · rw [h]
    exact .same
  · rw [h]
    dsimp only
    rw [find_started]
    by_cases hk : k = (startedRow input deadlineAt assignment).key
    · rw [if_pos hk]
      cases preparations.find k with
      | none => exact .started
      | some row => exact restarted_change row _ rfl
    · rw [if_neg hk]
      exact .same

theorem finish_change (world : World) (input : PreparationAttempt)
    (ending : Ending) (k : String × Nat) :
    Change (preparations.find k) ((finish json preparations world input ending).2.find k) := by
  rcases finish_cases json preparations world input ending with ⟨-, h⟩ | ⟨row, -, -, h⟩ | ⟨row, -, -, h⟩
  · rw [h]
    exact .same
  · rw [h]
    dsimp only
    rw [find_finished]
    cases preparations.find k with
    | none => exact .same
    | some row =>
      rw [Option.map_some]
      by_cases hfinishable : row.finishable input = true
      · rw [if_pos hfinishable]
        exact .finished hfinishable
      · rw [if_neg hfinishable]
        exact .same
  · rw [h]
    exact .same

theorem step_change (operation : Operation) (k : String × Nat) :
    Change (preparations.find k) ((step json preparations operation).find k) := by
  cases operation with
  | start world input deadlineAt => exact start_change json preparations world input deadlineAt k
  | complete world input evidence => exact finish_change json preparations world input (.completed evidence) k
  | fail world input message retryable => exact finish_change json preparations world input (.failed message retryable) k
  | expireOverdue now =>
    rw [step, expireOverdue]
    split
    · exact .same
    · dsimp only
      rw [Table.find_update]
      cases preparations.find k with
      | none => exact .same
      | some row =>
        rw [Option.map_some]
        by_cases hoverdue : row.overdue now = true
        · rw [if_pos hoverdue]
          exact .expired hoverdue
        · rw [if_neg hoverdue]
          exact .same

end

/-! ### Attempts -/

def WorkspacePreparation.attemptOf (row : WorkspacePreparation) : Nat ×ₗ Nat := toLex (row.leaseEpoch, row.attempt)

def WorkspacePreparation.position (row : WorkspacePreparation) : Nat ×ₗ Nat ×ₗ Nat :=
  toLex (row.leaseEpoch, toLex (row.attempt, row.phase.rank))

variable {row excluded : WorkspacePreparation} {deadlineAt : Nat} {assignment : AuthenticatedAssignment} {ending : Ending}
    {k : String × Nat} {operation : Operation} {operations : List Operation} {holds : Preparations → Operation → Prop}

theorem position_le {row' : WorkspacePreparation} : row.position ≤ row'.position ↔
      row.attemptOf < row'.attemptOf ∨ row.attemptOf = row'.attemptOf ∧ row.phase ≤ row'.phase := by
  simp only [WorkspacePreparation.position, WorkspacePreparation.attemptOf, Prod.Lex.toLex_le_toLex, Prod.Lex.toLex_lt_toLex,
    EmbeddingLike.apply_eq_iff_eq, Prod.mk.injEq]
  constructor
  · intro h
    rcases h with h | ⟨hlease, h | ⟨hattempt, h⟩⟩
    · exact .inl (.inl h)
    · exact .inl (.inr ⟨hlease, h⟩)
    · exact .inr ⟨⟨hlease, hattempt⟩, h⟩
  · intro h
    rcases h with (h | ⟨hlease, h⟩) | ⟨⟨hlease, hattempt⟩, h⟩
    · exact .inl h
    · exact .inr ⟨hlease, .inl h⟩
    · exact .inr ⟨hlease, .inr ⟨hattempt, h⟩⟩

theorem superseded_position (h : row.superseded excluded = true) :
    row.attemptOf < excluded.attemptOf ∨
      row.attemptOf = excluded.attemptOf ∧ row.state = .preparing ∧ row.phase ≤ excluded.phase := by
  simp only [WorkspacePreparation.superseded, Bool.or_eq_true, Bool.and_eq_true, decide_eq_true_eq] at h
  rw [WorkspacePreparation.attemptOf, WorkspacePreparation.attemptOf, Prod.Lex.toLex_lt_toLex,
    EmbeddingLike.apply_eq_iff_eq, Prod.mk.injEq]
  rcases h with h | ⟨hlease, ⟨⟨hattempt, hstate⟩, hphase⟩ | ⟨⟨hattempt, -⟩, -⟩⟩
  · exact .inl (.inl h)
  · exact .inr ⟨⟨hlease, hattempt⟩, hstate, hphase⟩
  · exact .inl (.inr ⟨hlease, hattempt⟩)

/-- A row stays, gives way to another attempt, or goes on; only an ending may take its phase back. -/
theorem Change.some {after : Option WorkspacePreparation} (h : Change (some row) after) :
    ∃ row', after = some row' ∧
      (row' = row ∨ row.attemptOf < row'.attemptOf ∨ row.attemptOf = row'.attemptOf ∧ row.state = .preparing) := by
  cases h with
  | same => exact ⟨row, rfl, .inl rfl⟩
  | restarted hsuperseded hpreparing =>
    refine ⟨_, rfl, ?_⟩
    rw [WorkspacePreparation.restarted, if_pos hsuperseded]
    rcases superseded_position hsuperseded with h | ⟨h, hstate, -⟩
    · exact .inr (.inl h)
    · exact .inr (.inr ⟨h, hstate⟩)
  | finished hfinishable =>
    simp only [WorkspacePreparation.finishable, Bool.and_eq_true, decide_eq_true_eq] at hfinishable
    exact ⟨_, rfl, .inr (.inr ⟨rfl, hfinishable.1.2⟩)⟩
  | expired hoverdue =>
    rw [WorkspacePreparation.overdue, Bool.and_eq_true, decide_eq_true_eq] at hoverdue
    exact ⟨_, rfl, .inr (.inr ⟨rfl, hoverdue.1⟩)⟩

/-! ### Runs -/

theorem run_append (json : StoredJson) (done : List Operation) (operation : Operation) :
    run json (done ++ [operation]) = step json (run json done) operation := by
  rw [run, List.foldl_append]
  rfl

/-- A row of the checks: its numbers are positive, and it has what its state asks for. -/
structure Sound (row : WorkspacePreparation) : Prop where
  attempt : 1 ≤ row.attempt
  generation : 1 ≤ row.generation
  leaseEpoch : 1 ≤ row.leaseEpoch
  evidence : row.evidence.isSome = true ↔ row.state = .ready
  failure : row.failure.isSome = true ↔ row.state = .failed

def AllSound (preparations : Preparations) : Prop := ∀ row ∈ preparations.rows, Sound row

theorem startedRow_sound
    (h : Startable json world input deadlineAt assignment) : Sound (startedRow input deadlineAt assignment) := by
  have hvalid := h.valid
  simp only [WorkspacePreparation.violates, Bool.or_eq_false_iff, decide_eq_false_iff_not, Nat.not_lt] at hvalid
  refine ⟨hvalid.1.1.1.1, hvalid.1.1.1.2, hvalid.1.1.2, ?_, ?_⟩
  · exact ⟨fun h => (by cases h), fun h => (by cases h)⟩
  · exact ⟨fun h => (by cases h), fun h => (by cases h)⟩

theorem restarted_sound (hrow : Sound row) (hexcluded : Sound excluded) : Sound (row.restarted excluded) := by
  rw [WorkspacePreparation.restarted]
  split
  · refine ⟨hexcluded.attempt, hrow.generation, hexcluded.leaseEpoch, ?_, ?_⟩
    · exact ⟨fun h => (by cases h), fun h => (by cases h)⟩
    · exact ⟨fun h => (by cases h), fun h => (by cases h)⟩
  · exact hrow

theorem finishedRow_sound (hrow : Sound row) : Sound (finishedRow input ending row) := by
  refine ⟨hrow.attempt, hrow.generation, hrow.leaseEpoch, ?_, ?_⟩
  · cases ending with
    | completed evidence => exact ⟨fun _ => rfl, fun _ => rfl⟩
    | failed message retryable => exact ⟨fun h => (by cases h), fun h => (by cases h)⟩
  · cases ending with
    | completed evidence => exact ⟨fun h => (by cases h), fun h => (by cases h)⟩
    | failed message retryable => exact ⟨fun _ => rfl, fun _ => rfl⟩

theorem expiredRow_sound (hrow : Sound row) (now : Nat) : Sound (expiredRow now row) := by
  refine ⟨hrow.attempt, hrow.generation, hrow.leaseEpoch, ?_, ?_⟩
  · exact ⟨fun h => (by cases h), fun h => (by cases h)⟩
  · exact ⟨fun _ => rfl, fun _ => rfl⟩

theorem finish_sound (h : AllSound preparations) (ending : Ending) :
    AllSound (finish json preparations world input ending).2 := by
  rcases finish_cases json preparations world input ending with ⟨-, hsame⟩ | ⟨row, -, -, hfinish⟩ | ⟨row, -, -, hsame⟩
  · rwa [hsame]
  · rw [hfinish]
    intro row' hrow'
    obtain ⟨old, hold, rfl⟩ := List.mem_map.mp hrow'
    split
    · exact finishedRow_sound (h old hold)
    · exact h old hold
  · rwa [hsame]

theorem step_sound (h : AllSound preparations) (operation : Operation) : AllSound (step json preparations operation) := by
  cases operation with
  | start world input deadlineAt =>
    rw [step]
    rcases start_cases json preparations world input deadlineAt with ⟨-, error, hsame⟩ | ⟨assignment, hstartable, hstart⟩
    · rwa [hsame]
    · rw [hstart]
      intro row hrow
      rcases Table.mem_upsert hrow with rfl | hrow | ⟨old, hold, -, rfl⟩
      · exact startedRow_sound hstartable
      · exact h row hrow
      · exact restarted_sound (h old hold) (startedRow_sound hstartable)
  | complete world input evidence => exact finish_sound h (.completed evidence)
  | fail world input message retryable => exact finish_sound h (.failed message retryable)
  | expireOverdue now =>
    rw [step, expireOverdue]
    split
    · exact h
    · intro row hrow
      obtain ⟨old, hold, rfl⟩ := List.mem_map.mp hrow
      split
      · exact expiredRow_sound (h old hold) now
      · exact h old hold

theorem run_sound (json : StoredJson) (operations : List Operation) : AllSound (run json operations) := by
  induction operations using List.reverseRecOn with
  | nil => exact fun row hrow => absurd hrow List.not_mem_nil
  | append_singleton done operation ih =>
    rw [run_append]
    exact step_sound ih operation

/-- An attempt that is over stays as it is, for as long as its workspace has no other. -/
theorem settled_stays (hrow : preparations.find k = some row) (hover : row.state ≠ .preparing) (later : List Operation) :
    ∃ row', (later.foldl (step json) preparations).find k = some row' ∧
      (row' = row ∨ row.attemptOf < row'.attemptOf) := by
  induction later using List.reverseRecOn with
  | nil => exact ⟨row, hrow, .inl rfl⟩
  | append_singleton later operation ih =>
    obtain ⟨between, hbetween, hcase⟩ := ih
    have hchange := step_change json (later.foldl (step json) preparations) operation k
    rw [hbetween] at hchange
    obtain ⟨row', hrow', hmove⟩ := hchange.some
    refine ⟨row', ?_, ?_⟩
    · rw [List.foldl_append]
      exact hrow'
    · rcases hcase with rfl | hlater
      · rcases hmove with hsame | hmore | ⟨-, hpreparing⟩
        · exact .inl hsame
        · exact .inr hmore
        · exact absurd hpreparing hover
      · rcases hmove with rfl | hmore | ⟨hattempt, -⟩
        · exact .inr hlater
        · exact .inr (hlater.trans hmore)
        · exact .inr (hattempt ▸ hlater)

/-- A row is stored under the key of the call, of its lease, attempt and phase. -/
def Recorded (preparations : Preparations) (input : PreparationAttempt) (row : WorkspacePreparation) : Prop :=
  preparations.find input.key = some row ∧ row.leaseEpoch = input.access.leaseEpoch ∧ row.attempt = input.attempt ∧
    row.phase = input.phase

def Operation.finishing : Operation → Option (World × PreparationAttempt × Ending)
  | .complete world input evidence => some (world, input, .completed evidence)
  | .fail world input message retryable => some (world, input, .failed message retryable)
  | .start _ _ _ | .expireOverdue _ => none

theorem step_finishing
    (h : operation.finishing = some (world, input, ending)) (json : StoredJson) (preparations : Preparations) :
    step json preparations operation = (finish json preparations world input ending).2 := by
  cases operation with
  | complete world' input' evidence =>
    cases h
    rfl
  | fail world' input' message retryable =>
    cases h
    rfl
  | start world' input' deadlineAt => cases h
  | expireOverdue now => cases h

/-- A start of the stored attempt names the phase that the attempt is in, and an ending that is written does not name an
earlier one. -/
structure InOrder (json : StoredJson) (preparations : Preparations) (operation : Operation) : Prop where
  starting : ∀ world input deadlineAt, operation = .start world input deadlineAt →
    ∀ assignment, Startable json world input deadlineAt assignment →
      ∀ row, preparations.find input.key = some row → decode row = .ok row →
        row.leaseEpoch = input.access.leaseEpoch → row.attempt = input.attempt →
          row.phase = input.phase ∨ row.state = .preparing ∧ row.phase ≤ input.phase
  finishing : ∀ world input ending, operation.finishing = some (world, input, ending) →
    ∀ row, preparations.find input.key = some row → Finishable json world input ending row → row.phase ≤ input.phase

theorem current_eq_ok {assignmentId : String} {generation : Nat} (h : current preparations assignmentId generation = .ok row) :
    preparations.find (assignmentId, generation) = some row ∧ decode row = .ok row := by
  rw [current] at h
  split at h
  · cases h
  · next found hfind =>
      have hdecode := h
      rw [decode] at h
      obtain ⟨-, h⟩ := Fold.ite_error_eq_ok.mp h
      cases h
      exact ⟨hfind, hdecode⟩

theorem startedPreparation_eq_ok (h : startedPreparation preparations input = .ok row) :
    preparations.find input.key = some row ∧ decode row = .ok row ∧ row.leaseEpoch = input.access.leaseEpoch ∧
      row.attempt = input.attempt := by
  rw [startedPreparation] at h
  split at h
  · cases h
  · next found hcurrent =>
      obtain ⟨hfind, hdecode⟩ := current_eq_ok hcurrent
      obtain ⟨hsame, h⟩ := Fold.ite_error_eq_ok.mp h
      cases h
      rw [not_or, not_not, not_not] at hsame
      exact ⟨hfind, hdecode, hsame.1, hsame.2⟩

theorem superseded_of_phase (hlease : row.leaseEpoch = excluded.leaseEpoch) (hattempt : row.attempt = excluded.attempt) :
    row.superseded excluded = true ↔ row.state = .preparing ∧ row.phase ≤ excluded.phase := by
  simp [WorkspacePreparation.superseded, hlease, hattempt]

theorem start_recorded (hinorder : InOrder json preparations (.start world input deadlineAt))
    (h : (start json preparations world input deadlineAt).1 = .ok row) :
    Recorded (start json preparations world input deadlineAt).2 input row := by
  rcases start_cases json preparations world input deadlineAt with ⟨-, error, hstart⟩ | ⟨assignment, hstartable, hstart⟩
  · rw [hstart] at h
    cases h
  · rw [hstart] at h ⊢
    obtain ⟨hfind, hdecode, hlease, hattempt⟩ := startedPreparation_eq_ok h
    refine ⟨hfind, hlease, hattempt, ?_⟩
    rw [find_started, if_pos (by rfl)] at hfind
    cases hold : preparations.find input.key with
    | none =>
      rw [hold] at hfind
      obtain rfl := Option.some_inj.mp hfind
      rfl
    | some old =>
      rw [hold] at hfind
      obtain rfl := Option.some_inj.mp hfind
      dsimp only [Option.elim] at hdecode hlease hattempt ⊢
      by_cases hsuperseded : old.superseded (startedRow input deadlineAt assignment) = true
      · rw [WorkspacePreparation.restarted, if_pos hsuperseded]
        rfl
      · rw [WorkspacePreparation.restarted, if_neg hsuperseded] at hdecode hlease hattempt ⊢
        rcases hinorder.starting world input deadlineAt rfl assignment hstartable old hold hdecode hlease hattempt with
          hphase | hpreparing
        · exact hphase
        · exact absurd ((superseded_of_phase hlease hattempt).mpr hpreparing) hsuperseded

theorem finish_recorded (hsound : AllSound preparations) (h : (finish json preparations world input ending).1 = .ok row) :
    Recorded (finish json preparations world input ending).2 input row ∧ row.state = ending.state ∧
      row.evidence = ending.evidence ∧ row.failure = ending.failure := by
  rcases finish_cases json preparations world input ending with ⟨⟨error, herror⟩, -⟩ | ⟨old, hold, hfinishable, hfinish⟩ |
    ⟨old, hold, hduplicate, hfinish⟩
  · rw [herror] at h
    cases h
  · rw [hfinish] at h ⊢
    obtain ⟨hfind, -⟩ := current_eq_ok h
    dsimp only
    have hwritten : (finished preparations input ending).find input.key = some (finishedRow input ending old) := by
      rw [find_finished, hold, Option.map_some, if_pos hfinishable.finishable]
    obtain rfl := Option.some_inj.mp (hwritten.symm.trans hfind)
    have hrow := hfinishable.finishable
    simp only [WorkspacePreparation.finishable, Bool.and_eq_true, decide_eq_true_eq] at hrow
    exact ⟨⟨hwritten, hrow.1.1.1.2, hrow.1.1.2, rfl⟩, rfl, rfl, rfl⟩
  · rw [hfinish] at h ⊢
    obtain rfl := Except.ok.inj h
    have hrow := hsound old (Table.mem_of_find hold)
    simp only [duplicate, Bool.and_eq_true, decide_eq_true_eq] at hduplicate
    obtain ⟨⟨⟨⟨hstate, hlease⟩, hattempt⟩, hphase⟩, hending⟩ := hduplicate
    refine ⟨⟨hold, hlease, hattempt, hphase⟩, hstate, ?_⟩
    cases ending with
    | completed evidence =>
      have hnone : ¬ old.failure.isSome = true := by
        rw [hrow.failure, hstate]
        exact fun h => (by cases h)
      exact ⟨of_decide_eq_true hending, Option.not_isSome_iff_eq_none.mp hnone⟩
    | failed message retryable =>
      have hnone : ¬ old.evidence.isSome = true := by
        rw [hrow.evidence, hstate]
        exact fun h => (by cases h)
      exact ⟨Option.not_isSome_iff_eq_none.mp hnone, of_decide_eq_true hending⟩

theorem step_onward (operation : Operation) (hinorder : InOrder json preparations operation)
    (hrow : preparations.find k = some row) :
    ∃ row', (step json preparations operation).find k = some row' ∧ row.position ≤ row'.position := by
  have hfinish : ∀ world input ending, operation.finishing = some (world, input, ending) →
      ∃ row', (step json preparations operation).find k = some row' ∧ row.position ≤ row'.position := by
    intro world input ending hfinishing
    rw [step_finishing hfinishing]
    rcases finish_cases json preparations world input ending with ⟨-, h⟩ | ⟨old, hold, hfinishable, h⟩ | ⟨old, -, -, h⟩
    · rw [h]
      exact ⟨row, hrow, le_rfl⟩
    · rw [h]
      refine ⟨_, by rw [find_finished, hrow, Option.map_some], ?_⟩
      split
      · next hwritten =>
          have hkey : row.key = input.key := by
            simp only [WorkspacePreparation.finishable, Bool.and_eq_true, decide_eq_true_eq] at hwritten
            exact hwritten.1.1.1.1
          rw [← (Table.key_of_find hrow), hkey, hold] at hrow
          obtain rfl := Option.some_inj.mp hrow
          exact position_le.mpr (.inr ⟨rfl, hinorder.finishing world input ending hfinishing old hold hfinishable⟩)
      · exact le_rfl
    · rw [h]
      exact ⟨row, hrow, le_rfl⟩
  cases operation with
  | complete world input evidence => exact hfinish world input (.completed evidence) rfl
  | fail world input message retryable => exact hfinish world input (.failed message retryable) rfl
  | start world input deadlineAt =>
    rw [step]
    rcases start_cases json preparations world input deadlineAt with ⟨-, error, h⟩ | ⟨assignment, -, h⟩
    · rw [h]
      exact ⟨row, hrow, le_rfl⟩
    · rw [h, find_started, hrow]
      split
      · refine ⟨_, rfl, ?_⟩
        rw [Option.elim, WorkspacePreparation.restarted]
        split
        · next hsuperseded =>
            apply position_le.mpr
            rcases superseded_position hsuperseded with hlater | ⟨hsame, -, hphase⟩
            · exact .inl hlater
            · exact .inr ⟨hsame, hphase⟩
        · exact le_rfl
      · exact ⟨row, rfl, le_rfl⟩
  | expireOverdue now =>
    rw [step, expireOverdue]
    split
    · exact ⟨row, hrow, le_rfl⟩
    · refine ⟨_, by rw [Table.find_update, hrow, Option.map_some], ?_⟩
      split
      · exact le_rfl
      · exact le_rfl

theorem start_advances
    (hstartable : Startable json world input deadlineAt assignment) (hrow : preparations.find input.key = some row)
    (hpreparing : row.state = .preparing) (hlease : row.leaseEpoch = input.access.leaseEpoch)
    (hattempt : row.attempt = input.attempt) (hphase : row.phase ≤ input.phase) :
    ∃ row', (start json preparations world input deadlineAt).1 = .ok row' ∧
      Recorded (start json preparations world input deadlineAt).2 input row' ∧ row'.state = .preparing := by
  rcases start_cases json preparations world input deadlineAt with ⟨hnone, -⟩ | ⟨assignment', -, hstart⟩
  · exact absurd hstartable (hnone assignment)
  · rw [hstart]
    have hsuperseded : row.superseded (startedRow input deadlineAt assignment') = true :=
      (superseded_of_phase hlease hattempt).mpr ⟨hpreparing, hphase⟩
    have hfind : (started preparations (startedRow input deadlineAt assignment')).find input.key =
        some (row.restarted (startedRow input deadlineAt assignment')) := by
      rw [find_started, if_pos (by rfl), hrow]
      rfl
    rw [WorkspacePreparation.restarted, if_pos hsuperseded] at hfind
    refine ⟨_, ?_, ⟨hfind, rfl, rfl, rfl⟩, rfl⟩
    rw [startedPreparation, current]
    dsimp only [PreparationAttempt.key] at hfind
    rw [hfind]
    dsimp only
    rw [decode, if_neg (by exact Bool.false_ne_true)]
    dsimp only
    rw [if_neg (by rintro (h | h) <;> exact h rfl)]

/-! ### Preparations go forward -/

/-- Every call of a run comes to the preparations that those before it left. -/
def Each (json : StoredJson) (operations : List Operation) (holds : Preparations → Operation → Prop) : Prop :=
  ∀ done operation rest, operations = done ++ operation :: rest → holds (run json done) operation

structure Forward (json : StoredJson) (operations : List Operation) : Prop where
  onward : Each json operations fun preparations operation => ∀ k row, preparations.find k = some row →
    ∃ row', (step json preparations operation).find k = some row' ∧ row.position ≤ row'.position
  started : Each json operations fun preparations operation => ∀ world input deadlineAt,
    operation = .start world input deadlineAt →
      ∀ row, (start json preparations world input deadlineAt).1 = .ok row →
        Recorded (step json preparations operation) input row
  finished : Each json operations fun preparations operation => ∀ world input ending,
    operation.finishing = some (world, input, ending) →
      ∀ row, (finish json preparations world input ending).1 = .ok row →
        Recorded (step json preparations operation) input row ∧ row.state = ending.state ∧
          row.evidence = ending.evidence ∧ row.failure = ending.failure
  settled : ∀ done later rest, operations = done ++ later ++ rest →
    ∀ k row, (run json done).find k = some row → row.state ≠ .preparing →
      ∃ row', (run json (done ++ later)).find k = some row' ∧ (row' = row ∨ row.attemptOf < row'.attemptOf)
  evidenced : ∀ done rest, operations = done ++ rest →
    ∀ row ∈ (run json done).rows, row.state = .ready → row.evidence.isSome = true
  advances : Each json operations fun preparations operation => ∀ world input deadlineAt,
    operation = .start world input deadlineAt →
      ∀ assignment, Startable json world input deadlineAt assignment →
        ∀ row, preparations.find input.key = some row → row.state = .preparing →
          row.leaseEpoch = input.access.leaseEpoch → row.attempt = input.attempt → row.phase ≤ input.phase →
            ∃ row', (start json preparations world input deadlineAt).1 = .ok row' ∧
              Recorded (step json preparations operation) input row' ∧ row'.state = .preparing

theorem Each.imp {holds' : Preparations → Operation → Prop} (h : Each json operations holds)
    (himp : ∀ done operation, holds (run json done) operation → holds' (run json done) operation) :
    Each json operations holds' :=
  fun done operation rest hrun => himp done operation (h done operation rest hrun)

theorem Each.of_forall (h : ∀ preparations operation, holds preparations operation) : Each json operations holds :=
  fun done operation _ _ => h (run json done) operation

theorem starting_of_recorded (h : ∀ row, (start json preparations world input deadlineAt).1 = .ok row →
      Recorded (start json preparations world input deadlineAt).2 input row)
    (hstartable : Startable json world input deadlineAt assignment) (hrow : preparations.find input.key = some row)
    (hdecode : decode row = .ok row) (hlease : row.leaseEpoch = input.access.leaseEpoch)
    (hattempt : row.attempt = input.attempt) :
    row.phase = input.phase ∨ row.state = .preparing ∧ row.phase ≤ input.phase := by
  rcases start_cases json preparations world input deadlineAt with ⟨hnone, -⟩ | ⟨assignment', -, hstart⟩
  · exact absurd hstartable (hnone assignment)
  · by_cases hsuperseded : row.superseded (startedRow input deadlineAt assignment') = true
    · exact .inr ((superseded_of_phase hlease hattempt).mp hsuperseded)
    · have hfind : (started preparations (startedRow input deadlineAt assignment')).find input.key = some row := by
        rw [find_started, if_pos (by rfl), hrow, Option.elim, WorkspacePreparation.restarted, if_neg hsuperseded]
      have hanswer : startedPreparation (started preparations (startedRow input deadlineAt assignment')) input = .ok row := by
        rw [startedPreparation, current]
        dsimp only [PreparationAttempt.key] at hfind
        rw [hfind]
        dsimp only
        rw [hdecode]
        dsimp only
        rw [if_neg (by rintro (h | h); exacts [h hlease, h hattempt])]
      rw [hstart] at h
      exact .inl (h row hanswer).2.2.2

theorem finishing_of_onward (h : ∀ row, preparations.find input.key = some row →
      ∃ row', (step json preparations operation).find input.key = some row' ∧ row.position ≤ row'.position)
    (hfinishing : operation.finishing = some (world, input, ending)) (hrow : preparations.find input.key = some row)
    (hfinishable : Finishable json world input ending row) : row.phase ≤ input.phase := by
  obtain ⟨row', hrow', hposition⟩ := h row hrow
  rw [step_finishing hfinishing] at hrow'
  have hwritten : (finished preparations input ending).find input.key = some (finishedRow input ending row) := by
    rw [find_finished, hrow, Option.map_some, if_pos hfinishable.finishable]
  have hfinished : (finish json preparations world input ending).2 = finished preparations input ending := by
    obtain ⟨⟨assignment, hauthenticated, hworkspace, hmatches⟩, hfound, hvalid⟩ := hfinishable
    have hfilter : (preparations.find input.key).filter (fun row => row.finishable input) = some row :=
      Option.filter_eq_some_iff.mpr ⟨hrow, hfound⟩
    rw [finish, hauthenticated]
    dsimp only
    rw [if_neg (not_not.mpr hworkspace), if_neg (not_not.mpr hmatches), hfilter]
    dsimp only
    rw [hvalid, if_neg Bool.false_ne_true, finished]
  rw [hfinished, hwritten] at hrow'
  obtain rfl := Option.some_inj.mp hrow'
  rcases position_le.mp hposition with hlater | ⟨-, hphase⟩
  · exact absurd hlater (lt_irrefl _)
  · exact hphase

/-- A run goes forward exactly when each of its calls is in order. -/
theorem run_forward (json : StoredJson) (operations : List Operation) :
    Forward json operations ↔ Each json operations (InOrder json) := by
  constructor
  · intro h done operation rest hrun
    refine ⟨?_, ?_⟩
    · rintro world input deadlineAt rfl assignment hstartable row hrow hdecode hlease hattempt
      exact starting_of_recorded (h.started done _ rest hrun world input deadlineAt rfl) hstartable hrow hdecode hlease
        hattempt
    · intro world input ending hfinishing row hrow hfinishable
      exact finishing_of_onward (h.onward done operation rest hrun input.key) hfinishing hrow hfinishable
  · intro h
    refine ⟨?_, ?_, ?_, ?_, ?_, ?_⟩
    · exact h.imp fun done operation hinorder k row hrow => step_onward operation hinorder hrow
    · refine h.imp ?_
      rintro done operation hinorder world input deadlineAt rfl row hrow
      exact start_recorded hinorder hrow
    · refine h.imp ?_
      intro done operation hinorder world input ending hfinishing row hrow
      rw [step_finishing hfinishing]
      exact finish_recorded (run_sound json done) hrow
    · intro done later rest hrun k row hrow hover
      rw [run, List.foldl_append]
      exact settled_stays hrow hover later
    · intro done rest hrun row hrow hready
      exact (run_sound json done row hrow).evidence.mpr hready
    · refine Each.of_forall ?_
      rintro preparations operation world input deadlineAt rfl assignment hstartable row hrow hpreparing hlease hattempt
        hphase
      exact start_advances hstartable hrow hpreparing hlease hattempt hphase

def samplePrepared : Assignments.AssignmentRow where
  id := "assignment"
  ownerId := "owner"
  threadId := "thread"
  workspaceId := "workspace"
  executorKind := .orb
  placement := .orbPlacement ⟨"template", "scope", none⟩
  checkout := none
  workspaceSeed := none
  generation := 1
  revision := 3
  lastLeaseEpoch := 1
  lifecycle := .active
  capabilityGeneration := none
  capabilitySnapshot := none
  providerInstanceId := some "sandbox"
  bootstrapDigest := none
  bootstrapExpiresAt := none
  executorInstanceId := some "executor"
  processIncarnation := some "process"
  sessionDigest := some "session"
  leaseEpoch := some 1
  leaseExpiresAt := some 1000
  cursor := ⟨0, ""⟩
  latestCheckpointId := none
  lastActiveAt := 0
  createdAt := 0
  updatedAt := 0

def sampleWorld : World := ⟨⟨[samplePrepared], List.nodup_singleton _⟩, ⟨10, 10⟩⟩

def sampleJson : StoredJson := ⟨fun _ => none, fun _ => none, fun _ => 0, fun _ => 0⟩

def sampleAttempt (phase : WorkspacePreparationPhase) (now : Nat) : PreparationAttempt where
  access := ⟨⟨"assignment", 1, 1⟩, "sandbox", "executor", "process", "session"⟩
  workspaceId := "workspace"
  phase
  attempt := 1
  now

def checkedOut : List Operation := [.start sampleWorld (sampleAttempt .checkout 10) 100, .start sampleWorld (sampleAttempt .setup 20) 100]

def failedCheckout : Operation := .fail sampleWorld (sampleAttempt .checkout 30) (utf16 "exit 1") true

def positionAfter (operations : List Operation) : Option (Nat × Nat × Nat) :=
  ((run sampleJson operations).find ("assignment", 1)).map fun row => (row.leaseEpoch, row.attempt, row.phase.rank)

theorem setup_fails_as_checkout :
    positionAfter checkedOut = some (1, 1, 1) ∧ positionAfter (checkedOut ++ [failedCheckout]) = some (1, 1, 0) ∧
      ¬ Forward sampleJson (checkedOut ++ [failedCheckout]) := by
  have hbefore : positionAfter checkedOut = some (1, 1, 1) := by decide +kernel
  have hafter : positionAfter (checkedOut ++ [failedCheckout]) = some (1, 1, 0) := by decide +kernel
  refine ⟨hbefore, hafter, ?_⟩
  intro h
  rw [positionAfter, Option.map_eq_some_iff] at hbefore hafter
  obtain ⟨row, hrow, hposition⟩ := hbefore
  obtain ⟨row', hrow', hposition'⟩ := hafter
  obtain ⟨next, hnext, hle⟩ := h.onward checkedOut failedCheckout [] rfl _ row hrow
  rw [run_append] at hrow'
  obtain rfl := Option.some_inj.mp (hrow'.symm.trans hnext)
  simp only [Prod.mk.injEq] at hposition hposition'
  rcases position_le.mp hle with hlater | ⟨-, hphase⟩
  · rw [WorkspacePreparation.attemptOf, WorkspacePreparation.attemptOf, hposition.1, hposition.2.1, hposition'.1,
      hposition'.2.1] at hlater
    exact lt_irrefl _ hlater
  · have hrank : row.phase.rank ≤ row'.phase.rank := hphase
    omega

end Rika.WorkspacePreparations
