import Rika.OperationChanges
import Mathlib.Data.List.Induction

namespace Rika.ExecutorOperations

open OperationStore AppendLog
open Fold (bind_eq_ok)

variable {Json : Type}

/-- How the frames of an operation follow one another. -/
structure LogShape (frames : List (ToolOperationLifecycleFrame Json)) : Prop where
  cursors : frames.map (·.cursor) = List.range' 1 frames.length
  accepted {frame} (h : frames[0]? = some frame) : frame.body.isAccepted = true
  started {i : Nat} {frame} (h : frames[i]? = some frame) (houtput : frame.body.isOutput = true) :
    ∃ j < i, ∃ other, frames[j]? = some other ∧ other.body.isStarted = true
  terminal {i : Nat} {frame} (h : frames[i]? = some frame) (hterminal : frame.body.isTerminal = true) :
    i + 1 = frames.length

def OperationState.isTerminal : OperationState → Bool
  | .completed | .unknown => true
  | .accepted | .dispatched => false

/-- An operation is dispatched before it is settled, unless it is cancelled. -/
inductive Moves : OperationState → OperationState → Prop
  | dispatched : Moves .accepted .dispatched
  | cancelled : Moves .accepted .completed
  | completed : Moves .dispatched .completed
  | unknown : Moves .dispatched .unknown

theorem FrameBody.not_isOutput {body : FrameBody Json} (h : body.isAccepted = true ∨ body.isStarted = true) :
    ¬body.isOutput = true := by
  cases body <;> simp_all [FrameBody.isAccepted, FrameBody.isStarted, FrameBody.isOutput]

theorem logShape_of_guarded {log : List (ToolOperationLifecycleFrame Json)} (h : Guarded frameFollows log) :
    LogShape log where
  cursors := cursors_of_guarded h
  accepted {frame} hframe := (frameFollows_eq_true (h 0 frame hframe)).2.2.1 (cursor_of_guarded h hframe)
  started {i frame} hframe houtput := by
    obtain ⟨-, -, haccepted, hstarted, -⟩ := frameFollows_eq_true (h i frame hframe)
    have hcursor := cursor_of_guarded h hframe
    have hlt : i < log.length := (List.getElem?_eq_some_iff.mp hframe).1
    have hi : 2 ≤ i := by
      by_contra hlow
      obtain rfl | rfl : i = 0 ∨ i = 1 := by omega
      · exact FrameBody.not_isOutput (.inl (haccepted hcursor)) houtput
      · exact FrameBody.not_isOutput (.inr (hstarted hcursor)) houtput
    have hsecond : log[1]? = some log[1] := List.getElem?_eq_getElem (by omega)
    refine ⟨1, hi, log[1], hsecond, ?_⟩
    exact (frameFollows_eq_true (h 1 _ hsecond)).2.2.2.1 (cursor_of_guarded h hsecond)
  terminal {i frame} hframe hterminal :=
    h.last (fun known item hitem => (frameFollows_eq_true hitem).2.1) hframe hterminal

namespace Operation

variable {call : Call Json} {key : OperationKey} {operation operation' : Operation Json}

theorem Step.moves (h : Step call key operation operation') {row : OperationRow Json} (hrow : operation.row = some row) :
    ∃ row', operation'.row = some row' ∧ Relation.ReflTransGen Moves row.state row'.state ∧
      (row.state.isTerminal = true → operation' = operation) := by
  cases h with
  | same => exact ⟨row, hrow, .refl, fun _ => rfl⟩
  | admitted => cases hrow
  | claimed row₀ log fence updatedAt haccepted =>
    cases hrow
    refine ⟨_, rfl, .single ?_, fun h => ?_⟩
    · rw [haccepted]
      exact .dispatched
    · rw [haccepted] at h
      cases h
  | renewed row₀ log leaseEpoch updatedAt hdispatched
  | appended row₀ log frame startedAt updatedAt hdispatched =>
    cases hrow
    refine ⟨_, rfl, .refl, fun h => ?_⟩
    rw [hdispatched] at h
    cases h
  | settled row₀ log around state response outcome hfrom hcheck =>
    cases hrow
    refine ⟨_, rfl, .single ?_, fun h => ?_⟩
    · change Moves row.state state
      obtain hdispatched | ⟨haccepted, rfl, -⟩ := hfrom
      · rw [hdispatched]
        cases state with
        | accepted => cases hcheck
        | dispatched => cases hcheck
        | completed => exact .completed
        | unknown => exact .unknown
      · rw [haccepted]
        exact .cancelled
    · obtain hdispatched | ⟨haccepted, -⟩ := hfrom
      · rw [hdispatched] at h
        cases h
      · rw [haccepted] at h
        cases h

theorem Step.cancels (h : Step call key operation operation') {row row' : OperationRow Json} (hrow : operation.row = some row)
    (hrow' : operation'.row = some row') (haccepted : row.state = .accepted) (hcompleted : row'.state = .completed) :
    Cancels call key := by
  have hne : row.state ≠ row'.state := by
    rw [haccepted, hcompleted]
    rintro ⟨⟩
  cases h with
  | same => exact absurd (congrArg OperationRow.state (Option.some_inj.mp (hrow.symm.trans hrow'))) hne
  | admitted => cases hrow
  | claimed =>
    cases hrow'
    cases hcompleted
  | renewed | appended =>
    cases hrow
    cases hrow'
    exact absurd rfl hne
  | settled row₀ log around state response outcome hfrom =>
    cases hrow
    obtain hdispatched | ⟨-, -, hcancels⟩ := hfrom
    · rw [haccepted] at hdispatched
      cases hdispatched
    · exact hcancels

/-- A terminal row with a terminal frame has its response and its outcome, or
those of a call that completed it. -/
def Answered (requests : List (Request Json)) (key : OperationKey) (operation : Operation Json) : Prop :=
  ∀ row outcome response, operation.row = some row → row.state.isTerminal = true →
    operation.log.findSome? (·.terminal?) = some (outcome, response) →
      row.terminalOutcome = some outcome ∧ row.response = some response ∨
        ∃ request ∈ requests, ∃ fence outcome' response', request.call = .complete key fence response' outcome' ∧
          row.terminalOutcome = some outcome' ∧ row.response = some response'

theorem Step.answered {requests : List (Request Json)} {request : Request Json}
    (h : Step request.call key operation operation') (hsound : operation.Sound)
    (hanswered : Answered requests key operation) : Answered (requests ++ [request]) key operation' := by
  intro row outcome response hrow hterminal hframe
  cases h with
  | same =>
    obtain hstored | ⟨other, hother, hcompletes⟩ := hanswered row outcome response hrow hterminal hframe
    · exact .inl hstored
    · exact .inr ⟨other, List.mem_append_left _ hother, hcompletes⟩
  | admitted | claimed =>
    cases hrow
    cases hterminal
  | renewed row₀ log leaseEpoch updatedAt hdispatched
  | appended row₀ log frame startedAt updatedAt hdispatched =>
    cases hrow
    change row₀.state.isTerminal = true at hterminal
    rw [hdispatched] at hterminal
    cases hterminal
  | settled row₀ log around state response' outcome' hfrom hcheck hsettles =>
    cases hrow
    obtain ⟨fence, hcall⟩ | haccepted | hnone | hsome := hsettles
    · exact .inr ⟨request, by simp, fence, outcome', response', hcall, rfl, rfl⟩
    · have hlog : log = [] := hsound.undispatched fun row hrow => by
        cases hrow
        exact haccepted
      rw [hlog] at hframe
      cases hframe
    · rw [hnone] at hframe
      cases hframe
    · have hpair := Option.some_inj.mp (hsome.symm.trans hframe)
      cases hpair
      exact .inl ⟨rfl, rfl⟩

end Operation

namespace OperationStore

variable [DecidableEq Json] {store store' : OperationStore Json} {around : Surroundings} {key : OperationKey}

variable {row : OperationRow Json} {input : FinalizeOperationInput Json}

theorem run_row (hsound : store.Sound) (requests : List (Request Json)) (hrow : store.operations.find key = some row) :
    ∃ row', (store.run requests).operations.find key = some row' ∧ Relation.ReflTransGen Moves row.state row'.state ∧
      (row.state.isTerminal = true → (store.run requests).operation key = store.operation key) := by
  induction requests generalizing store row with
  | nil => exact ⟨row, hrow, .refl, fun _ => rfl⟩
  | cons request requests ih =>
    have hchanges := next_changes hsound request
    obtain ⟨row₁, hrow₁, hmoves, hkept⟩ := (hchanges.step key).moves hrow
    obtain ⟨row', hrow', hmoves', hkept'⟩ := ih (hchanges.sound hsound) hrow₁
    refine ⟨row', hrow', hmoves.trans hmoves', fun hterminal => ?_⟩
    have hsame := hkept hterminal
    have hstate : row₁ = row := Option.some_inj.mp (hrow₁.symm.trans ((congrArg Operation.row hsame).trans hrow))
    exact (hkept' (by rw [hstate]; exact hterminal)).trans hsame

theorem run_answered (requests : List (Request Json)) (key : OperationKey) :
    ((empty : OperationStore Json).run requests |>.operation key).Answered requests key := by
  induction requests using List.reverseRecOn with
  | nil => exact fun row _ _ hrow => absurd hrow (Option.some_ne_none _).symm
  | append_singleton requests request ih =>
    have hsound := run_sound empty_sound requests
    rw [run, List.foldl_append]
    exact ((next_changes hsound request).step key).answered (hsound.operation key) ih

theorem existingResult_eq
    {response : ToolOperationResponse Json} {outcome : ToolOperationTerminalOutcome} (hresponse : row.response = some response)
    (houtcome : row.terminalOutcome = some outcome) (hterminal : row.state.isTerminal = true) :
    existingResult row input =
      .ok
        (if response ≠ input.response ∧ input.state = .completed ∧ row.state = .completed then .responseConflict
        else .alreadyTerminal response outcome) := by
  have hinput : input.state ≠ .unknown ↔ input.state = .completed := by cases input.state <;> simp
  have hstate : row.state ≠ .unknown ↔ row.state = .completed := by
    cases hrow : row.state <;> simp_all [OperationState.isTerminal]
  rw [existingResult, hresponse, houtcome]
  simp only [Bool.and_eq_true, decide_eq_true_eq, hinput, hstate, and_assoc]
  split <;> rfl

theorem finalizeOperation_terminal (hsound : store.Sound) {input : FinalizeOperationInput Json} {row : OperationRow Json}
    (hrow : store.operations.find input.key = some row) (hterminal : row.state.isTerminal = true) :
    ∃ response outcome, row.response = some response ∧ row.terminalOutcome = some outcome ∧
      store.finalizeOperation around input =
        .ok (store,
          if response ≠ input.response ∧ input.state = .completed ∧ row.state = .completed then .responseConflict
          else .alreadyTerminal response outcome) := by
  have hsettled := (hsound.operation input.key).row row hrow
  have hstored : ∃ response outcome, row.response = some response ∧ row.terminalOutcome = some outcome := by
    rw [OperationRow.Settled] at hsettled
    cases hstate : row.state with
    | accepted | dispatched => rw [hstate] at hterminal; cases hterminal
    | completed =>
      rw [hstate] at hsettled
      obtain ⟨response, outcome, hresponse, houtcome, -⟩ := hsettled
      exact ⟨response, outcome, hresponse, houtcome⟩
    | unknown =>
      rw [hstate] at hsettled
      obtain ⟨response, hresponse, houtcome⟩ := hsettled
      exact ⟨response, .unknown, hresponse, houtcome⟩
  obtain ⟨response, outcome, hresponse, houtcome⟩ := hstored
  refine ⟨response, outcome, hresponse, houtcome, ?_⟩
  have hsettledState : row.state = .completed ∨ row.state = .unknown := by
    cases hstate : row.state <;> simp_all [OperationState.isTerminal]
  rw [finalizeOperation]
  simp only [hrow]
  rw [if_pos (by simpa using hsettledState), existingResult_eq hresponse houtcome hterminal]
  rfl

theorem resolveFinalization_ne_finalized {terminal : Option (ToolOperationTerminalOutcome × ToolOperationResponse Json)}
    {fence : CompletionFence} (operation : FinalizedOperation Json) :
    resolveFinalization terminal input fence ≠ .inl (.finalized operation) := by
  intro h
  unfold resolveFinalization at h
  cases terminal with
  | none =>
    simp only [Option.any_none, Bool.and_false, Bool.false_eq_true, if_false] at h
    split at h
    · cases h
    · split at h <;> cases h
  | some terminal =>
    simp only [Option.any_some, Option.isNone_some, Bool.and_false, Bool.false_and, Bool.false_eq_true, if_false] at h
    split at h
    · cases h
    · split at h <;> cases h

theorem finalizeOperation_finalized {operation : FinalizedOperation Json}
    (h : store.finalizeOperation around input = .ok (store', .finalized operation)) :
    (∃ row, store'.operations.find input.key = some row ∧ row.state.isTerminal = true ∧
      row.response = some operation.response ∧ row.terminalOutcome = some operation.outcome ∧
      (input.response ≠ operation.response → input.state = .completed → row.state ≠ .completed)) ∧
      (store.terminalFrame input.key = some (operation.outcome, operation.response) ∨
        store.terminalFrame input.key = none ∧ operation.outcome = .unknown ∧ operation.response = input.response) := by
  rw [finalizeOperation] at h
  split at h
  · cases h
  · next row hrow =>
      split at h
      · obtain ⟨result, hresult, h⟩ := bind_eq_ok.mp h
        cases h
        rw [existingResult] at hresult
        split at hresult
        · split at hresult <;> cases hresult
        · cases hresult
      · split at h
        · cases h
        · split at h
          · cases h
          · split at h
            · next result hresult =>
                cases h
                exact absurd hresult (resolveFinalization_ne_finalized _)
            · next resolved hresolved =>
                obtain ⟨⟨updatedStore, updated⟩, hupdate, h⟩ := bind_eq_ok.mp h
                simp only at h
                split at h
                · cases h
                · next hupdated =>
                    split at h
                    · cases h
                    · cases h
                      obtain ⟨-, hterminal⟩ := resolveFinalization_inr hresolved
                      obtain ⟨rfl, -⟩ | ⟨current, hcurrent, -, -, -, -, hfind⟩ := update_eq_ok hupdate
                      · exact absurd rfl hupdated
                      · refine ⟨⟨settled around resolved.state.toState resolved.response resolved.outcome current, ?_, ?_,
                          rfl, rfl, ?_⟩, ?_⟩
                        · rw [hfind, if_pos rfl]
                          rfl
                        · change resolved.state.toState.isTerminal = true
                          cases resolved.state <;> rfl
                        · intro hother hcompleted
                          obtain ⟨-, hresponse⟩ | ⟨-, -, hresponse, -⟩ := hterminal
                          · exact absurd (hresponse hcompleted) hother
                          · exact absurd hresponse.symm hother
                        · obtain ⟨hsome, -⟩ | ⟨hnone, houtcome, hresponse, -⟩ := hterminal
                          · exact .inl hsome
                          · exact .inr ⟨hnone, houtcome, hresponse⟩

/-- In every run the frames of an operation agree with its state, which only moves forward, and with how it was
finalized. -/
theorem log_agrees_with_state (before : List (Request Json)) (key : OperationKey) :
    let store := (empty : OperationStore Json).run before
    LogShape (store.readFrames key) ∧
      (∀ row, store.operations.find key = some row →
        (row.terminalOutcome = some .unknown ↔ row.state = .unknown) ∧
          (row.state.isTerminal = true → ∀ outcome response, store.terminalFrame key = some (outcome, response) →
            row.terminalOutcome = some outcome ∧ row.response = some response ∨
              ∃ request ∈ before, ∃ fence outcome' response', request.call = .complete key fence response' outcome' ∧
                row.terminalOutcome = some outcome' ∧ row.response = some response') ∧
          (∀ request row', (store.next request).operations.find key = some row' → row.state = .accepted →
            row'.state = .completed → Operation.Cancels request.call key) ∧
          ∀ after, ∃ row', (store.run after).operations.find key = some row' ∧
            Relation.ReflTransGen Moves row.state row'.state ∧
            (row.state.isTerminal = true → row' = row ∧ (store.run after).readFrames key = store.readFrames key)) ∧
      (∀ around input row, store.operations.find input.key = some row → row.state.isTerminal = true →
        ∃ response outcome, row.response = some response ∧ row.terminalOutcome = some outcome ∧
          store.finalizeOperation around input =
            .ok (store,
              if response ≠ input.response ∧ input.state = .completed ∧ row.state = .completed then .responseConflict
              else .alreadyTerminal response outcome)) ∧
      ∀ around input store' operation, store.finalizeOperation around input = .ok (store', .finalized operation) →
        (store.terminalFrame input.key = some (operation.outcome, operation.response) ∨
          store.terminalFrame input.key = none ∧ operation.outcome = .unknown ∧ operation.response = input.response) ∧
          ∀ after around', (store'.run after).finalizeOperation around' input =
            .ok (store'.run after, .alreadyTerminal operation.response operation.outcome) := by
  intro store
  have hsound : store.Sound := run_sound empty_sound before
  have hlog : ∀ key, store.readFrames key = (store.operation key).log := readFrames_eq hsound
  refine ⟨?_, fun row hrow => ⟨?_, fun hterminal outcome response hframe => ?_, fun request row' => ?_, fun after => ?_⟩,
    fun around input row => finalizeOperation_terminal hsound, fun around input store' operation h => ?_⟩
  · rw [hlog]
    exact logShape_of_guarded (hsound.operation key).log
  · have hsettled := (hsound.operation key).row row hrow
    rw [OperationRow.Settled] at hsettled
    cases hstate : row.state with
    | accepted | dispatched =>
      rw [hstate] at hsettled
      simp [hsettled.2]
    | completed =>
      rw [hstate] at hsettled
      obtain ⟨_, outcome, -, houtcome, hne⟩ := hsettled
      simpa [houtcome] using hne
    | unknown =>
      rw [hstate] at hsettled
      obtain ⟨_, -, houtcome⟩ := hsettled
      simp [houtcome]
  · rw [terminalFrame_eq] at hframe
    exact run_answered before key row outcome response hrow hterminal hframe
  · exact ((next_changes hsound request).step key).cancels hrow
  · obtain ⟨row', hrow', hmoves, hkept⟩ := run_row hsound after hrow
    refine ⟨row', hrow', hmoves, fun hterminal => ?_⟩
    have hsame := hkept hterminal
    refine ⟨Option.some_inj.mp (hrow'.symm.trans ((congrArg Operation.row hsame).trans hrow)), ?_⟩
    rw [hlog, readFrames_eq (run_sound hsound after), hsame]
  · obtain ⟨⟨row, hrow, hterminal, hresponse, houtcome, hagrees⟩, hframe⟩ := finalizeOperation_finalized h
    refine ⟨hframe, fun after around' => ?_⟩
    have hsound' : store'.Sound := (@finalizeOperation_changes _ _ _ _ (.finalizeOperation input) _ _ _ h).sound hsound
    obtain ⟨row', hrow', -, hkept⟩ := run_row hsound' after hrow
    obtain rfl := Option.some_inj.mp (hrow'.symm.trans ((congrArg Operation.row (hkept hterminal)).trans hrow))
    obtain ⟨response, outcome, hresponse', houtcome', hfinalize⟩ :=
      @finalizeOperation_terminal _ _ _ around' (run_sound hsound' after) input row' hrow' hterminal
    obtain rfl := Option.some_inj.mp (hresponse'.symm.trans hresponse)
    obtain rfl := Option.some_inj.mp (houtcome'.symm.trans houtcome)
    rw [hfinalize, if_neg fun hconflict => hagrees (Ne.symm hconflict.1) hconflict.2.1 hconflict.2.2]

def sampleAssignment : Assignments.AssignmentRow where
  id := "assignment"
  ownerId := "owner"
  threadId := "thread"
  workspaceId := "workspace"
  executorKind := .orb
  placement := .orbPlacement ⟨"template", "scope", none⟩
  checkout := none
  workspaceSeed := none
  generation := 1
  revision := 3
  lastLeaseEpoch := 1
  lifecycle := .active
  capabilityGeneration := some 1
  capabilitySnapshot := some "capabilities"
  providerInstanceId := some "sandbox"
  bootstrapDigest := none
  bootstrapExpiresAt := none
  executorInstanceId := some "executor"
  processIncarnation := some "process"
  sessionDigest := some "session"
  leaseEpoch := some 1
  leaseExpiresAt := some 1000
  cursor := ⟨0, ""⟩
  latestCheckpointId := none
  lastActiveAt := 0
  createdAt := 0
  updatedAt := 0

def sampleAround : Surroundings where
  clock := 0
  assignments := [sampleAssignment]
  environmentDigest _ := some "environment"
  capabilityAdmissions := [⟨"thread", "turn", "assignment", "workspace", 1, "environment"⟩]
  runnerAdmissions := []
  registrations := []
  owners := []
  members := []
  commands := [⟨"thread", some "turn", 1⟩]

def sampleIdentity : OperationIdentity where
  assignmentId := "assignment"
  operationKey := "operation"
  requestDigest := "digest"
  workspaceId := "workspace"
  sessionId := "session"
  threadId := "thread"
  turnId := "turn"
  runId := "run"
  rootRunId := "run"
  toolCallId := "call"
  code := "code"
  attempt := 1
  replayPolicy := .pure
  admittedAt := none
  deadlineAt := 1000

def sampleFence : CompletionFence := ⟨1, 1, "executor", "process"⟩

def sampleFrame (cursor : Nat) (body : FrameBody String) : ToolOperationLifecycleFrame String :=
  ⟨⟨"operation", "workspace", "session", "thread", "turn", "run", "run", "call", 1⟩, cursor, body⟩

def sampleRequests : List (Request String) :=
  [.upsertOperation sampleIdentity,
    .claimDispatch ⟨sampleIdentity.key, "thread", "turn", "workspace"⟩ ⟨sampleFence, "sandbox"⟩ none,
    .appendFrame "assignment" (sampleFrame 1 .accepted), .appendFrame "assignment" (sampleFrame 2 .started),
    .appendFrame "assignment" (sampleFrame 3 (.terminal .completed (.success "done")))].map (⟨sampleAround, ·⟩)

def sampleFinalization (result : String) : FinalizeOperationInput String :=
  ⟨sampleIdentity.key, .success result, .completed, some sampleFence, none⟩

/-- An operation completed with another response than its terminal frame's, and one
that is finalized with three answers. -/
theorem completed_beside_terminal_frame :
    let store := (empty : OperationStore String).run sampleRequests
    let completed := store.next ⟨sampleAround, .complete sampleIdentity.key sampleFence (.success "other") .completed⟩
    let finalized := store.next ⟨sampleAround, .finalizeOperation (sampleFinalization "done")⟩
    let answer := fun (store : OperationStore String) result =>
      (store.finalizeOperation sampleAround (sampleFinalization result)).toOption.map Prod.snd
    completed.terminalFrame sampleIdentity.key = some (.completed, .success "done") ∧
      ((completed.operations.find sampleIdentity.key).map fun row => row.response) = some (some (.success "other")) ∧
      answer store "done" = some (.finalized ⟨.success "done", .completed, 1, sampleFence⟩) ∧
      answer finalized "done" = some (.alreadyTerminal (.success "done") .completed) ∧
      answer finalized "other" = some .responseConflict := by
  decide +kernel

end OperationStore

end Rika.ExecutorOperations
