import Rika.ExecutorRuns

namespace Rika.RunnerExecutor

open Fold
open InsertionMap (get_delete get_set has has_iff has_set)

variable {executor next : RunnerExecutor}

def isUnknown : Outcome → Bool
  | .unknown _ => true
  | _ => false

def Completed (executor : RunnerExecutor) (completion : Nat) : Prop :=
  (executor.completions[completion]?.bind (·.evidence)).isSome = true

def Flies (executor : RunnerExecutor) (operationId : String) (completion : Nat) : Prop :=
  (executor.active.get operationId).map (·.completion) = some completion

def cancels : Caller → Option String
  | .cancelInterrupt operationId _ | .cancelSettle operationId _ => some operationId
  | _ => none

section

variable (executor : RunnerExecutor)

def rejecting : Input → Option String
  | .advance index =>
    match executor.callers[index]? with
    | some (.rejectSettle intent _) => if executor.receipts.has intent.operationId then none else some intent.operationId
    | _ => none
  | _ => none

def settling : Input → Option (String × Outcome)
  | .settleFiber fiber =>
    match executor.fibers[fiber]? with
    | some ⟨intent, _, _, .exited evidence, _⟩ =>
      if executor.receipts.has intent.operationId then none else some (intent.operationId, evidence.outcome)
    | _ => none
  | _ => none

def RejectsIdle (input : Input) : Prop :=
  ∀ operationId ∈ executor.rejecting input, executor.active.has operationId = false

/-- An execution stores what became of it while no call cancels it. -/
def SettlesAlone (input : Input) : Prop :=
  ∀ settled ∈ executor.settling input, isUnknown settled.2 = true ∨
    ∀ caller ∈ executor.callers, cancels caller ≠ some settled.1

def Orderly (input : Input) : Prop :=
  executor.Unsettled input ∧ executor.RejectsIdle input ∧ executor.SettlesAlone input

end

instance : DecidablePred (RejectsIdle executor) := fun _ => inferInstanceAs (Decidable (∀ operationId ∈ _, _))

instance : DecidablePred (SettlesAlone executor) := fun _ => inferInstanceAs (Decidable (∀ settled ∈ _, _))

instance : DecidablePred (Orderly executor) := fun _ => inferInstanceAs (Decidable (_ ∧ _ ∧ _))

def Fair (executor : RunnerExecutor) : Caller → Prop
  | .dispatchAwait operationId completion => executor.Completed completion ∨ executor.Flies operationId completion
  | .cancelInterrupt operationId inFlight | .cancelSettle operationId inFlight =>
    (executor.receipts.has operationId = false → executor.active.get operationId = some inFlight) ∧
      ∀ evidence, executor.receipts.get operationId = some evidence → isUnknown evidence.outcome = true
  | .cancelled operationId =>
    ∃ evidence, executor.receipts.get operationId = some evidence ∧ isUnknown evidence.outcome = true
  | _ => True

/-- An operation with a receipt is not in flight, and one without a receipt is what its
executions are still to settle. -/
structure Tended (executor : RunnerExecutor) : Prop where
  kept : executor.Kept
  quiet : ∀ operationId, executor.receipts.has operationId = true → executor.active.has operationId = false
  fibers : ∀ (index : Nat) (fiber : ExecutionFiber), executor.fibers[index]? = some fiber → fiber.phase ≠ .ended →
    executor.receipts.has fiber.intent.operationId = false → executor.Flies fiber.intent.operationId fiber.completion
  callers : ∀ caller ∈ executor.callers, executor.Fair caller

theorem make_tended (binding : WorkspaceBinding) : Tended (make binding) where
  kept := make_kept binding
  quiet := by rintro _ ⟨⟩
  fibers := by rintro _ _ ⟨⟩
  callers := by rintro _ ⟨⟩

variable {caller : Caller} {place : Nat} {operationId : String} {intent : NativeOperationIntent} {inFlight : ActiveOperation}

theorem Tended.enter (h : executor.Tended) (hsound : executor.Sound caller) (hfair : executor.Fair caller) :
    Tended (executor.enter caller) where
  kept := (h.kept.enter hsound).kept
  quiet := h.quiet
  fibers := h.fibers
  callers := by
    intro other hmem
    rcases List.mem_append.mp hmem with hmem | hmem
    · exact h.callers other hmem
    · rw [List.mem_singleton.mp hmem]
      exact hfair

theorem Tended.goOn (h : executor.Tended) (index : Nat) (hsound : executor.Sound caller)
    (hfair : executor.Fair caller) : Tended (executor.goOn index caller) where
  kept := (h.kept.goOn index hsound).kept
  quiet := h.quiet
  fibers := h.fibers
  callers := by
    intro other hmem
    rcases List.mem_or_eq_of_mem_set hmem with hmem | rfl
    · exact h.callers other hmem
    · exact hfair

theorem has_eq_false {κ ν : Type*} [DecidableEq κ] {m : InsertionMap κ ν} {k : κ} : m.has k = false ↔ m.get k = none := by
  rw [has, Option.isSome_eq_false_iff, Option.isNone_iff_eq_none]

theorem Tended.modifyFiber (h : executor.Tended) (index : Nat) {f : ExecutionFiber → ExecutionFiber}
    (hsame : ∀ fiber, (f fiber).intent = fiber.intent ∧ (f fiber).request = fiber.request ∧
      (f fiber).completion = fiber.completion)
    (hended : ∀ fiber, executor.fibers[index]? = some fiber → (f fiber).phase ≠ .ended → fiber.phase ≠ .ended) :
    Tended { executor with fibers := executor.fibers.modify index f } where
  kept := (h.kept.modifyFiber index hsame).kept
  quiet := h.quiet
  callers := h.callers
  fibers := by
    intro place fiber hplace hlive hnone
    rw [List.getElem?_modify] at hplace
    obtain ⟨before, hbefore, rfl⟩ := Option.map_eq_some_iff.mp hplace
    split at hlive
    · next hindex =>
        subst hindex
        rw [if_pos rfl] at hnone ⊢
        obtain ⟨hintent, -, hcompletion⟩ := hsame before
        rw [hintent] at hnone ⊢
        rw [hcompletion]
        exact h.fibers index before hbefore (hended before hbefore hlive) hnone
    · next hindex =>
        rw [if_neg hindex] at hnone ⊢
        exact h.fibers place before hbefore hlive hnone

theorem Completed.signal (h : executor.Completed place) (completion : Option Nat) (evidence : ExecutorEvidence) :
    ((executor.signal completion evidence)[place]?.bind (·.evidence)).isSome = true := by
  obtain ⟨found, hfound⟩ := Option.isSome_iff_exists.mp h
  obtain ⟨before, hbefore, hevidence⟩ := Option.bind_eq_some_iff.mp hfound
  cases completion with
  | none => exact h
  | some index =>
    rw [RunnerExecutor.signal, List.getElem?_modify, hbefore, Option.map_eq_map, Option.map_some, Option.bind_some]
    split
    · rw [Completion.succeed, hevidence]
      rfl
    · rw [hevidence]
      rfl

theorem completed_signal (h : executor.Holds operationId place) (evidence : ExecutorEvidence) :
    ((executor.signal (some place) evidence)[place]?.bind (·.evidence)).isSome = true := by
  obtain ⟨before, hbefore, -⟩ := Option.map_eq_some_iff.mp h
  rw [RunnerExecutor.signal, List.getElem?_modify, hbefore, Option.map_eq_map, Option.map_some, Option.bind_some,
    if_pos rfl, Completion.succeed, Option.isSome_or, Option.isSome_some, Bool.or_true]

section

variable (h : executor.Tended)

include h

theorem Tended.settle (operationId : String) (evidence : ExecutorEvidence) (completion : Option Nat)
    (hholds : ∀ index, completion = some index → executor.Holds operationId index)
    (hsignal : executor.receipts.has operationId = false →
      ∀ inFlight, executor.active.get operationId = some inFlight → completion = some inFlight.completion)
    (hunknown : executor.receipts.has operationId = false → isUnknown evidence.outcome = true ∨
      ∀ caller ∈ executor.callers, cancels caller ≠ some operationId) :
    Tended (executor.settle operationId evidence completion) := by
  have hkept := (h.kept.settle operationId evidence completion hholds).kept
  have hgrows := (h.kept.settle operationId evidence completion hholds).stays
  revert hkept hgrows
  unfold RunnerExecutor.settle
  split
  · exact fun _ _ => h
  · next hnone =>
      rw [Bool.not_eq_true] at hnone
      intro hkept hgrows
      -- an operation that is still in flight is another one
      have hactive : ∀ other, other ≠ operationId →
          (if executor.active.has operationId then executor.active.delete operationId else executor.active).get other =
            executor.active.get other := by
        intro other hne
        split
        · rw [get_delete, if_neg hne]
        · rfl
      refine ⟨hkept, ?_, ?_, ?_⟩
      · intro other hreceipt
        rw [has_eq_false]
        by_cases hother : other = operationId
        · cases hget : (if executor.active.has operationId then executor.active.delete operationId
            else executor.active).get other with
          | none => rfl
          | some inFlight => exact absurd hother (get_of_deleted hget).2
        · rw [hactive other hother, ← has_eq_false]
          apply h.quiet
          rw [has_set, decide_eq_false hother, Bool.false_or] at hreceipt
          exact hreceipt
      · intro index fiber hfiber hlive hreceipt
        rw [has_set, Bool.or_eq_false_iff, decide_eq_false_iff_not] at hreceipt
        rw [Flies, hactive _ hreceipt.1]
        exact h.fibers index fiber hfiber hlive hreceipt.2
      · intro caller hmem
        have hfair := h.callers caller hmem
        have hsound := h.kept.callers caller hmem
        cases caller with
        | dispatchAwait awaited place =>
          rcases hfair with hcompleted | hflies
          · exact .inl (hcompleted.signal completion evidence)
          · by_cases hawaited : awaited = operationId
            · subst hawaited
              obtain ⟨inFlight, hinFlight, rfl⟩ := Option.map_eq_some_iff.mp hflies
              rw [hsignal hnone inFlight hinFlight]
              exact .inl (completed_signal hsound evidence)
            · right
              rw [Flies, hactive _ hawaited]
              exact hflies
        | cancelInterrupt cancelled inFlight | cancelSettle cancelled inFlight =>
          refine ⟨fun hreceipt => ?_, fun found hfound => ?_⟩
          · rw [has_set, Bool.or_eq_false_iff, decide_eq_false_iff_not] at hreceipt
            rw [hactive _ hreceipt.1]
            exact hfair.1 hreceipt.2
          · rw [get_set] at hfound
            split at hfound
            · next hof =>
                cases hfound
                rcases hunknown hnone with hunknown | halone
                · exact hunknown
                · exact absurd (congrArg some hof) (halone _ hmem)
            · exact hfair.2 found hfound
        | cancelled operationId' =>
          obtain ⟨found, hfound, hunknown'⟩ := hfair
          exact ⟨found, hgrows.receipts _ _ hfound, hunknown'⟩
        | _ => trivial

theorem Tended.register {request : RunnerToolRequest}
    (hregister : executor.register intent request = .ok next) : Tended next := by
  have hkept := (h.kept.register hregister).kept
  unfold RunnerExecutor.register at hregister
  split at hregister
  · cases hregister
  · split at hregister
    · split at hregister
      · cases hregister
        exact h
      · cases hregister
    · cases hregister
      exact ⟨hkept, h.quiet, h.fibers, h.callers⟩

theorem Tended.dispatch (intent : NativeOperationIntent) (evidence : HandshakeEvidence) :
    Tended (executor.dispatch intent evidence) := by
  unfold RunnerExecutor.dispatch
  split
  · exact h.enter trivial trivial
  · split
    · exact h.enter trivial trivial
    · exact h.enter trivial trivial

section

variable (index : Nat)

theorem Tended.readReceipts (intent : NativeOperationIntent) :
    Tended (executor.readReceipts index intent) := by
  unfold RunnerExecutor.readReceipts
  split
  · next cached hcached =>
      split
      · exact h.goOn index hcached trivial
      · exact h.goOn index trivial trivial
  · exact h.goOn index trivial trivial

theorem Tended.readRequests (intent : NativeOperationIntent) :
    Tended (executor.readRequests index intent) := by
  have hkept := (h.kept.readRequests index intent).kept
  revert hkept
  unfold RunnerExecutor.readRequests
  split
  · exact fun _ => h.goOn index trivial trivial
  · split
    · exact fun _ => h.goOn index trivial trivial
    · intro hkept
      refine ⟨hkept, h.quiet, h.fibers, ?_⟩
      intro caller hmem
      rcases List.mem_or_eq_of_mem_set hmem with hmem | rfl
      · have hfair := h.callers caller hmem
        cases caller with
        | dispatchAwait operationId place =>
          rcases hfair with hcompleted | hflies
          · left
            obtain ⟨found, hfound⟩ := Option.isSome_iff_exists.mp hcompleted
            obtain ⟨before, hbefore, hevidence⟩ := Option.bind_eq_some_iff.mp hfound
            dsimp only [Completed]
            rw [List.getElem?_append_left (List.getElem?_eq_some_iff.mp hbefore).1]
            exact hcompleted
          · exact .inr hflies
        | _ => exact hfair
      · trivial

theorem Tended.start {registered : Registered}
    {completion : Nat} (hsound : executor.Sound (.dispatchStart intent registered completion))
    (hunsettled : executor.active.has intent.operationId = false → executor.receipts.has intent.operationId = false) :
    Tended (executor.start index intent registered completion) := by
  have hkept := (h.kept.start index hsound).kept
  revert hkept
  unfold RunnerExecutor.start
  split
  · next inFlight hactive =>
      have hflies : executor.Flies intent.operationId inFlight.completion := by
        rw [Flies, hactive]
        rfl
      exact fun _ => h.goOn index (h.kept.active _ _ hactive) (.inr hflies)
  · next hnone =>
      intro hkept
      have hreceipt := hunsettled (has_eq_false.mpr hnone)
      have hflies : ∀ operationId place, executor.Flies operationId place →
          operationId ≠ intent.operationId ∧
            ((executor.active.set intent.operationId ⟨completion, intent, executor.fibers.length⟩).get operationId).map
              (·.completion) = some place := by
        intro operationId place hflies
        have hne : operationId ≠ intent.operationId := by
          rintro rfl
          rw [Flies, hnone] at hflies
          cases hflies
        refine ⟨hne, ?_⟩
        rw [get_set, if_neg hne]
        exact hflies
      refine ⟨hkept, ?_, ?_, ?_⟩
      · intro operationId hhas
        have hne : operationId ≠ intent.operationId := by
          rintro rfl
          cases hhas.symm.trans hreceipt
        rw [has_set, decide_eq_false hne, Bool.false_or]
        exact h.quiet operationId hhas
      · intro place fiber hfiber hlive hnoReceipt
        rw [List.getElem?_append] at hfiber
        split at hfiber
        · exact (hflies _ _ (h.fibers place fiber hfiber hlive hnoReceipt)).2
        · rw [List.mem_singleton.mp (List.mem_of_getElem? hfiber), Flies, get_set, if_pos rfl]
          rfl
      · intro caller hmem
        rcases List.mem_or_eq_of_mem_set hmem with hmem | rfl
        · have hfair := h.callers caller hmem
          cases caller with
          | dispatchAwait operationId place => exact hfair.imp_right fun hwaits => (hflies _ _ hwaits).2
          | cancelInterrupt operationId inFlight | cancelSettle operationId inFlight =>
            refine ⟨fun hnoReceipt => ?_, hfair.2⟩
            have hinFlight := hfair.1 hnoReceipt
            have hne : operationId ≠ intent.operationId := by
              rintro rfl
              cases hinFlight.symm.trans hnone
            rw [get_set, if_neg hne]
            exact hinFlight
          | _ => exact hfair
        · right
          rw [Flies, get_set, if_pos rfl]
          rfl

theorem Tended.await {operationId : String} {completion : Nat}
    (hholds : executor.Holds operationId completion) : Tended (executor.await index operationId completion) := by
  unfold RunnerExecutor.await
  split
  · next evidence hevidence =>
      obtain ⟨held, hheld, hfound⟩ := Option.bind_eq_some_iff.mp hevidence
      have hreceipt := h.kept.completions completion held evidence hheld hfound
      rw [Holds, hheld] at hholds
      cases hholds
      exact h.goOn index hreceipt trivial
  · exact h

theorem Tended.readReceiptsOfReject (intent : NativeOperationIntent)
    (failure : FailureValue) : Tended (executor.readReceiptsOfReject index intent failure) := by
  unfold RunnerExecutor.readReceiptsOfReject
  split
  · split
    · exact h.goOn index trivial trivial
    · exact h.goOn index trivial trivial
  · exact h.goOn index trivial trivial

theorem Tended.settleReject (intent : NativeOperationIntent) (evidence : ExecutorEvidence)
    (hidle : executor.receipts.has intent.operationId = false → executor.active.has intent.operationId = false) :
    Tended (executor.settleReject index intent evidence) := by
  have hsettled : Tended (executor.settle intent.operationId evidence none) := by
    apply h.settle
    · rintro _ ⟨⟩
    · intro hnone inFlight hinFlight
      cases (has_eq_false.mp (hidle hnone)).symm.trans hinFlight
    · intro hnone
      right
      intro caller hmem hcancels
      have hfair := h.callers caller hmem
      have hactive := has_eq_false.mp (hidle hnone)
      cases caller with
      | cancelInterrupt operationId inFlight | cancelSettle operationId inFlight =>
        cases hcancels
        cases hactive.symm.trans (hfair.1 hnone)
      | _ => cases hcancels
  exact hsettled.goOn index trivial trivial

theorem Tended.readActive (operationId : String) :
    Tended (executor.readActive index operationId) := by
  unfold RunnerExecutor.readActive
  split
  · next inFlight hactive =>
      refine h.goOn index (h.kept.active _ _ hactive) ⟨fun _ => hactive, fun evidence hevidence => ?_⟩
      have hquiet := h.quiet operationId (by rw [has, hevidence]; rfl)
      cases (has_eq_false.mp hquiet).symm.trans hactive
  · exact h.goOn index trivial trivial

theorem Tended.interruptFiber (hsound : executor.Sound (.cancelInterrupt operationId inFlight))
    (hfair : executor.Fair (.cancelInterrupt operationId inFlight)) :
    Tended (executor.interruptFiber index operationId inFlight) := by
  have hmodified := h.modifyFiber inFlight.fiber (f := ({ · with interrupted := true })) (fun _ => ⟨rfl, rfl, rfl⟩)
    fun _ _ hlive => hlive
  exact hmodified.goOn index hsound hfair

theorem Tended.settleCancel (hsound : executor.Sound (.cancelSettle operationId inFlight))
    (hfair : executor.Fair (.cancelSettle operationId inFlight)) :
    Tended (executor.settleCancel index operationId inFlight) := by
  unfold RunnerExecutor.settleCancel
  split
  · have hsettled : Tended (executor.settle operationId (unknownEvidence inFlight.intent) (some inFlight.completion)) := by
      apply h.settle
      · rintro _ ⟨⟩
        exact hsound
      · intro hnone other hother
        cases (hfair.1 hnone).symm.trans hother
        rfl
      · exact fun _ => .inl rfl
    refine hsettled.goOn index trivial ?_
    unfold RunnerExecutor.settle
    split
    · next hhas =>
        obtain ⟨evidence, hevidence⟩ := has_iff.mp hhas
        exact ⟨evidence, hevidence, hfair.2 evidence hevidence⟩
    · exact ⟨_, (get_set _ _ _ _).trans (if_pos rfl), rfl⟩
  · exact h

theorem Tended.readReceiptsOfCancel (operationId : String) :
    Tended (executor.readReceiptsOfCancel index operationId) := by
  unfold RunnerExecutor.readReceiptsOfCancel
  split
  · next result hresult => exact h.goOn index hresult trivial
  · exact h.goOn index trivial trivial

theorem Tended.readRequestsOfCancel
    {result : ExecutorEvidence} (hresult : executor.receipts.get operationId = some result) :
    Tended (executor.readRequestsOfCancel index operationId result) := by
  refine ⟨(h.kept.readRequestsOfCancel index hresult).kept, h.quiet, h.fibers, ?_⟩
  intro caller hmem
  rcases List.mem_or_eq_of_mem_set hmem with hmem | rfl
  · exact h.callers caller hmem
  · trivial

theorem Tended.advance (horderly : executor.Orderly (.advance index)) :
    Tended (executor.advance index) := by
  obtain ⟨hunsettled, hidle, -⟩ := horderly
  have hsound : ∀ caller, executor.callers[index]? = some caller → executor.Sound caller := fun caller hcaller =>
    h.kept.callers caller (List.mem_of_getElem? hcaller)
  have hfair : ∀ caller, executor.callers[index]? = some caller → executor.Fair caller := fun caller hcaller =>
    h.callers caller (List.mem_of_getElem? hcaller)
  unfold RunnerExecutor.advance
  split
  · exact h.readReceipts index _
  · exact h.readRequests index _
  · next intent registered completion hcaller =>
      apply h.start index (hsound _ hcaller)
      intro hactive
      apply hunsettled
      simp [starting, hcaller, hactive]
  · next hcaller => exact h.await index (hsound _ hcaller)
  · exact h.readReceiptsOfReject index _ _
  · next intent evidence hcaller =>
      apply h.settleReject
      intro hnone
      apply hidle
      simp [rejecting, hcaller, hnone]
  · exact h.readActive index _
  · next hcaller => exact h.interruptFiber index (hsound _ hcaller) (hfair _ hcaller)
  · next hcaller => exact h.settleCancel index (hsound _ hcaller) (hfair _ hcaller)
  · exact h.readReceiptsOfCancel index _
  · next hcaller => exact h.readRequestsOfCancel index (hsound _ hcaller)
  · exact h

end

theorem Tended.end (fiber : Nat) : Tended (executor.setPhase fiber .ended) :=
  h.modifyFiber fiber (fun _ => ⟨rfl, rfl, rfl⟩) fun _ _ hlive => absurd rfl hlive

theorem Tended.settleFiber (fiber : Nat) (halone : executor.SettlesAlone (.settleFiber fiber)) :
    Tended (executor.settleFiber fiber) := by
  unfold RunnerExecutor.settleFiber
  split
  · next intent request completion evidence interrupted hfiber =>
      have hsettled : Tended (executor.settle intent.operationId evidence (some completion)) := by
        apply h.settle
        · rintro _ ⟨⟩
          exact (h.kept.fibers _ (List.mem_of_getElem? hfiber)).1
        · intro hnone inFlight hinFlight
          have hflies := h.fibers fiber _ hfiber (by simp) hnone
          rw [Flies, hinFlight] at hflies
          exact hflies.symm
        · intro hnone
          apply halone (intent.operationId, evidence.outcome)
          simp [settling, hfiber, hnone]
      exact hsettled.end fiber
  · exact h

theorem Tended.step {input : Input} (horderly : executor.Orderly input) :
    Tended (executor.step input) := by
  cases input with
  | register intent request =>
    rw [RunnerExecutor.step]
    split
    · next hregister => exact h.register hregister
    · exact h
  | dispatch intent evidence => exact h.dispatch intent evidence
  | reject intent failure =>
    rw [RunnerExecutor.step, RunnerExecutor.reject]
    split
    · exact h.enter trivial trivial
    · exact h.enter trivial trivial
  | cancel operationId => exact h.enter trivial trivial
  | advance caller => exact h.advance caller horderly
  | exitFiber fiber exit =>
    rw [RunnerExecutor.step, RunnerExecutor.exitFiber]
    split
    · next intent request completion interrupted hfiber =>
        refine h.modifyFiber fiber (fun _ => ⟨rfl, rfl, rfl⟩) ?_
        intro other hother _
        rw [hfiber] at hother
        cases hother
        simp
    · exact h
  | settleFiber fiber => exact h.settleFiber fiber horderly.2.2
  | endFiber fiber =>
    rw [RunnerExecutor.step, RunnerExecutor.endFiber]
    split
    · split
      · exact h.end fiber
      · exact h
    · exact h

end

/-- A cancellation that answered told what the receipt tells, and no dispatch waits for an
operation that has one. -/
structure Honest (executor : RunnerExecutor) : Prop where
  cancelled : ∀ operationId, .cancelled operationId ∈ executor.callers →
    ∃ evidence, executor.receipts.get operationId = some evidence ∧ isUnknown evidence.outcome = true
  terminal : ∀ operationId result, .alreadyTerminal operationId result ∈ executor.callers →
    ∃ evidence, executor.receipts.get operationId = some evidence ∧ result.operationId = operationId ∧
      result.outcome = evidence.outcome
  awake : ∀ operationId completion, executor.receipts.has operationId = true →
    .dispatchAwait operationId completion ∈ executor.callers → executor.Completed completion

theorem Tended.honest (h : executor.Tended) : executor.Honest where
  cancelled := fun operationId hmem => h.callers _ hmem
  terminal := fun operationId result hmem => h.kept.callers _ hmem
  awake := by
    intro operationId completion hreceipt hmem
    rcases h.callers _ hmem with hcompleted | hflies
    · exact hcompleted
    · rw [Flies, has_eq_false.mp (h.quiet operationId hreceipt)] at hflies
      cases hflies

/-- A run is honest where no dispatch enters the lock late and no settlement crosses a reject or a cancellation. -/
theorem run_honest (binding : WorkspaceBinding) (inputs : List Input)
    (h : Throughout RunnerExecutor.step Orderly (make binding) inputs) : Honest (run (make binding) inputs) :=
  (foldl_invariant Tended (fun _ _ htended => htended.step) (make_tended binding) h).honest

def sampleStarted : List Input :=
  [.register sampleIntent sampleRequest, .dispatch sampleIntent sampleBinding, .advance 0, .advance 0, .advance 0]

def sampleCancelled : List Input :=
  sampleStarted ++ [.cancel "operation", .advance 1, .advance 1, .endFiber 0, .advance 1]

theorem run_honest_sample :
    Throughout RunnerExecutor.step Orderly (make sampleBinding) sampleCancelled ∧
      .cancelled "operation" ∈ (run (make sampleBinding) sampleCancelled).callers ∧
      Honest (run (make sampleBinding) sampleCancelled) := by
  have hthroughout : Throughout RunnerExecutor.step Orderly (make sampleBinding) sampleCancelled := by decide +kernel
  exact ⟨hthroughout, by decide +kernel, run_honest sampleBinding sampleCancelled hthroughout⟩

def sampleOvertaken : List Input :=
  sampleStarted ++ [.cancel "operation", .advance 1, .exitFiber 0 (.success "runner"), .settleFiber 0, .advance 1, .advance 1]

def sampleRejected : List Input :=
  sampleStarted ++ [.reject sampleIntent (.reader "{}"), .advance 1, .advance 1, .exitFiber 0 (.success "runner"),
    .settleFiber 0]

/-- A cancellation answers that it cancelled what has completed, and a dispatch waits for a
completion that nobody completes any more. -/
theorem cancellation_dishonest :
    .cancelled "operation" ∈ (run (make sampleBinding) sampleOvertaken).callers ∧
      ((run (make sampleBinding) sampleOvertaken).receipts.get "operation").map (·.outcome) = some (.completed "runner") ∧
      .dispatchAwait "operation" 0 ∈ (run (make sampleBinding) sampleRejected).callers ∧
      (run (make sampleBinding) sampleRejected).receipts.has "operation" = true ∧
      ((run (make sampleBinding) sampleRejected).completions[0]?.bind (·.evidence)) = none ∧
      (run (make sampleBinding) sampleRejected).fibers.map (·.phase) = [.ended] := by
  decide +kernel

end Rika.RunnerExecutor
