import Rika.Fold
import Rika.RunnerExecutor

namespace Rika.RunnerExecutor

open Fold
open InsertionMap (get_set has has_iff has_set)

variable {executor next : RunnerExecutor}

def Holds (executor : RunnerExecutor) (operationId : String) (index : Nat) : Prop :=
  (executor.completions[index]?.map (·.operationId)) = some operationId

def Sound (executor : RunnerExecutor) : Caller → Prop
  | .dispatchStart intent registered completion =>
    executor.Holds intent.operationId completion ∧ executor.requests.get intent.operationId = some registered
  | .dispatchAwait operationId completion => executor.Holds operationId completion
  | .dispatched operationId evidence => executor.receipts.get operationId = some evidence
  | .cancelInterrupt operationId inFlight | .cancelSettle operationId inFlight =>
    executor.Holds operationId inFlight.completion
  | .cancelRequests operationId result => executor.receipts.get operationId = some result
  | .alreadyTerminal operationId result =>
    ∃ evidence, executor.receipts.get operationId = some evidence ∧ result.operationId = operationId ∧
      result.outcome = evidence.outcome
  | _ => True

structure Extends (executor next : RunnerExecutor) : Prop where
  requests : ∀ operationId registered, executor.requests.get operationId = some registered →
    next.requests.get operationId = some registered
  receipts : ∀ operationId evidence, executor.receipts.get operationId = some evidence →
    next.receipts.get operationId = some evidence
  holds : ∀ operationId index, executor.Holds operationId index → next.Holds operationId index

theorem Extends.refl (executor : RunnerExecutor) : Extends executor executor :=
  ⟨fun _ _ => id, fun _ _ => id, fun _ _ => id⟩

variable {caller : Caller} {f : ExecutionFiber → ExecutionFiber} {intent : NativeOperationIntent} {operationId : String}
    {inFlight : ActiveOperation} {input : Input}

theorem Sound.mono (h : executor.Sound caller) (hextends : Extends executor next) : next.Sound caller := by
  cases caller with
  | dispatchStart intent registered completion => exact ⟨hextends.holds _ _ h.1, hextends.requests _ _ h.2⟩
  | dispatchAwait operationId completion => exact hextends.holds _ _ h
  | dispatched operationId evidence => exact hextends.receipts _ _ h
  | cancelInterrupt operationId inFlight | cancelSettle operationId inFlight => exact hextends.holds _ _ h
  | cancelRequests operationId result => exact hextends.receipts _ _ h
  | alreadyTerminal operationId result =>
    obtain ⟨evidence, hreceipt, hresult⟩ := h
    exact ⟨evidence, hextends.receipts _ _ hreceipt, hresult⟩
  | _ => trivial

/-- The tables of an executor agree, and so does what its calls have read. -/
structure Kept (executor : RunnerExecutor) : Prop where
  callers : ∀ caller ∈ executor.callers, executor.Sound caller
  completions : ∀ (index : Nat) (completion : Completion) evidence, executor.completions[index]? = some completion →
    completion.evidence = some evidence → executor.receipts.get completion.operationId = some evidence
  active : ∀ operationId inFlight, executor.active.get operationId = some inFlight →
    executor.Holds operationId inFlight.completion
  requests : ∀ operationId registered, executor.requests.get operationId = some registered →
    registered.intent.operationId = operationId
  fibers : ∀ fiber ∈ executor.fibers, executor.Holds fiber.intent.operationId fiber.completion ∧
    ∃ registered, executor.requests.get fiber.intent.operationId = some registered ∧ registered.request = fiber.request
  accounted : ∀ fiber ∈ executor.fibers, executor.active.has fiber.intent.operationId = true ∨
    executor.receipts.has fiber.intent.operationId = true

structure Grows (executor next : RunnerExecutor) : Prop where
  stays : Extends executor next
  kept : next.Kept

theorem make_kept (binding : WorkspaceBinding) : Kept (make binding) := by
  constructor
  · rintro _ ⟨⟩
  · rintro _ _ _ ⟨⟩
  · rintro _ _ ⟨⟩
  · rintro _ _ ⟨⟩
  · rintro _ ⟨⟩
  · rintro _ ⟨⟩

theorem Kept.enter (h : executor.Kept) (hsound : executor.Sound caller) :
    Grows executor (executor.enter caller) where
  stays := ⟨fun _ _ => id, fun _ _ => id, fun _ _ => id⟩
  kept :=
    { h with
      callers := by
        intro other hmem
        rcases List.mem_append.mp hmem with hmem | hmem
        · exact h.callers other hmem
        · rw [List.mem_singleton.mp hmem]
          exact hsound }

theorem Kept.goOn (h : executor.Kept) (index : Nat) (hsound : executor.Sound caller) :
    Grows executor (executor.goOn index caller) where
  stays := ⟨fun _ _ => id, fun _ _ => id, fun _ _ => id⟩
  kept :=
    { h with
      callers := by
        intro other hmem
        rcases List.mem_or_eq_of_mem_set hmem with hmem | rfl
        · exact h.callers other hmem
        · exact hsound }

theorem Grows.trans {last : RunnerExecutor} (h : Grows executor next) (h' : Grows next last) : Grows executor last where
  stays :=
    ⟨fun _ _ hget => h'.stays.requests _ _ (h.stays.requests _ _ hget),
      fun _ _ hget => h'.stays.receipts _ _ (h.stays.receipts _ _ hget),
      fun _ _ hholds => h'.stays.holds _ _ (h.stays.holds _ _ hholds)⟩
  kept := h'.kept

theorem Kept.modifyFiber (h : executor.Kept) (index : Nat)
    (hsame : ∀ fiber, (f fiber).intent = fiber.intent ∧ (f fiber).request = fiber.request ∧
      (f fiber).completion = fiber.completion) :
    Grows executor { executor with fibers := executor.fibers.modify index f } := by
  have hmem : ∀ fiber ∈ executor.fibers.modify index f, ∃ before ∈ executor.fibers, fiber.intent = before.intent ∧
      fiber.request = before.request ∧ fiber.completion = before.completion := by
    intro fiber hfiber
    obtain ⟨place, hplace⟩ := List.mem_iff_getElem?.mp hfiber
    rw [List.getElem?_modify] at hplace
    obtain ⟨before, hbefore, rfl⟩ := Option.map_eq_some_iff.mp hplace
    refine ⟨before, List.mem_of_getElem? hbefore, ?_⟩
    split
    · exact hsame before
    · exact ⟨rfl, rfl, rfl⟩
  refine ⟨⟨fun _ _ => id, fun _ _ => id, fun _ _ => id⟩, { h with fibers := ?_, accounted := ?_ }⟩
  · intro fiber hfiber
    obtain ⟨before, hbefore, hintent, hrequest, hcompletion⟩ := hmem fiber hfiber
    rw [hintent, hrequest, hcompletion]
    exact h.fibers before hbefore
  · intro fiber hfiber
    obtain ⟨before, hbefore, hintent, -, -⟩ := hmem fiber hfiber
    rw [hintent]
    exact h.accounted before hbefore

theorem Kept.register (h : executor.Kept) {request : RunnerToolRequest}
    (hregister : executor.register intent request = .ok next) : Grows executor next := by
  unfold RunnerExecutor.register at hregister
  obtain ⟨-, hregister⟩ := ite_error_eq_ok.mp hregister
  split at hregister
  · obtain ⟨-, hregister⟩ := ite_else_error_eq_ok.mp hregister
    cases hregister
    exact ⟨.refl _, h⟩
  · next hnone =>
      cases hregister
      have hextends : Extends executor
          { executor with requests := executor.requests.set intent.operationId ⟨intent, request⟩ } := by
        refine ⟨fun operationId registered hget => ?_, fun _ _ => id, fun _ _ => id⟩
        rw [get_set, if_neg]
        · exact hget
        · rintro rfl
          cases hnone.symm.trans hget
      refine ⟨hextends, ?_⟩
      exact
        { h with
          callers := fun caller hmem => (h.callers caller hmem).mono hextends
          requests := by
            intro operationId registered hget
            rw [get_set] at hget
            split at hget
            · next heq =>
                cases hget
                exact heq.symm
            · exact h.requests operationId registered hget
          fibers := by
            intro fiber hmem
            obtain ⟨hholds, registered, hget, hrequest⟩ := h.fibers fiber hmem
            exact ⟨hholds, registered, hextends.requests _ _ hget, hrequest⟩ }

theorem getElem?_signal {completion : Option Nat} {evidence : ExecutorEvidence} {place : Nat} {after : Completion}
    (h : (executor.signal completion evidence)[place]? = some after) :
    ∃ before, executor.completions[place]? = some before ∧ after.operationId = before.operationId ∧
      after.evidence = if completion = some place then before.evidence.or (some evidence) else before.evidence := by
  cases completion with
  | none => exact ⟨after, h, rfl, rfl⟩
  | some index =>
    rw [signal, List.getElem?_modify] at h
    obtain ⟨before, hbefore, rfl⟩ := Option.map_eq_some_iff.mp h
    refine ⟨before, hbefore, ?_⟩
    by_cases hindex : index = place
    · subst hindex
      rw [if_pos rfl, if_pos rfl]
      exact ⟨rfl, rfl⟩
    · rw [if_neg hindex, if_neg (by simpa using hindex)]
      exact ⟨rfl, rfl⟩

theorem operationId_signal (executor : RunnerExecutor) (completion : Option Nat) (evidence : ExecutorEvidence)
    (place : Nat) : ((executor.signal completion evidence)[place]?.map (·.operationId)) =
      executor.completions[place]?.map (·.operationId) := by
  cases completion with
  | none => rfl
  | some index =>
    rw [signal, List.getElem?_modify, Option.map_eq_map, Option.map_map]
    congr 1
    funext completion
    dsimp only [Function.comp]
    split <;> rfl

theorem get_of_deleted {other : String}
    (h : (if executor.active.has operationId then executor.active.delete operationId else executor.active).get other =
      some inFlight) : executor.active.get other = some inFlight ∧ other ≠ operationId := by
  split at h
  · rw [InsertionMap.get_delete] at h
    obtain ⟨hne, h⟩ := Option.ite_none_left_eq_some.mp h
    exact ⟨h, hne⟩
  · next hnone =>
      refine ⟨h, ?_⟩
      rintro rfl
      exact hnone (has_iff.mpr ⟨inFlight, h⟩)

theorem Kept.settle (h : executor.Kept) (operationId : String) (evidence : ExecutorEvidence) (completion : Option Nat)
    (hholds : ∀ index, completion = some index → executor.Holds operationId index) :
    Grows executor (executor.settle operationId evidence completion) := by
  unfold RunnerExecutor.settle
  split
  · exact ⟨.refl _, h⟩
  · next hnone =>
      rw [has_iff, not_exists] at hnone
      have hreceipts : ∀ other found, executor.receipts.get other = some found →
          (executor.receipts.set operationId evidence).get other = some found := by
        intro other found hget
        rw [get_set, if_neg]
        · exact hget
        · rintro rfl
          exact hnone found hget
      have hextends : Extends executor { executor with
          receipts := executor.receipts.set operationId evidence
          active := if executor.active.has operationId then executor.active.delete operationId else executor.active
          completions := executor.signal completion evidence } :=
        ⟨fun _ _ => id, hreceipts, fun _ _ hplace => (operationId_signal ..).trans hplace⟩
      refine ⟨hextends, fun caller hmem => (h.callers caller hmem).mono hextends, ?_, ?_, h.requests, ?_, ?_⟩
      · intro place after found hplace hfound
        obtain ⟨before, hbefore, hof, hevidence⟩ := getElem?_signal hplace
        rw [hof]
        rw [hevidence] at hfound
        split at hfound
        · next hsignalled =>
            rcases Option.or_eq_some_iff.mp hfound with hfound | ⟨-, hfound⟩
            · exact hreceipts _ _ (h.completions place before found hbefore hfound)
            · have hheld := hholds place hsignalled
              rw [Holds, hbefore] at hheld
              cases hheld
              cases hfound
              exact (get_set _ _ _ _).trans (if_pos rfl)
        · exact hreceipts _ _ (h.completions place before found hbefore hfound)
      · intro other inFlight hget
        exact hextends.holds _ _ (h.active other inFlight (get_of_deleted hget).1)
      · intro fiber hmem
        obtain ⟨hof, hregistered⟩ := h.fibers fiber hmem
        exact ⟨hextends.holds _ _ hof, hregistered⟩
      · intro fiber hmem
        rcases h.accounted fiber hmem with hactive | hreceipt
        · by_cases hsame : fiber.intent.operationId = operationId
          · right
            rw [has_set, hsame, decide_eq_true rfl, Bool.true_or]
          · left
            dsimp only
            split
            · rw [InsertionMap.has_delete, hactive]
              simpa using hsame
            · exact hactive
        · right
          rw [has_set, hreceipt, Bool.or_true]

theorem sound_fenceFailure (executor : RunnerExecutor) (reason : FenceReason) (message : String) :
    executor.Sound (fenceFailure reason message) := trivial

theorem sound_transportFailure (executor : RunnerExecutor) (phase : DispatchPhase) (message : String) :
    executor.Sound (transportFailure phase message) := trivial

theorem Kept.dispatch (h : executor.Kept) (intent : NativeOperationIntent) (evidence : HandshakeEvidence) :
    Grows executor (executor.dispatch intent evidence) := by
  unfold RunnerExecutor.dispatch
  split
  · exact h.enter (sound_fenceFailure _ _ _)
  · split
    · exact h.enter (sound_fenceFailure _ _ _)
    · exact h.enter trivial

theorem Kept.readReceipts (h : executor.Kept) (index : Nat) (intent : NativeOperationIntent) :
    Grows executor (executor.readReceipts index intent) := by
  unfold RunnerExecutor.readReceipts
  split
  · next cached hcached =>
      split
      · exact h.goOn index hcached
      · exact h.goOn index (sound_fenceFailure _ _ _)
  · exact h.goOn index trivial

theorem holds_concat {index : Nat} (h : executor.Holds operationId index) (completion : Completion) :
    ((executor.completions ++ [completion])[index]?.map (·.operationId)) = some operationId := by
  obtain ⟨held, hheld, hof⟩ := Option.map_eq_some_iff.mp h
  rw [List.getElem?_append_left (List.getElem?_eq_some_iff.mp hheld).1, hheld]
  exact congrArg some hof

section

variable (h : executor.Kept) (index : Nat)

include h

theorem Kept.readRequests (intent : NativeOperationIntent) :
    Grows executor (executor.readRequests index intent) := by
  unfold RunnerExecutor.readRequests
  split
  · exact h.goOn index (sound_transportFailure _ _ _)
  · next registered hregistered =>
      split
      · exact h.goOn index (sound_transportFailure _ _ _)
      · -- the completion is made first
        have hmade : Grows executor
            { executor with completions := executor.completions ++ [⟨intent.operationId, none⟩] } := by
          have hextends : Extends executor
              { executor with completions := executor.completions ++ [⟨intent.operationId, none⟩] } :=
            ⟨fun _ _ => id, fun _ _ => id, fun _ _ hholds => holds_concat hholds _⟩
          refine ⟨hextends, fun caller hmem => (h.callers caller hmem).mono hextends, ?_,
            fun _ _ hget => hextends.holds _ _ (h.active _ _ hget), h.requests, ?_, h.accounted⟩
          · intro place completion found hplace hfound
            rw [List.getElem?_append] at hplace
            split at hplace
            · exact h.completions place completion found hplace hfound
            · rw [List.mem_singleton.mp (List.mem_of_getElem? hplace)] at hfound
              cases hfound
          · intro fiber hmem
            exact ⟨hextends.holds _ _ (h.fibers fiber hmem).1, (h.fibers fiber hmem).2⟩
        have hsound : Sound { executor with completions := executor.completions ++ [⟨intent.operationId, none⟩] }
            (.dispatchStart intent registered executor.completions.length) := by
          refine ⟨?_, hregistered⟩
          rw [Holds, List.getElem?_concat_length]
          rfl
        exact hmade.trans (hmade.kept.goOn index hsound)

theorem Kept.start {registered : Registered}
    {completion : Nat} (hsound : executor.Sound (.dispatchStart intent registered completion)) :
    Grows executor (executor.start index intent registered completion) := by
  unfold RunnerExecutor.start
  split
  · next inFlight hactive => exact h.goOn index (h.active _ _ hactive)
  · have hstarted : Grows executor { executor with
        fibers := executor.fibers ++ [⟨intent, registered.request, completion, .running, false⟩]
        active := executor.active.set intent.operationId ⟨completion, intent, executor.fibers.length⟩ } := by
      refine ⟨⟨fun _ _ => id, fun _ _ => id, fun _ _ => id⟩, h.callers, h.completions, ?_, h.requests, ?_, ?_⟩
      · intro operationId inFlight hget
        rw [get_set] at hget
        split at hget
        · next heq =>
            cases hget
            exact heq ▸ hsound.1
        · exact h.active operationId inFlight hget
      · intro fiber hmem
        rcases List.mem_append.mp hmem with hmem | hmem
        · exact h.fibers fiber hmem
        · rw [List.mem_singleton.mp hmem]
          exact ⟨hsound.1, registered, hsound.2, rfl⟩
      · intro fiber hmem
        rcases List.mem_append.mp hmem with hmem | hmem
        · rcases h.accounted fiber hmem with hactive | hreceipt
          · left
            rw [has_set, hactive, Bool.or_true]
          · exact .inr hreceipt
        · left
          rw [List.mem_singleton.mp hmem, has_set, decide_eq_true rfl, Bool.true_or]
    exact hstarted.trans (hstarted.kept.goOn index hsound.1)

theorem Kept.await {operationId : String} {completion : Nat}
    (hholds : executor.Holds operationId completion) : Grows executor (executor.await index operationId completion) := by
  unfold RunnerExecutor.await
  split
  · next evidence hevidence =>
      obtain ⟨held, hheld, hfound⟩ := Option.bind_eq_some_iff.mp hevidence
      have hreceipt := h.completions completion held evidence hheld hfound
      rw [Holds, hheld] at hholds
      cases hholds
      exact h.goOn index hreceipt
  · exact ⟨.refl _, h⟩

theorem Kept.readReceiptsOfReject (intent : NativeOperationIntent)
    (failure : FailureValue) : Grows executor (executor.readReceiptsOfReject index intent failure) := by
  unfold RunnerExecutor.readReceiptsOfReject
  split
  · split
    · exact h.goOn index trivial
    · exact h.goOn index (sound_fenceFailure _ _ _)
  · exact h.goOn index trivial

theorem Kept.settleReject (intent : NativeOperationIntent)
    (evidence : ExecutorEvidence) : Grows executor (executor.settleReject index intent evidence) := by
  have hsettled := h.settle intent.operationId evidence none (by rintro _ ⟨⟩)
  exact hsettled.trans (hsettled.kept.goOn index trivial)

theorem Kept.readActive (operationId : String) :
    Grows executor (executor.readActive index operationId) := by
  unfold RunnerExecutor.readActive
  split
  · next inFlight hactive => exact h.goOn index (h.active _ _ hactive)
  · exact h.goOn index trivial

theorem Kept.interruptFiber (hholds : executor.Holds operationId inFlight.completion) :
    Grows executor (executor.interruptFiber index operationId inFlight) := by
  have hmodified := h.modifyFiber inFlight.fiber (f := ({ · with interrupted := true })) fun _ => ⟨rfl, rfl, rfl⟩
  exact hmodified.trans (hmodified.kept.goOn index hholds)

theorem Kept.settleCancel (hholds : executor.Holds operationId inFlight.completion) :
    Grows executor (executor.settleCancel index operationId inFlight) := by
  unfold RunnerExecutor.settleCancel
  split
  · have hsettled := h.settle operationId (unknownEvidence inFlight.intent) (some inFlight.completion) (by
      rintro _ ⟨⟩
      exact hholds)
    exact hsettled.trans (hsettled.kept.goOn index trivial)
  · exact ⟨.refl _, h⟩

theorem Kept.readReceiptsOfCancel (operationId : String) :
    Grows executor (executor.readReceiptsOfCancel index operationId) := by
  unfold RunnerExecutor.readReceiptsOfCancel
  split
  · next result hresult => exact h.goOn index hresult
  · exact h.goOn index trivial

theorem Kept.readRequestsOfCancel {result : ExecutorEvidence}
    (hresult : executor.receipts.get operationId = some result) :
    Grows executor (executor.readRequestsOfCancel index operationId result) := by
  apply h.goOn index
  refine ⟨result, hresult, ?_, rfl⟩
  rw [canonicalFromEvidence, originalIntent]
  cases hregistered : executor.requests.get operationId with
  | none => rfl
  | some registered => exact h.requests operationId registered hregistered

theorem Kept.advance : Grows executor (executor.advance index) := by
  have hsound : ∀ caller, executor.callers[index]? = some caller → executor.Sound caller := fun caller hcaller =>
    h.callers caller (List.mem_of_getElem? hcaller)
  unfold RunnerExecutor.advance
  split
  · exact h.readReceipts index _
  · exact h.readRequests index _
  · next hcaller => exact h.start index (hsound _ hcaller)
  · next hcaller => exact h.await index (hsound _ hcaller)
  · exact h.readReceiptsOfReject index _ _
  · exact h.settleReject index _ _
  · exact h.readActive index _
  · next hcaller => exact h.interruptFiber index (hsound _ hcaller)
  · next hcaller => exact h.settleCancel index (hsound _ hcaller)
  · exact h.readReceiptsOfCancel index _
  · next hcaller => exact h.readRequestsOfCancel index (hsound _ hcaller)
  · exact ⟨.refl _, h⟩

end

section

variable (h : executor.Kept) (fiber : Nat)

include h

theorem Kept.setPhase (phase : ExecutionPhase) :
    Grows executor (executor.setPhase fiber phase) := h.modifyFiber fiber fun _ => ⟨rfl, rfl, rfl⟩

theorem Kept.exitFiber (exit : Exit) : Grows executor (executor.exitFiber fiber exit) := by
  unfold RunnerExecutor.exitFiber
  split
  · exact h.setPhase fiber _
  · exact ⟨.refl _, h⟩

theorem Kept.settleFiber : Grows executor (executor.settleFiber fiber) := by
  unfold RunnerExecutor.settleFiber
  split
  · next intent request completion evidence interrupted hfiber =>
      have hsettled := h.settle intent.operationId evidence (some completion) (by
        rintro _ ⟨⟩
        exact (h.fibers _ (List.mem_of_getElem? hfiber)).1)
      exact hsettled.trans (hsettled.kept.setPhase fiber .ended)
  · exact ⟨.refl _, h⟩

theorem Kept.endFiber : Grows executor (executor.endFiber fiber) := by
  unfold RunnerExecutor.endFiber
  split
  · split
    · exact h.setPhase fiber .ended
    · exact ⟨.refl _, h⟩
  · exact ⟨.refl _, h⟩

end

theorem Kept.step (h : executor.Kept) (input : Input) : Grows executor (executor.step input) := by
  cases input with
  | register intent request =>
    rw [RunnerExecutor.step]
    split
    · next hregister => exact h.register hregister
    · exact ⟨.refl _, h⟩
  | dispatch intent evidence => exact h.dispatch intent evidence
  | reject intent failure =>
    rw [RunnerExecutor.step, RunnerExecutor.reject]
    split
    · exact h.enter (sound_fenceFailure _ _ _)
    · exact h.enter trivial
  | cancel operationId => exact h.enter trivial
  | advance caller => exact h.advance caller
  | exitFiber fiber exit => exact h.exitFiber fiber exit
  | settleFiber fiber => exact h.settleFiber fiber
  | endFiber fiber => exact h.endFiber fiber

section

variable (executor : RunnerExecutor)

def intents : List NativeOperationIntent := executor.fibers.map (·.intent)

theorem started_eq (operationId : String) :
    executor.started operationId = executor.intents.countP fun intent => intent.operationId = operationId := by
  rw [intents, List.countP_map]
  rfl

theorem intents_modify (index : Nat) (hsame : ∀ fiber, (f fiber).intent = fiber.intent) :
    (executor.fibers.modify index f).map (·.intent) = executor.intents := by
  apply List.ext_getElem?
  intro place
  rw [intents, List.getElem?_map, List.getElem?_map, List.getElem?_modify, Option.map_eq_map, Option.map_map]
  congr 1
  funext fiber
  dsimp only [Function.comp]
  split
  · exact hsame fiber
  · rfl

theorem intents_settle (operationId : String) (evidence : ExecutorEvidence)
    (completion : Option Nat) : (executor.settle operationId evidence completion).intents = executor.intents := by
  unfold settle
  split <;> rfl

def starting : Input → Option NativeOperationIntent
  | .advance index =>
    match executor.callers[index]? with
    | some (.dispatchStart intent _ _) => if executor.active.has intent.operationId then none else some intent
    | _ => none
  | _ => none

end

theorem intents_start (index : Nat) (intent : NativeOperationIntent) (registered : Registered) (completion : Nat) :
    (executor.start index intent registered completion).intents = executor.intents ∨
      executor.active.has intent.operationId = false ∧
        (executor.start index intent registered completion).intents = executor.intents ++ [intent] := by
  unfold start
  split
  · exact .inl rfl
  · next hnone =>
      right
      refine ⟨by rw [has, hnone]; rfl, ?_⟩
      rw [intents, List.map_append]
      rfl

theorem intents_advance (index : Nat) : (executor.advance index).intents = executor.intents ∨
      ∃ intent, executor.starting (.advance index) = some intent ∧
        (executor.advance index).intents = executor.intents ++ [intent] := by
  unfold advance
  split
  · unfold readReceipts
    split
    · split <;> exact .inl rfl
    · exact .inl rfl
  · unfold readRequests
    split
    · exact .inl rfl
    · split <;> exact .inl rfl
  · next intent registered completion hcaller =>
      have hintents := @intents_start executor index intent registered completion
      rcases hintents with hsame | ⟨hnone, hmore⟩
      · exact .inl hsame
      · exact .inr ⟨intent, by simp [starting, hcaller, hnone], hmore⟩
  · unfold await
    split <;> exact .inl rfl
  · unfold readReceiptsOfReject
    split
    · split <;> exact .inl rfl
    · exact .inl rfl
  · exact .inl (intents_settle _ _ _ _)
  · unfold readActive
    split <;> exact .inl rfl
  · exact .inl (intents_modify _ _ fun _ => rfl)
  · unfold settleCancel
    split
    · exact .inl (intents_settle _ _ _ _)
    · exact .inl rfl
  · unfold readReceiptsOfCancel
    split <;> exact .inl rfl
  · exact .inl rfl
  · exact .inl rfl

theorem intents_setPhase (fiber : Nat) (phase : ExecutionPhase) :
    (executor.setPhase fiber phase).intents = executor.intents := intents_modify _ _ fun _ => rfl

theorem intents_step (input : Input) : (executor.step input).intents = executor.intents ∨
      ∃ intent, executor.starting input = some intent ∧ (executor.step input).intents = executor.intents ++ [intent] := by
  cases input with
  | register intent request =>
    left
    rw [step, RunnerExecutor.register]
    split
    · next registered hregistered =>
        obtain ⟨-, hregistered⟩ := ite_error_eq_ok.mp hregistered
        split at hregistered
        · obtain ⟨-, hregistered⟩ := ite_else_error_eq_ok.mp hregistered
          cases hregistered
          rfl
        · cases hregistered
          rfl
    · rfl
  | dispatch intent evidence =>
    left
    rw [step, RunnerExecutor.dispatch]
    split
    · rfl
    · split <;> rfl
  | reject intent failure =>
    left
    rw [step, RunnerExecutor.reject]
    split <;> rfl
  | cancel operationId => exact .inl rfl
  | advance caller => exact intents_advance caller
  | exitFiber fiber exit =>
    left
    rw [step, RunnerExecutor.exitFiber]
    split
    · exact intents_setPhase fiber _
    · rfl
  | settleFiber fiber =>
    left
    rw [step, RunnerExecutor.settleFiber]
    split
    · exact (intents_setPhase fiber _).trans (intents_settle _ _ _ _)
    · rfl
  | endFiber fiber =>
    left
    rw [step, RunnerExecutor.endFiber]
    split
    · split
      · exact intents_setPhase fiber _
      · rfl
    · rfl

/-- A dispatch that enters the lock finds its operation in flight, or no receipt of it. -/
def Unsettled (executor : RunnerExecutor) (input : Input) : Prop :=
  ∀ intent ∈ executor.starting input, executor.receipts.has intent.operationId = false

instance : DecidablePred (Unsettled executor) := fun _ => inferInstanceAs (Decidable (∀ intent ∈ _, _))

theorem active_of_starting (h : executor.starting input = some intent) : executor.active.has intent.operationId = false := by
  unfold starting at h
  split at h
  · split at h
    · obtain ⟨hactive, h⟩ := Option.ite_none_left_eq_some.mp h
      cases h
      exact Bool.eq_false_iff.mpr hactive
    · cases h
  · cases h

/-- An operation has one execution at most, of its registered request, and none beside a receipt, which stays and is
returned. -/
structure RunsOnce (executor : RunnerExecutor) (input : Input) : Prop where
  once : ∀ operationId, (executor.step input).started operationId ≤ 1
  registered : ∀ fiber ∈ (executor.step input).fibers, ∃ registered,
    (executor.step input).requests.get fiber.intent.operationId = some registered ∧ registered.request = fiber.request
  fixed : ∀ operationId registered, executor.requests.get operationId = some registered →
    (executor.step input).requests.get operationId = some registered
  stays : ∀ operationId evidence, executor.receipts.get operationId = some evidence →
    (executor.step input).receipts.get operationId = some evidence
  unstarted : ∀ operationId evidence, executor.receipts.get operationId = some evidence →
    (executor.step input).started operationId = executor.started operationId
  returned : ∀ operationId evidence, .dispatched operationId evidence ∈ (executor.step input).callers →
    (executor.step input).receipts.get operationId = some evidence

structure Once (executor : RunnerExecutor) : Prop where
  kept : executor.Kept
  once : ∀ operationId, executor.started operationId ≤ 1

theorem make_once (binding : WorkspaceBinding) : Once (make binding) := ⟨make_kept binding, fun _ => Nat.zero_le 1⟩

theorem Kept.started_eq_zero (h : executor.Kept) (hactive : executor.active.has operationId = false)
    (hreceipt : executor.receipts.has operationId = false) : executor.started operationId = 0 := by
  rw [started, List.countP_eq_zero]
  intro fiber hmem hof
  rw [decide_eq_true_eq] at hof
  rcases h.accounted fiber hmem with hhas | hhas
  · rw [hof, hactive] at hhas
    cases hhas
  · rw [hof, hreceipt] at hhas
    cases hhas

theorem Once.step (h : executor.Once) {input : Input} (hunsettled : executor.Unsettled input) :
    Once (executor.step input) where
  kept := (h.kept.step input).kept
  once := by
    intro operationId
    rw [started_eq]
    rcases intents_step input with hsame | ⟨intent, hstarts, hmore⟩
    · rw [hsame, ← started_eq]
      exact h.once operationId
    · rw [hmore, List.countP_append, ← started_eq]
      by_cases hof : intent.operationId = operationId
      · have hreceipt := hunsettled intent hstarts
        have hactive := active_of_starting hstarts
        rw [h.kept.started_eq_zero (hof ▸ hactive) (hof ▸ hreceipt), Nat.zero_add]
        exact List.countP_le_length
      · rw [List.countP_cons_of_neg (by simpa using hof), List.countP_nil]
        exact h.once operationId

theorem run_once {inputs : List Input} (h : executor.Once) (hunsettled : Throughout RunnerExecutor.step Unsettled executor inputs) :
    Once (executor.run inputs) :=
  foldl_invariant Once (fun _ _ honce => honce.step) h hunsettled

theorem Once.runsOnce (h : executor.Once) (hunsettled : executor.Unsettled input) : executor.RunsOnce input := by
  have hgrows := h.kept.step input
  refine ⟨(h.step hunsettled).once, fun fiber hmem => (hgrows.kept.fibers fiber hmem).2, hgrows.stays.requests,
    hgrows.stays.receipts, ?_, fun operationId evidence hmem => hgrows.kept.callers _ hmem⟩
  intro operationId evidence hreceipt
  rw [started_eq, started_eq]
  rcases intents_step input with hsame | ⟨intent, hstarts, hmore⟩
  · rw [hsame]
  · rw [hmore, List.countP_append, List.countP_cons_of_neg, List.countP_nil, Nat.add_zero]
    rw [decide_eq_true_eq]
    rintro rfl
    have hhas := hunsettled intent hstarts
    rw [has, hreceipt] at hhas
    cases hhas

/-- Every step of an executor, when no dispatch enters the lock late. -/
theorem run_runsOnce (binding : WorkspaceBinding) (inputs : List Input)
    (h : Throughout RunnerExecutor.step Unsettled (make binding) inputs) (before after : List Input) (input : Input)
    (hinputs : inputs = before ++ input :: after) : RunsOnce (run (make binding) before) input := by
  subst hinputs
  obtain ⟨hbefore, hunsettled⟩ := throughout_append h
  exact (run_once (make_once binding) hbefore).runsOnce hunsettled

def sampleBinding : WorkspaceBinding :=
  ⟨"workspace", "assignment", 1, .runner "checkout" "workspace", "build", 1⟩

def sampleIntent : NativeOperationIntent := ⟨"operation", "bash", "digest", sampleBinding⟩

def sampleRequest : RunnerToolRequest := .bash "printf runner"

def sampleDispatches : List Input :=
  [.register sampleIntent sampleRequest, .dispatch sampleIntent sampleBinding, .dispatch sampleIntent sampleBinding,
    .advance 0, .advance 0, .advance 1, .advance 1]

def sampleJoined : List Input :=
  sampleDispatches ++ [.advance 0, .advance 1, .exitFiber 0 (.success "runner"), .settleFiber 0]

def sampleLate : List Input := sampleDispatches ++ [.advance 0, .exitFiber 0 (.success "runner"), .settleFiber 0]

theorem run_runsOnce_sample :
    Throughout RunnerExecutor.step Unsettled (make sampleBinding) (sampleJoined ++ [.advance 1]) ∧
      RunsOnce (run (make sampleBinding) sampleJoined) (.advance 1) := by
  have hthroughout : Throughout RunnerExecutor.step Unsettled (make sampleBinding) (sampleJoined ++ [.advance 1]) := by
    decide +kernel
  exact ⟨hthroughout, run_runsOnce sampleBinding _ hthroughout sampleJoined [] (.advance 1) rfl⟩

/-- Then it executes the operation again. -/
theorem dispatch_runs_twice :
    (run (make sampleBinding) sampleLate).receipts.has "operation" = true ∧
      (run (make sampleBinding) sampleLate).started "operation" = 1 ∧
      (run (make sampleBinding) (sampleLate ++ [.advance 1])).started "operation" = 2 := by
  decide +kernel

end Rika.RunnerExecutor
