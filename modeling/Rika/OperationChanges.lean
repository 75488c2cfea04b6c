import Rika.OperationRuns

namespace Rika.ExecutorOperations

open OperationStore AppendLog
open Fold (bind_eq_ok map_fst_eq_ok)

variable {Json : Type}

/-- A frame that is let in has the next cursor, and the kind that the cursor asks for. -/
theorem frameFollows_eq_true {known : List (ToolOperationLifecycleFrame Json)} {frame : ToolOperationLifecycleFrame Json}
    (h : frameFollows known frame = true) :
    frame.cursor = known.length + 1 ∧ (known.any fun other => other.body.isTerminal) = false ∧
      (frame.cursor = 1 → frame.body.isAccepted = true) ∧ (frame.cursor = 2 → frame.body.isStarted = true) ∧
      (2 < frame.cursor → frame.body.isOutput = true ∨ frame.body.isTerminal = true) := by
  rw [frameFollows] at h
  split at h
  · cases h
  · next hnext =>
      simp only [Bool.or_eq_true, decide_eq_true_eq, not_or, not_not, Bool.not_eq_true] at hnext
      refine ⟨hnext.1, hnext.2, ?_⟩
      split at h
      · next hone => exact ⟨fun _ => h, fun htwo => by omega, fun hmore => by omega⟩
      · next hone =>
          split at h
          · next htwo => exact ⟨fun h => absurd h hone, fun _ => h, fun hmore => by omega⟩
          · next htwo =>
              refine ⟨fun h => absurd h hone, fun h => absurd h htwo, fun _ => ?_⟩
              split at h
              · cases h
              · next hkind => simpa [or_iff_not_imp_left] using hkind

section Guarded

variable {log : List (ToolOperationLifecycleFrame Json)}

theorem cursor_of_guarded (h : Guarded frameFollows log) {i : Nat} {frame : ToolOperationLifecycleFrame Json}
    (hframe : log[i]? = some frame) : frame.cursor = i + 1 := by
  have hlt : i < log.length := (List.getElem?_eq_some_iff.mp hframe).1
  rw [(frameFollows_eq_true (h i frame hframe)).1, List.length_take_of_le (Nat.le_of_lt hlt)]

theorem cursors_of_guarded (h : Guarded frameFollows log) : log.map (·.cursor) = List.range' 1 log.length := by
  apply List.ext_getElem?
  intro i
  rw [List.getElem?_map]
  cases hframe : log[i]? with
  | none =>
    rw [Option.map_none, List.getElem?_eq_none]
    rw [List.length_range']
    exact List.getElem?_eq_none_iff.mp hframe
  | some frame =>
    have hlt : i < log.length := (List.getElem?_eq_some_iff.mp hframe).1
    rw [Option.map_some, cursor_of_guarded h hframe, List.getElem?_range' hlt, Nat.one_mul, Nat.add_comm]

end Guarded

namespace OperationRow

/-- A terminal row has its response and its outcome, and no other has. -/
def Settled (row : OperationRow Json) : Prop :=
  match row.state with
  | .accepted | .dispatched => row.response = none ∧ row.terminalOutcome = none
  | .completed => ∃ response outcome, row.response = some response ∧ row.terminalOutcome = some outcome ∧ outcome ≠ .unknown
  | .unknown => ∃ response, row.response = some response ∧ row.terminalOutcome = some .unknown

theorem settled_of_check {around : Surroundings} {state : OperationState} {response : ToolOperationResponse Json}
    {outcome : ToolOperationTerminalOutcome} {row : OperationRow Json}
    (h : (settled around state response outcome row).outcomeCheck = true) :
    (settled around state response outcome row).Settled := by
  cases state with
  | accepted => cases h
  | dispatched => cases h
  | completed => exact ⟨response, outcome, rfl, rfl, of_decide_eq_true h⟩
  | unknown =>
    have houtcome : outcome = .unknown := of_decide_eq_true h
    exact ⟨response, rfl, congrArg some houtcome⟩

end OperationRow

namespace Operation

structure Sound (operation : Operation Json) : Prop where
  log : Guarded frameFollows operation.log
  undispatched : (∀ row, operation.row = some row → row.state = .accepted) → operation.log = []
  row : ∀ row, operation.row = some row → row.Settled

theorem Step.sound {call : Call Json} {key : OperationKey} {operation operation' : Operation Json}
    (h : Step call key operation operation') (hsound : operation.Sound) : operation'.Sound := by
  cases h with
  | same => exact hsound
  | admitted around ownerId input log =>
    have hlog : log = [] := hsound.undispatched fun _ hrow => absurd hrow (Option.some_ne_none _).symm
    refine ⟨hsound.log, fun _ => hlog, fun row hrow => ?_⟩
    cases hrow
    exact ⟨rfl, rfl⟩
  | claimed row log fence updatedAt haccepted =>
    refine ⟨hsound.log, fun h => hsound.undispatched fun _ hrow => ?_, fun row' hrow => ?_⟩
    · cases hrow
      exact haccepted
    · have hrow' := hsound.row row rfl
      rw [OperationRow.Settled, haccepted] at hrow'
      cases hrow
      exact hrow'
  | renewed row log leaseEpoch updatedAt hdispatched =>
    refine ⟨hsound.log, fun h => absurd ((h _ rfl).symm.trans hdispatched) (by decide), fun row' hrow => ?_⟩
    cases hrow
    exact hsound.row row rfl
  | appended row log frame startedAt updatedAt hdispatched hfollows =>
    refine ⟨hsound.log.concat hfollows, fun h => absurd ((h _ rfl).symm.trans hdispatched) (by decide), fun row' hrow => ?_⟩
    cases hrow
    exact hsound.row row rfl
  | settled row log around state response outcome hfrom hcheck =>
    refine ⟨hsound.log, fun h => ?_, fun row' hrow => ?_⟩
    · have hstate : state = .accepted := h _ rfl
      rw [hstate] at hcheck
      cases hcheck
    · cases hrow
      exact OperationRow.settled_of_check hcheck

end Operation

namespace OperationStore

variable {store store' : OperationStore Json} {around : Surroundings}

/-- Frames under their cursors, and what the transactions keep of each operation. -/
structure Sound (store : OperationStore Json) : Prop where
  filed : Filed store
  operation : ∀ key, (store.operation key).Sound

theorem readFrames_eq (h : store.Sound) (key : OperationKey) : store.readFrames key = (store.operation key).log := by
  rw [readFrames, operation]
  refine congrArg (List.map _) (StableSort.toSorted_of_sorted ?_)
  have hcursors := cursors_of_guarded (h.operation key).log
  have hrows : (store.frames.select fun row => row.operation = key).map (·.cursor) =
      List.range' 1 (store.operation key).log.length := by
    rw [← hcursors, operation, List.map_map]
    refine List.map_congr_left fun row hrow => ?_
    exact h.filed row (Table.mem_select.mp hrow).1
  have hsorted : ((store.frames.select fun row => row.operation = key).map (·.cursor)).Pairwise (· < ·) := by
    rw [hrows]
    exact List.pairwise_lt_range'
  refine (List.pairwise_map.mp hsorted).imp fun {left right} hlt => ?_
  rw [Nat.isLE_compare]
  exact Nat.le_of_lt hlt

theorem terminalFrame_eq (key : OperationKey) :
    store.terminalFrame key = (store.operation key).log.findSome? (·.terminal?) := by
  rw [operation, List.findSome?_map]
  rfl

structure Changes (call : Call Json) (store store' : OperationStore Json) : Prop where
  filed : Filed store → Filed store'
  step : ∀ key, Operation.Step call key (store.operation key) (store'.operation key)

variable {call : Call Json}

theorem Changes.refl : Changes call store store := ⟨id, fun _ => .same _⟩

theorem Changes.sound (h : Changes call store store') (hsound : store.Sound) : store'.Sound :=
  ⟨h.filed hsound.filed, fun key => (h.step key).sound (hsound.operation key)⟩

theorem Changes.of_operation {key : OperationKey} {operation' : Operation Json} (hfiled : Filed store → Filed store')
    (hoperation : ∀ other, store'.operation other = if other = key then operation' else store.operation other)
    (hstep : Operation.Step call key (store.operation key) operation') : Changes call store store' := by
  refine ⟨hfiled, fun other => ?_⟩
  rw [hoperation]
  split
  · next h => rwa [h]
  · exact .same _

section Update

variable {key : OperationKey} {p : OperationRow Json → Bool} {values : OperationRow Json → OperationRow Json}
  {updated : Bool}

theorem update_eq_ok (h : store.update key p values = .ok (store', updated)) :
    (updated = false ∧ store' = store) ∨
      ∃ row, store.operations.find key = some row ∧ p row = true ∧ updated = true ∧ (values row).violated = none ∧
        store'.frames = store.frames ∧
        ∀ other, store'.operations.find other =
          if other = key then some { values row with toOperationIdentity := row.toOperationIdentity }
          else store.operations.find other := by
  rw [OperationStore.update] at h
  split at h
  · cases h
    exact .inl ⟨rfl, rfl⟩
  · next row hfind =>
      obtain ⟨hrow, hp⟩ := Option.filter_eq_some_iff.mp hfind
      split at h
      · cases h
      · next hviolated =>
          cases h
          refine .inr ⟨row, hrow, hp, rfl, hviolated, rfl, fun other => ?_⟩
          obtain rfl := Table.key_of_find hrow
          exact Table.find_update_key hrow (fun row => { values row with toOperationIdentity := row.toOperationIdentity })
            (fun _ => rfl) other

theorem update_changes (h : store.update key p values = .ok (store', updated))
    (hstep : ∀ row, store.operations.find key = some row → p row = true → (values row).violated = none →
      Operation.Step call key ⟨some row, (store.operation key).log⟩
        ⟨some { values row with toOperationIdentity := row.toOperationIdentity }, (store.operation key).log⟩) :
    Changes call store store' := by
  obtain ⟨-, rfl⟩ | ⟨row, hrow, hp, -, hviolated, hframes, hfind⟩ := update_eq_ok h
  · exact .refl
  · have hoperation : store.operation key = ⟨some row, (store.operation key).log⟩ := by rw [← hrow]; rfl
    refine @Changes.of_operation _ _ _ _ key
      ⟨some { values row with toOperationIdentity := row.toOperationIdentity }, (store.operation key).log⟩ ?_ ?_ ?_
    · intro hfiled frame hframe
      rw [hframes] at hframe
      exact hfiled frame hframe
    · intro other
      rw [operation, hfind, hframes]
      split
      · next hother =>
          rw [hother]
          rfl
      · rfl
    · rw [hoperation]
      exact hstep row hrow hp hviolated

end Update

theorem upsertOperation_changes {input : OperationIdentity} {answer : Option (OperationRow Json)}
    (h : store.upsertOperation around input = .ok (store', answer)) : Changes call store store' := by
  rw [upsertOperation] at h
  split at h
  · cases h
    exact .refl
  · next assignment _ =>
      simp only at h
      split at h
      · cases h
      · split at h
        · cases h
          exact .refl
        · next operations hinsert =>
            cases h
            obtain ⟨hnew, -⟩ := Table.insert_eq_some.mp hinsert
            have hnone : store.operation input.key = ⟨none, (store.operation input.key).log⟩ := by
              rw [operation]
              exact congrArg (Operation.mk · _) hnew
            refine @Changes.of_operation _ _ _ _ input.key
              ⟨some (acceptedRow around assignment.ownerId input), (store.operation input.key).log⟩ id (fun other => ?_) ?_
            · rw [operation, Table.find_insert hinsert]
              change (Operation.mk (if other = input.key then _ else _) _) = _
              split
              · next hother =>
                  rw [hother]
                  rfl
              · rfl
            · rw [hnone]
              exact .admitted _ _ _ _

theorem claimDispatch_changes {input : DispatchInput} {fence : DispatchFence} {sessionDigest : Option String}
    {answer : DispatchResult} (h : store.claimDispatch around input fence sessionDigest = .ok (store', answer)) :
    Changes call store store' := by
  rw [claimDispatch] at h
  split at h
  · cases h
    exact .refl
  · split at h
    · cases h
      exact .refl
    · split at h
      · cases h
        exact .refl
      · next row hrow =>
          split at h
          · split at h
            · cases h
              exact .refl
            · split at h
              · obtain ⟨⟨updatedStore, updated⟩, hupdate, h⟩ := bind_eq_ok.mp h
                cases h
                refine update_changes hupdate fun current _ hp _ => ?_
                simp only [Bool.and_eq_true, decide_eq_true_eq] at hp
                exact .renewed current _ (some fence.leaseEpoch) around.clock hp.1.1.1
              · cases h
                exact .refl
          · obtain ⟨⟨updatedStore, updated⟩, hupdate, h⟩ := bind_eq_ok.mp h
            cases h
            refine update_changes hupdate fun current _ hp _ => ?_
            exact .claimed current _ fence.toCompletionFence around.clock (of_decide_eq_true hp)
          · cases h
            exact .refl
          · cases h
            exact .refl

variable {key : OperationKey} {p : OperationRow Json → Bool} {response : ToolOperationResponse Json}
    {outcome : ToolOperationTerminalOutcome} {updated : Bool} {frame : ToolOperationLifecycleFrame Json}
    {frames : Table (@FrameRow.key Json)}

theorem settle_changes {state : OperationState}
    (h : store.update key p (settled around state response outcome) = .ok (store', updated))
    (hfrom : ∀ row, store.operations.find key = some row → p row = true →
      (row.state = .dispatched ∨ row.state = .accepted ∧ state = .completed ∧ Operation.Cancels call key) ∧
        Operation.Settles call key row (store.operation key).log response outcome) : Changes call store store' := by
  refine update_changes h fun row hrow hp hviolated => ?_
  obtain ⟨hstate, hsettles⟩ := hfrom row hrow hp
  refine .settled row _ around state response outcome hstate ?_ hsettles
  rw [OperationRow.violated] at hviolated
  split at hviolated
  · cases hviolated
  · next hcheck => simpa using hcheck

theorem complete_changes {fence : CompletionFence}
    (h : store.complete around key fence response outcome = .ok (store', updated)) :
    Changes (.complete key fence response outcome) store store' := by
  refine settle_changes h fun row _ hp => ⟨.inl ?_, .inl ⟨fence, rfl⟩⟩
  simp only [dispatchedUnder, Bool.and_eq_true, decide_eq_true_eq] at hp
  exact hp.1.1.1.1

theorem terminalizeAccepted_changes
    {outcome : TerminalizeOutcome} {onTerminalize : TerminalizedOperation Json → Except HostedExecutionOperationsError Unit}
    {answer : Option (TerminalizedOperation Json)}
    (h : store.terminalizeAccepted around key response outcome onTerminalize = .ok (store', answer)) :
    Changes (.terminalizeAccepted key response outcome onTerminalize) store store' := by
  rw [terminalizeAccepted] at h
  split at h
  · cases h
    exact .refl
  · split at h
    · cases h
      exact .refl
    · obtain ⟨⟨updatedStore, updated⟩, hupdate, h⟩ := bind_eq_ok.mp h
      simp only at h
      split at h
      · cases h
        exact .refl
      · split at h
        · split at h
          · obtain ⟨_, -, h⟩ := bind_eq_ok.mp h
            cases h
            refine settle_changes hupdate fun row _ hp => ?_
            exact ⟨.inr ⟨of_decide_eq_true hp, rfl, _, _, _, rfl⟩, .inr (.inl (of_decide_eq_true hp))⟩
          · cases h
        · cases h

theorem operation_of_insert {cursor : Nat} (hinsert : store.frames.insert ⟨key, cursor, frame⟩ = some frames)
    (other : OperationKey) :
    ({ store with frames } : OperationStore Json).operation other =
      if other = key then ⟨(store.operation key).row, (store.operation key).log ++ [frame]⟩
      else store.operation other := by
  have hrows := (Table.insert_eq_some.mp hinsert).2
  rw [operation, Table.select, hrows, List.filter_append, List.map_append]
  split
  · next hother =>
      rw [hother, List.filter_singleton, decide_eq_true rfl]
      rfl
  · next hother =>
      rw [List.filter_singleton, decide_eq_false (Ne.symm hother), cond_false, List.map_nil, List.append_nil]
      rfl

theorem filed_of_insert (hinsert : store.frames.insert ⟨key, frame.cursor, frame⟩ = some frames)
    (hfiled : Filed store) : Filed { store with frames } := by
  intro row hrow
  rw [(Table.insert_eq_some.mp hinsert).2, List.mem_append, List.mem_singleton] at hrow
  obtain hrow | rfl := hrow
  · exact hfiled row hrow
  · rfl

theorem appended_changes {row : OperationRow Json}
    (hrow : store.operations.find key = some row) (hdispatched : row.state = .dispatched)
    (hfollows : frameFollows (store.operation key).log frame = true)
    (hinsert : store.frames.insert ⟨key, frame.cursor, frame⟩ = some frames)
    (hupdate : OperationStore.update { store with frames } key p
      (fun row =>
        { row with
          startedAt := some (row.startedAt.getD around.clock)
          updatedAt := around.clock }) = .ok (store', updated)) : Changes call store store' := by
  have hinserted := operation_of_insert hinsert
  obtain ⟨-, rfl⟩ | ⟨current, hcurrent, -, -, -, hframes, hfind⟩ := update_eq_ok hupdate
  · refine .of_operation (filed_of_insert hinsert) hinserted ?_
    rw [operation, hrow]
    exact .appended row _ frame row.startedAt row.updatedAt hdispatched hfollows
  · obtain rfl := Option.some_inj.mp (hrow.symm.trans hcurrent)
    refine @Changes.of_operation _ _ _ _ key
      ⟨some { row with startedAt := some (row.startedAt.getD around.clock), updatedAt := around.clock },
        (store.operation key).log ++ [frame]⟩ ?_ (fun other => ?_) ?_
    · intro hfiled other hother
      rw [hframes] at hother
      exact filed_of_insert hinsert hfiled other hother
    · have hlog := congrArg Operation.log (hinserted other)
      rw [operation, hfind, hframes]
      change (Operation.mk (if other = key then _ else _) (({ store with frames } : OperationStore Json).operation other).log) = _
      rw [hlog]
      split
      · rfl
      · rfl
    · rw [operation, hrow]
      exact .appended row _ frame _ _ hdispatched hfollows

section Json

variable [DecidableEq Json]

theorem appendFrame_changes {assignmentId : String} {frame : ToolOperationLifecycleFrame Json}
    {answer : AppendFrameResult} (hsound : store.Sound)
    (h : store.appendFrame around assignmentId frame = .ok (store', answer)) : Changes call store store' := by
  rw [appendFrame] at h
  simp only at h
  split at h
  · cases h
    exact .refl
  · next row hrow =>
      split at h
      · cases h
        exact .refl
      · split at h
        · cases h
          exact .refl
        · split at h
          · cases h
            exact .refl
          · split at h
            · cases h
              exact .refl
            · next hdispatched =>
                simp only [Bool.or_eq_true, decide_eq_true_eq, not_or, not_not, Bool.not_eq_true'] at hdispatched
                obtain ⟨hdispatched, hfollows⟩ := hdispatched
                rw [Bool.not_eq_false, readFrames_eq hsound] at hfollows
                split at h
                · cases h
                · next frames hinsert =>
                    split at h
                    · obtain ⟨⟨updatedStore, updated⟩, hupdate, h⟩ := bind_eq_ok.mp h
                      cases h
                      exact appended_changes hrow hdispatched hfollows hinsert hupdate
                    · cases h
                      refine .of_operation (filed_of_insert hinsert) (operation_of_insert hinsert) ?_
                      rw [operation, hrow]
                      exact .appended row _ frame row.startedAt row.updatedAt hdispatched hfollows

theorem resolveFinalization_inr {terminal : Option (ToolOperationTerminalOutcome × ToolOperationResponse Json)}
    {input : FinalizeOperationInput Json} {fence : CompletionFence} {resolved : Resolved Json}
    (h : resolveFinalization terminal input fence = .inr resolved) :
    resolved.expected = fence ∧
      ((terminal = some (resolved.outcome, resolved.response) ∧
          (input.state = .completed → input.response = resolved.response)) ∨
        terminal = none ∧ resolved.outcome = .unknown ∧ resolved.response = input.response ∧ resolved.state = input.state) := by
  unfold resolveFinalization at h
  cases terminal with
  | none =>
    simp only [Option.any_none, Bool.and_false, Bool.false_eq_true, if_false, Option.map_none, Option.getD_none] at h
    split at h
    · cases h
    · split at h
      · cases h
      · next hexpected =>
          cases h
          exact ⟨not_not.mp hexpected, .inr ⟨rfl, rfl, rfl, rfl⟩⟩
  | some terminal =>
    simp only [Option.any_some, Option.isNone_some, Bool.and_false, Bool.false_and, Bool.false_eq_true, if_false,
      Option.map_some, Option.getD_some] at h
    split at h
    · cases h
    · next hconflict =>
        split at h
        · cases h
        · next hexpected =>
            cases h
            refine ⟨not_not.mp hexpected, .inl ⟨rfl, fun hcompleted => ?_⟩⟩
            simp only [hcompleted, decide_true, Bool.true_and, decide_eq_true_eq, not_not] at hconflict
            exact hconflict.symm

theorem finalizeOperation_changes {input : FinalizeOperationInput Json} {answer : FinalizeOperationResult Json}
    (h : store.finalizeOperation around input = .ok (store', answer)) : Changes call store store' := by
  rw [finalizeOperation] at h
  split at h
  · cases h
    exact .refl
  · next row hrow =>
      split at h
      · obtain ⟨result, -, h⟩ := bind_eq_ok.mp h
        cases h
        exact .refl
      · split at h
        · cases h
          exact .refl
        · split at h
          · cases h
            exact .refl
          · split at h
            · cases h
              exact .refl
            · next resolved hresolved =>
                obtain ⟨⟨updatedStore, updated⟩, hupdate, h⟩ := bind_eq_ok.mp h
                simp only at h
                split at h
                · cases h
                  exact .refl
                · split at h
                  · cases h
                  · cases h
                    refine settle_changes hupdate fun current _ hp => ⟨.inl ?_, .inr (.inr ?_)⟩
                    · simp only [dispatchedUnder, Bool.and_eq_true, decide_eq_true_eq] at hp
                      exact hp.1.1.1.1
                    · rw [← terminalFrame_eq]
                      obtain ⟨hterminal, -⟩ | ⟨hterminal, -⟩ := (resolveFinalization_inr hresolved).2
                      · exact .inr hterminal
                      · exact .inl hterminal

theorem serve_changes (hsound : store.Sound) (h : store.serve around call = .ok store') : Changes call store store' := by
  cases call with
  | upsertOperation input =>
    obtain ⟨answer, h⟩ := map_fst_eq_ok h
    exact upsertOperation_changes h
  | claimDispatch input fence sessionDigest =>
    obtain ⟨answer, h⟩ := map_fst_eq_ok h
    exact claimDispatch_changes h
  | appendFrame assignmentId frame =>
    obtain ⟨answer, h⟩ := map_fst_eq_ok h
    exact appendFrame_changes hsound h
  | complete key fence response outcome =>
    obtain ⟨answer, h⟩ := map_fst_eq_ok h
    exact complete_changes h
  | finalizeOperation input =>
    obtain ⟨answer, h⟩ := map_fst_eq_ok h
    exact finalizeOperation_changes h
  | terminalizeAccepted key response outcome onTerminalize =>
    obtain ⟨answer, h⟩ := map_fst_eq_ok h
    exact terminalizeAccepted_changes h

theorem next_changes (hsound : store.Sound) (request : Request Json) :
    Changes request.call store (store.next request) := by
  rw [next]
  cases hserve : store.serve request.around request.call with
  | error error => exact .refl
  | ok served => exact serve_changes hsound hserve

theorem run_sound (hsound : store.Sound) (requests : List (Request Json)) : (store.run requests).Sound := by
  induction requests generalizing store with
  | nil => exact hsound
  | cons request requests ih => exact ih ((next_changes hsound request).sound hsound)

end Json

theorem empty_sound : (empty : OperationStore Json).Sound :=
  ⟨nofun, fun _ => ⟨guarded_nil, fun _ => rfl, fun _ h => absurd h (Option.some_ne_none _).symm⟩⟩

end OperationStore

end Rika.ExecutorOperations
