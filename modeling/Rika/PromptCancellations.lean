import Rika.PromptOutcome

namespace Rika

open Fold

variable {Json Snapshot : Type} {contract : Contract Json InteractiveEvent Snapshot} {collation : Collation}

namespace HostedDatabase

variable {db db' : HostedDatabase Json}

def Fate.Stands (fate : Fate) : Prop :=
  fate.state = .admitted ∨ fate.state = .completed ∧ fate.result = some .applied

def Fate.Dropped (fate : Fate) : Prop := fate.state = .completed ∧ fate.result ≠ some .applied

variable {key : String × String} {turnIds : List String} {fate : Fate}

theorem CommandStep.completed (h : CommandStep db db' key turnIds) (hfate : db.fateOf key = some fate)
    (hcompleted : fate.state = .completed) :
    db'.fateOf key = some fate ∧ turnIds = [] := by
  cases h with
  | same hsame => exact ⟨hsame.trans hfate, rfl⟩
  | admitted _ hfree =>
    rw [hfate] at hfree
    cases hfree
  | closed before _ hbefore hstate | cancelled before _ hbefore hstate | applied before _ _ hbefore hstate =>
    obtain rfl := Option.some_inj.mp (hbefore.symm.trans hfate)
    rw [hcompleted] at hstate
    cases hstate

/-- A standing cancellation goes on standing, unless its own command is completed
with another result. -/
theorem CommandStep.cancellation (h : CommandStep db db' key turnIds) (hfate : db.fateOf key = some fate) {commandId : String}
    (hcancels : fate.command.cancels commandId = true) (hstands : fate.Stands) :
    ∃ fate', db'.fateOf key = some fate' ∧ fate'.command = fate.command ∧ (fate'.Stands ∨ fate'.Dropped) := by
  cases h with
  | same hsame => exact ⟨fate, hsame.trans hfate, rfl, .inl hstands⟩
  | admitted _ hfree =>
    rw [hfate] at hfree
    cases hfree
  | closed before result hbefore _ hafter =>
    obtain rfl := Option.some_inj.mp (hbefore.symm.trans hfate)
    refine ⟨_, hafter, rfl, ?_⟩
    by_cases hresult : result = .applied
    · exact .inl (.inr ⟨rfl, by rw [hresult]⟩)
    · exact .inr ⟨rfl, fun h => hresult (Option.some_inj.mp h)⟩
  | cancelled before _ hbefore _ hafter =>
    obtain rfl := Option.some_inj.mp (hbefore.symm.trans hfate)
    exact ⟨_, hafter, rfl, .inl (.inr ⟨rfl, rfl⟩)⟩
  | applied before _ _ hbefore _ hprompt =>
    obtain rfl := Option.some_inj.mp (hbefore.symm.trans hfate)
    rw [not_isSubmitPrompt_of_cancels hcancels] at hprompt
    cases hprompt

/-- What a cancellation that reports its target as pending leaves: it stands, and
the target is not an admitted prompt. -/
theorem cancelPrompt_pending {access : Except HostedPersistenceError Unit} {input : CancelPromptInput} {now : Finite}
    {targetCommandId : String} (h : db.cancelPrompt access input now = .ok (.pending targetCommandId, db')) :
    (∃ cancel, db'.fateOf (input.threadId, input.cancelCommandId) = some cancel ∧
        cancel.command.cancels input.targetCommandId = true ∧ cancel.Stands) ∧
      ∀ target, db'.fateOf (input.threadId, input.targetCommandId) = some target →
        target.cancelledByCommandId ≠ none ∨ target.turnId = none ∨ target.admissionStatus = none := by
  rw [cancelPrompt] at h
  obtain ⟨_, -, h⟩ := bind_eq_ok.mp h
  split at h
  · cases h
  · next log state _ =>
      obtain ⟨cancel, hcancel, h⟩ := bind_eq_ok.mp h
      obtain ⟨hfind, hcancels, hstands⟩ := applicableCancellation_eq_ok hcancel
      obtain ⟨applied, happly, h⟩ := bind_eq_ok.mp h
      obtain ⟨hfate, -⟩ := applyCancellation_fateOf hfind happly (input.threadId, input.cancelCommandId)
      have hcancelFate : ∃ fate', applied.fateOf (input.threadId, input.cancelCommandId) = some fate' ∧
          fate'.command.cancels input.targetCommandId = true ∧ fate'.Stands := by
        rcases hfate with hsame | ⟨-, -, hafter⟩
        · exact ⟨fate cancel, hsame.trans (fateOf_eq_some.mpr ⟨cancel, hfind, rfl⟩), hcancels, hstands⟩
        · exact ⟨_, hafter, hcancels, .inr ⟨rfl, rfl⟩⟩
      rcases (cancelTarget_eq_ok h).2 with ⟨hnone, rfl⟩ | ⟨target, htarget, hprompt, ⟨-, hafter⟩ | ⟨-, rfl, hpending⟩⟩
      · refine ⟨hcancelFate, fun target htarget => ?_⟩
        rw [fateOf, hnone] at htarget
        cases htarget
      · constructor
        · obtain ⟨fate', hfate', hcancels', hstands'⟩ := hcancelFate
          refine ⟨fate', ?_, hcancels', hstands'⟩
          rw [hafter, if_neg, hfate']
          intro hkey
          rw [hkey] at hfate'
          obtain ⟨row, hrow, rfl⟩ := fateOf_eq_some.mp hfate'
          obtain rfl := Option.some_inj.mp (hrow.symm.trans htarget)
          have hother : row.command.isSubmitPrompt = false := not_isSubmitPrompt_of_cancels hcancels'
          rw [hprompt] at hother
          cases hother
        · intro target' htarget'
          rw [hafter, if_pos rfl] at htarget'
          obtain rfl := Option.some_inj.mp htarget'
          exact .inl (Option.some_ne_none _)
      · refine ⟨hcancelFate, fun target' htarget' => .inr ?_⟩
        obtain ⟨row, hrow, rfl⟩ := fateOf_eq_some.mp htarget'
        obtain rfl := Option.some_inj.mp (hrow.symm.trans htarget)
        exact hpending ⟨_, rfl⟩

end HostedDatabase

namespace Hosted

open HostedDatabase

variable {s : Hosted Json}

/-- The cancellation keeps its target from running, or was completed without
being applied. -/
def Withheld (threadId cancelCommandId targetCommandId : String) (s : Hosted Json) : Prop :=
  ∃ cancel, s.db.fateOf (threadId, cancelCommandId) = some cancel ∧ cancel.command.cancels targetCommandId = true ∧
    (cancel.Dropped ∨ cancel.Stands ∧ s.turnsOf (threadId, targetCommandId) = [])

variable {threadId cancelCommandId targetCommandId : String} {key : String × String} {turn : CreatedTurn}

theorem step_withheld (hinv : Accounted s)
    (h : Withheld threadId cancelCommandId targetCommandId s) (operation : HostedOperation Snapshot) :
    Withheld threadId cancelCommandId targetCommandId (step contract collation s operation) := by
  obtain ⟨cancel, hcancel, hcancels, hkept⟩ := h
  obtain ⟨_, hstep⟩ := step_hostedStep contract collation s operation
    (threadId, cancelCommandId)
  rcases hkept with hdropped | ⟨hstands, hnone⟩
  · exact ⟨cancel, (hstep.command.completed hcancel hdropped.1).1, hcancels, .inl hdropped⟩
  · obtain ⟨cancel', hcancel', hcommand, hkept⟩ := hstep.command.cancellation hcancel hcancels hstands
    refine ⟨cancel', hcancel', hcommand ▸ hcancels, hkept.symm.imp_right fun hstands' => ⟨hstands', ?_⟩⟩
    obtain ⟨turnIds, htarget⟩ := step_hostedStep contract collation s operation
      (threadId, targetCommandId)
    rw [htarget.turns, hnone, List.nil_append]
    -- a prompt is only applied while no cancellation of it stands
    cases htarget.command with
    | same | admitted | closed | cancelled => rfl
    | applied prompt turnId status hprompt hstate hsubmit hclear =>
      obtain ⟨row, hrow, rfl⟩ := fateOf_eq_some.mp hcancel
      obtain ⟨hmem, hkey⟩ := Table.find_eq_some.mp hrow
      have hrowOwner := hinv.owner (threadId, cancelCommandId) (fate row) hcancel
      have howner : row.ownerId = prompt.ownerId :=
        Option.some_inj.mp (hrowOwner.symm.trans (hinv.owner (threadId, targetCommandId) prompt hprompt))
      exact absurd hstands (hclear row hmem (congrArg Prod.fst hkey) howner hcancels)

theorem run_withheld (hinv : Accounted s)
    (h : Withheld threadId cancelCommandId targetCommandId s) (operations : List (HostedOperation Snapshot)) :
    Withheld threadId cancelCommandId targetCommandId (run contract collation s operations) := by
  induction operations generalizing s with
  | nil => exact h
  | cons operation operations ih => exact ih (hinv.step operation) (step_withheld hinv h operation)

theorem turnsOf_eq_nil (hinv : Accounted s) (h : ∀ fate, s.db.fateOf key = some fate →
      fate.cancelledByCommandId ≠ none ∨ fate.turnId = none ∨ fate.admissionStatus = none) : s.turnsOf key = [] := by
  cases hfate : s.db.fateOf key with
  | none => exact hinv.free key hfate
  | some fate =>
    have hreport := h fate hfate
    have houtcome := hinv.outcome key fate hfate
    generalize s.turnsOf key = turns at houtcome ⊢
    cases houtcome with
    | pending | cancelled | closed => rfl
    | admitted turnId _ _ hturn hstatus hcancelled =>
      rcases hreport with hreport | hreport | hreport
      · exact absurd hcancelled hreport
      · rw [hturn] at hreport
        cases hreport
      · exact absurd hreport hstatus

theorem withheld_of_pending (hinv : Accounted s) {access : Except HostedPersistenceError Unit}
    {input : CancelPromptInput} {now : Finite} {db' : HostedDatabase Json}
    (h : s.db.cancelPrompt access input now = .ok (.pending targetCommandId, db')) :
    Withheld input.threadId input.cancelCommandId input.targetCommandId
      (step contract collation s (.cancelPrompt access input now)) := by
  have hinv' : Accounted (step contract collation s (.cancelPrompt access input now)) := hinv.step _
  have hdb : (step contract collation s (.cancelPrompt access input now)).db = db' := by
    rw [step, h]
    rfl
  obtain ⟨⟨cancel, hcancel, hcancels, hstands⟩, htarget⟩ := cancelPrompt_pending h
  rw [← hdb] at hcancel htarget
  exact ⟨cancel, hcancel, hcancels, .inr ⟨hstands, turnsOf_eq_nil hinv' htarget⟩⟩

theorem run_completed {fate : Fate} (h : s.db.fateOf key = some fate)
    (hcompleted : fate.state = .completed) (operations : List (HostedOperation Snapshot)) :
    (run contract collation s operations).db.fateOf key = some fate ∧
      (run contract collation s operations).turnsOf key = s.turnsOf key := by
  induction operations generalizing s with
  | nil => exact ⟨h, rfl⟩
  | cons operation operations ih =>
    obtain ⟨turnIds, hstep⟩ := step_hostedStep contract collation s operation key
    obtain ⟨hfate, hnone⟩ := hstep.command.completed h hcompleted
    obtain ⟨hfate', hturns⟩ := ih hfate
    refine ⟨hfate', hturns.trans ?_⟩
    rw [hstep.turns, hnone, List.append_nil]

theorem mem_turnsOf (h : turn ∈ s.created) : turn.turnId ∈ s.turnsOf (turn.threadId, turn.commandId) :=
  List.mem_map_of_mem (List.mem_filter.mpr ⟨h, decide_eq_true rfl⟩)

theorem Accounted.isSubmitPrompt (hinv : Accounted s) (h : turn ∈ s.created) :
    ∃ row, s.db.commands.find (turn.threadId, turn.commandId) = some row ∧ row.command.isSubmitPrompt = true := by
  have hmem := mem_turnsOf h
  cases hfate : s.db.fateOf (turn.threadId, turn.commandId) with
  | none =>
    rw [hinv.free _ hfate] at hmem
    cases hmem
  | some fate =>
    obtain ⟨row, hrow, rfl⟩ := fateOf_eq_some.mp hfate
    have houtcome := hinv.outcome _ _ hfate
    generalize s.turnsOf (turn.threadId, turn.commandId) = turns at hmem houtcome
    cases houtcome with
    | pending | cancelled | closed => cases hmem
    | admitted _ _ hprompt => exact ⟨row, hrow, hprompt⟩

/-- A prompt command has one turn or none and stays so once completed, and one that was reported as pending gets none. -/
theorem prompt_or_cancel (contract : Contract Json InteractiveEvent Snapshot) (collation : Collation)
    (hostedThreads : Table (@HostedThread.id Json)) (productThreads : Table ProductThread.id)
    (ownerCounters : Table OwnerCounter.ownerId) (operations : List (HostedOperation Snapshot)) :
    let s := run contract collation (start hostedThreads productThreads ownerCounters) operations
    (∀ row ∈ s.db.commands.rows, row.command.isSubmitPrompt = true → Outcome (fate row) (s.turnsOf row.key)) ∧
    (∀ row ∈ s.db.commands.rows, row.state = .completed → ∀ later,
      (run contract collation s later).db.fateOf row.key = some (fate row) ∧
        (run contract collation s later).turnsOf row.key = s.turnsOf row.key) ∧
    (∀ turn ∈ s.created,
      ∃ row, s.db.commands.find (turn.threadId, turn.commandId) = some row ∧ row.command.isSubmitPrompt = true) ∧
    ∀ access input now targetCommandId db', s.db.cancelPrompt access input now = .ok (.pending targetCommandId, db') →
      ∀ later, let s' := run contract collation s (.cancelPrompt access input now :: later)
        s'.turnsOf (input.threadId, input.targetCommandId) = [] ∨
          ∃ cancel, s'.db.commands.find (input.threadId, input.cancelCommandId) = some cancel ∧
            cancel.state = .completed ∧ cancel.result ≠ some .applied := by
  intro s
  have hinv : Accounted s := run_accounted (start_accounted hostedThreads productThreads ownerCounters) operations
  have hfate : ∀ row ∈ s.db.commands.rows, s.db.fateOf row.key = some (fate row) := fun row hrow =>
    fateOf_eq_some.mpr ⟨row, Table.find_eq_some.mpr ⟨hrow, rfl⟩, rfl⟩
  refine ⟨fun row hrow _ => hinv.outcome _ _ (hfate row hrow), fun row hrow hcompleted later => ?_,
    fun turn hturn => hinv.isSubmitPrompt hturn, ?_⟩
  · exact run_completed (hfate row hrow) hcompleted later
  · intro access input now targetCommandId db' h later
    have hwithheld : Withheld input.threadId input.cancelCommandId input.targetCommandId
        (run contract collation s (.cancelPrompt access input now :: later)) :=
      run_withheld (hinv.step (.cancelPrompt access input now)) (withheld_of_pending hinv h) later
    obtain ⟨cancel, hcancel, -, hkept⟩ := hwithheld
    rcases hkept with hdropped | ⟨-, hnone⟩
    · obtain ⟨row, hrow, rfl⟩ := fateOf_eq_some.mp hcancel
      exact .inr ⟨row, hrow, hdropped⟩
    · exact .inl hnone

def sampleContract : Contract String InteractiveEvent Unit where
  encodeEvent
    | .other json => json
    | _ => "admitted"
  decodeEvent json := some (.other json)
  encodeSnapshot _ := ""
  decodeSnapshot _ := some ()
  pendingAuthorizationsEquivalent _ _ := true

def sampleStart : Hosted String :=
  start ⟨[⟨"thread", "owner", .managed, ⟨some ⟨0, 0⟩, .empty, .empty, .empty⟩⟩], by decide⟩
    ⟨[⟨"thread", "owner", "New thread", 0⟩], by decide⟩ ⟨[⟨"owner", 0⟩], by decide⟩

def sampleAdmit (commandId : String) (command : CommandBody) : HostedOperation Unit :=
  .admitCommand (.ok ()) ⟨"owner", "thread", commandId, none, commandId, "actor", command, ⟨"now", some 1⟩⟩ none

def sampleClose (commandId : String) : HostedOperation Unit :=
  .completeCommand ⟨id, id⟩ ⟨"owner", "thread", commandId, "claim", .other "rejected", [], none, ⟨"now", some 1⟩⟩ 1

def sampleApply (commandId turnId : String) (queueCapacity : Finite) : HostedOperation Unit :=
  .applyPrompt ⟨id, id⟩ ⟨"owner", "thread", commandId, none, turnId, "actor", "prompt", none, "route",
    ⟨"thread", turnId, none, "prepared"⟩, commandId, ⟨"now", some 1⟩, queueCapacity, true⟩
    (.ok ⟨"run", none, none, turnId, "thread"⟩) 1

def sampleCancel : CancelPromptInput := ⟨"owner", "thread", "cancel", "prompt", "actor", ⟨"now", some 1⟩, some "claim"⟩

def sampleCancelled : List (HostedOperation Unit) :=
  [sampleAdmit "cancel" (.cancel (.command "prompt")), .claimNextCommand "claim" 60 0]

/-- A prompt is closed with neither, or gets a turn after its cancellation was reported as pending and rejected. -/
theorem prompt_closed_or_revived :
    (∃ row, (run sampleContract .codePoint sampleStart [sampleAdmit "prompt" (.submitPrompt ""),
          .claimNextCommand "claim" 60 0, sampleClose "prompt"]).db.commands.find ("thread", "prompt") = some row ∧
        row.command.isSubmitPrompt = true ∧ row.state = .completed ∧ row.cancelledByCommandId = none) ∧
    (run sampleContract .codePoint sampleStart [sampleAdmit "prompt" (.submitPrompt ""),
      .claimNextCommand "claim" 60 0, sampleClose "prompt"]).turnsOf ("thread", "prompt") = [] ∧
    ((run sampleContract .codePoint sampleStart sampleCancelled).db.cancelPrompt (.ok ()) sampleCancel 1).toOption.map
      Prod.fst = some (.pending "prompt") ∧
    (run sampleContract .codePoint sampleStart (sampleCancelled ++ [.cancelPrompt (.ok ()) sampleCancel 1,
      sampleClose "cancel", sampleAdmit "prompt" (.submitPrompt ""), sampleApply "prompt" "turn" 10])).turnsOf
        ("thread", "prompt") = ["turn"] := by
  refine ⟨?_, ?_, ?_, ?_⟩ <;> decide +kernel

end Hosted

end Rika
