import Rika.HostedRuns

namespace Rika

namespace HostedDatabase

open Fold

variable {Json Snapshot : Type} {db db' : HostedDatabase Json} {contract : Contract Json InteractiveEvent Snapshot}
  {collation : Collation}

/-- What a command is, and what has become of it: its claim and its work apart. -/
structure Fate where
  ownerId : String
  command : CommandBody
  state : CommandState
  result : Option CommandResult
  turnId : Option String
  admissionStatus : Option AdmissionStatus
  cancelledByCommandId : Option String

def fate (row : CommandRow) : Fate :=
  ⟨row.ownerId, row.command, row.state, row.result, row.turnId, row.admissionStatus, row.cancelledByCommandId⟩

def fateOf (db : HostedDatabase Json) (key : String × String) : Option Fate := (db.commands.find key).map fate

def ownerOf (db : HostedDatabase Json) (threadId : String) : Option String :=
  (db.hostedThreads.find threadId).map (·.ownerId)

/-- What a transaction does to one command, and the turns it inserts for it. -/
inductive CommandStep (db db' : HostedDatabase Json) (key : String × String) : List String → Prop
  | same (h : db'.fateOf key = db.fateOf key) : CommandStep db db' key []
  | admitted (fate : Fate) (hfree : db.fateOf key = none) (hfate : db'.fateOf key = some fate)
      (hstate : fate.state = .admitted) (hstatus : fate.admissionStatus = none)
      (hcancelled : fate.cancelledByCommandId = none)
      (howner : db.ownerOf key.1 = some fate.ownerId) : CommandStep db db' key []
  | closed (fate : Fate) (result : CommandResult) (hfate : db.fateOf key = some fate)
      (hstate : fate.state = .admitted)
      (hclosed : db'.fateOf key = some { fate with state := .completed, result := some result }) :
      CommandStep db db' key []
  | cancelled (fate : Fate) (cancelCommandId : String) (hfate : db.fateOf key = some fate)
      (hstate : fate.state = .admitted)
      (hcancelled : db'.fateOf key = some
        { fate with
          state := .completed
          result := some .applied
          cancelledByCommandId := some cancelCommandId }) :
      CommandStep db db' key []
  | applied (fate : Fate) (turnId : String) (status : AdmissionStatus) (hfate : db.fateOf key = some fate)
      (hstate : fate.state = .admitted) (hprompt : fate.command.isSubmitPrompt = true)
      (hclear : ∀ cancel ∈ db.commands.rows, cancel.threadId = key.1 → cancel.ownerId = fate.ownerId →
        cancel.command.cancels key.2 = true → ¬ CancellationStands cancel)
      (happlied : db'.fateOf key = some
        { fate with
          state := .completed
          result := some (.promptAdmitted status)
          turnId := some turnId
          admissionStatus := some status }) :
      CommandStep db db' key [turnId]

variable {key : String × String} {threadId commandId turnId ownerId : String} {f : CommandRow → CommandRow}
    {hf : ∀ row, (f row).key = row.key} {p : CommandRow → Bool} {α : Type} {a : α} {log : ThreadLog Json}
    {state : ProtocolState} {row current cancel : CommandRow} {access : Except HostedPersistenceError Unit}
    {expectedVersion : Option Nat} {admission : CommandAdmission} {claimMillis now admittedAt updatedAt : Finite}
    {projection : ProcessObservationProjection InteractiveEvent Snapshot} {completion : CommandCompletion}
    {input : ApplyPromptInput} {stage : Except HostedPersistenceError ExecutionLink} {queueCapacity : Int}
    {application : PromptApplication} {answer : PromptCancellation} {claim : TurnClaim}

theorem fateOf_eq_some {fate : Fate} :
    db.fateOf key = some fate ↔ ∃ row, db.commands.find key = some row ∧ HostedDatabase.fate row = fate :=
  Option.map_eq_some_iff

theorem CommandStep.congr {db'' : HostedDatabase Json} {turnIds : List String}
    (h : CommandStep db db' key turnIds) (hsame : db''.fateOf key = db'.fateOf key) :
    CommandStep db db'' key turnIds := by
  cases h with
  | same h => exact .same (hsame.trans h)
  | admitted fate hfree hfate hstate hstatus hcancelled howner =>
    exact .admitted fate hfree (hsame.trans hfate) hstate hstatus hcancelled howner
  | closed fate result hfate hstate hclosed => exact .closed fate result hfate hstate (hsame.trans hclosed)
  | cancelled fate cancelCommandId hfate hstate hcancelled =>
    exact .cancelled fate cancelCommandId hfate hstate (hsame.trans hcancelled)
  | applied fate turnId status hfate hstate hprompt hclear happlied =>
    exact .applied fate turnId status hfate hstate hprompt hclear (hsame.trans happlied)

theorem writeCommands_eq_ok {commands : Table CommandRow.key} (h : db.writeCommands commands = .ok db') :
    db' = { db with commands } := by
  rw [writeCommands] at h
  split at h <;> cases h
  rfl

section

variable (h : db.updateCommand threadId commandId f hf = .ok db')

include h

theorem updateCommand_eq_ok :
    db' = { db with commands := db.commands.update (fun row => row.key = (threadId, commandId)) f hf } :=
  writeCommands_eq_ok h

theorem find_updateCommand (key : String × String) :
    db'.commands.find key = if key = (threadId, commandId) then (db.commands.find key).map f else db.commands.find key := by
  rw [updateCommand_eq_ok h, Table.find_update]
  cases hfind : db.commands.find key with
  | none => simp
  | some row =>
    have hkey := Table.key_of_find hfind
    split
    · next hsame => rw [Option.map_some, Option.map_some, if_pos (by simp [hkey, hsame])]
    · next hother => rw [Option.map_some, if_neg (by simp [hkey, hother])]

theorem fateOf_updateCommand (key : String × String) :
    db'.fateOf key = if key = (threadId, commandId) then (db.commands.find key).map (fate ∘ f) else db.fateOf key := by
  rw [fateOf, find_updateCommand h]
  split
  · exact Option.map_map _ _ _
  · rfl

end

theorem fateOf_congr (h : db'.commands = db.commands) : db'.fateOf = db.fateOf := by
  funext key
  rw [fateOf, h, fateOf]

theorem fateOf_of_update (hf : ∀ row, (f row).key = row.key)
    (h : db'.commands = db.commands.update p f hf) (hfate : ∀ row, fate (f row) = fate row) :
    db'.fateOf = db.fateOf := by
  funext key
  rw [fateOf, h, Table.find_update, Option.map_map, fateOf]
  congr 1
  funext row
  dsimp only [Function.comp_apply]
  split
  · exact hfate row
  · rfl

theorem fateOf_of_updateCommand (h : db.updateCommand threadId commandId f hf = .ok db')
    (hfate : ∀ row, fate (f row) = fate row) : db'.fateOf = db.fateOf := by
  obtain rfl := updateCommand_eq_ok h
  exact fateOf_of_update hf rfl hfate

theorem ownerOf_congr (h : db'.hostedThreads = db.hostedThreads) : db'.ownerOf = db.ownerOf := by
  funext threadId
  rw [ownerOf, h, ownerOf]

theorem ownerOf_of_updateCommand (h : db.updateCommand threadId commandId f hf = .ok db') : db'.ownerOf = db.ownerOf := by
  obtain rfl := updateCommand_eq_ok h
  rfl

theorem ofWrite_eq_ok {ε : Type} {x : Except ε α} (h : ofWrite x = .ok a) : x = .ok a := by
  cases x with
  | error _ => cases h
  | ok b =>
    cases h
    rfl

theorem updateTurnCommand_eq_ok (h : db.updateTurnCommand turnId p f hf = .ok db') :
    db' = { db with commands := db.commands.update (fun row => row.turnId = some turnId && p row) f hf } :=
  writeCommands_eq_ok (ofWrite_eq_ok h)

theorem state_eq_some (h : db.state ownerId threadId = some (log, state)) :
    ∃ thread, db.hostedThreads.find threadId = some thread ∧ thread.ownerId = ownerId ∧ thread.log = log ∧
      log.state = some state := by
  obtain ⟨thread, hthread, hstate⟩ := Option.bind_eq_some_iff.mp h
  obtain ⟨hfind, howner⟩ := Option.filter_eq_some_iff.mp hthread
  obtain ⟨state', hlog, hsame⟩ := Option.map_eq_some_iff.mp hstate
  cases hsame
  exact ⟨thread, hfind, of_decide_eq_true howner, rfl, hlog⟩

theorem findCommand_eq_some (h : db.findCommand ownerId threadId commandId = some row) :
    db.commands.find (threadId, commandId) = some row ∧ row.ownerId = ownerId := by
  obtain ⟨hfind, howner⟩ := Option.filter_eq_some_iff.mp h
  exact ⟨hfind, of_decide_eq_true howner⟩

theorem insertCommand_eq_ok (h : db.insertCommand row = .ok db') :
    db.commands.find row.key = none ∧ db'.commands.rows = db.commands.rows ++ [row] ∧
      db'.turnStore = db.turnStore ∧ db'.hostedThreads = db.hostedThreads := by
  rw [insertCommand] at h
  obtain ⟨-, h⟩ := ite_error_eq_ok.mp h
  split at h
  · cases h
  · next commands hinsert =>
      obtain rfl := writeCommands_eq_ok h
      obtain ⟨hfree, hrows⟩ := Table.insert_eq_some.mp hinsert
      exact ⟨hfree, hrows, rfl, rfl⟩

theorem admitCommand_commandStep {input : AdmitInput}
    (h : db.admitCommand access input expectedVersion = .ok (admission, db')) (key : String × String) :
    CommandStep db db' key [] := by
  rw [admitCommand] at h
  obtain ⟨_, -, h⟩ := bind_eq_ok.mp h
  obtain ⟨existing, -, h⟩ := bind_eq_ok.mp h
  split at h
  · cases h
    exact .same rfl
  · split at h
    · cases h
    · next log state hstate =>
        obtain ⟨thread, hthread, howner, -, -⟩ := state_eq_some hstate
        obtain ⟨-, h⟩ := ite_error_eq_ok.mp h
        split at h
        · cases h
        · next counter _ =>
            obtain ⟨inserted, hinsert, ⟨⟩⟩ := bind_eq_ok.mp h
            obtain ⟨hfree, hrows, -, -⟩ := insertCommand_eq_ok hinsert
            have hfind := Table.find_of_rows_append hrows key
            by_cases hkey : key = (admittedRow input state counter).key
            · rw [if_pos hkey] at hfind
              refine .admitted _ ?_ (fateOf_eq_some.mpr ⟨_, hfind, rfl⟩) rfl rfl rfl ?_
              · rw [fateOf, hkey]
                exact congrArg (Option.map fate) hfree
              · rw [hkey]
                exact Option.map_eq_some_iff.mpr ⟨thread, hthread, howner⟩
            · rw [if_neg hkey] at hfind
              exact .same (congrArg (Option.map fate) hfind)

theorem claimNextCommand_fateOf {claimToken : String} {claimed : Option CommandRow}
    (h : db.claimNextCommand collation claimToken claimMillis now = .ok (claimed, db')) :
    db'.fateOf = db.fateOf ∧ db'.ownerOf = db.ownerOf := by
  rw [claimNextCommand] at h
  split at h
  · cases h
    exact ⟨rfl, rfl⟩
  · obtain ⟨updated, hupdate, ⟨⟩⟩ := bind_eq_ok.mp h
    exact ⟨fateOf_of_updateCommand hupdate fun _ => rfl, ownerOf_of_updateCommand hupdate⟩

theorem renewCommandClaim_fateOf {input : CommandClaimInput} {renewed : Bool}
    (h : db.renewCommandClaim input claimMillis now = .ok (renewed, db')) :
    db'.fateOf = db.fateOf ∧ db'.ownerOf = db.ownerOf := by
  rw [renewCommandClaim] at h
  split at h
  · cases h
    exact ⟨rfl, rfl⟩
  · obtain ⟨updated, hupdate, ⟨⟩⟩ := bind_eq_ok.mp h
    exact ⟨fateOf_of_updateCommand hupdate fun _ => rfl, ownerOf_of_updateCommand hupdate⟩

theorem releaseCommandClaim_fateOf {input : CommandClaimInput} (h : db.releaseCommandClaim input = .ok db') :
    db'.fateOf = db.fateOf ∧ db'.ownerOf = db.ownerOf := by
  rw [releaseCommandClaim] at h
  split at h
  · cases h
    exact ⟨rfl, rfl⟩
  · exact ⟨fateOf_of_updateCommand h fun _ => rfl, ownerOf_of_updateCommand h⟩

theorem completeCommand_commandStep {input : CompleteInput Snapshot}
    (h : db.completeCommand contract projection input now = .ok (completion, db')) (key : String × String) :
    CommandStep db db' key [] := by
  rw [completeCommand] at h
  split at h
  · cases h
  · split at h
    · cases h
    · next current hcurrent =>
        obtain ⟨hfind, -⟩ := findCommand_eq_some hcurrent
        split at h
        · cases h
          exact .same rfl
        · next hstate =>
            obtain ⟨-, h⟩ := ite_error_eq_ok.mp h
            obtain ⟨⟨cursor, log⟩, -, h⟩ := bind_eq_ok.mp h
            obtain ⟨completed, hupdate, ⟨⟩⟩ := bind_eq_ok.mp h
            have hfate := fateOf_updateCommand hupdate key
            by_cases hkey : key = (input.threadId, input.commandId)
            · rw [if_pos hkey, hkey, hfind] at hfate
              refine .closed (fate current) input.result ?_ ?_ (hkey ▸ hfate)
              · rw [hkey]
                exact fateOf_eq_some.mpr ⟨current, hfind, rfl⟩
              · change current.state = .admitted
                cases hcurrentState : current.state with
                | admitted => rfl
                | completed => exact absurd hcurrentState hstate
            · rw [if_neg hkey] at hfate
              exact .same hfate

theorem ownerOf_setLog (db : HostedDatabase Json) (threadId : String) (log : ThreadLog Json) :
    (db.setLog threadId log).ownerOf = db.ownerOf := by
  funext threadId'
  rw [ownerOf, setLog, Table.find_update, Option.map_map, ownerOf]
  congr 1
  funext thread
  dsimp only [Function.comp_apply]
  split <;> rfl

theorem insertedTurn_of_same (h : db'.turnStore = db.turnStore) : Hosted.insertedTurn db db' input = [] := by
  rw [Hosted.insertedTurn, h]
  cases db.turnStore.turns.find input.turnId <;> rfl

theorem renameProvisionalTitle_eq (db : HostedDatabase Json) (input : ApplyPromptInput) (admittedAt : Finite) :
    ∃ productThreads, (db.renameProvisionalTitle input admittedAt).2 = { db with productThreads } := by
  rw [renameProvisionalTitle]
  split
  · exact ⟨db.productThreads, rfl⟩
  · split
    · exact ⟨db.productThreads, rfl⟩
    · split
      · exact ⟨db.productThreads, rfl⟩
      · exact ⟨_, rfl⟩

/-- What a staged prompt leaves behind: its turn with the execution link, and
the completed command. -/
theorem stagePrompt_eq_ok (h : db.stagePrompt contract projection input stage log state current queueCapacity admittedAt =
      .ok (application, db')) :
    ∃ status turnStore link cursor, ∃ staged : HostedDatabase Json, db.turnStore.turns.find input.turnId = none ∧
      admitTurn db.turnStore input queueCapacity admittedAt = .ok (status, turnStore) ∧
        link.threadId = input.threadId ∧ staged.turnStore = setExecutionLink turnStore input.turnId link ∧
          staged.commands = db.commands ∧
            (∃ log', staged.hostedThreads = (db.setLog input.threadId log').hostedThreads ∧
              log'.state = some { state with eventCursor := cursor }) ∧
              staged.updateCommand input.threadId input.commandId (promptAdmitted input status cursor) = .ok db' := by
  rw [stagePrompt] at h
  obtain ⟨-, h⟩ := ite_error_eq_ok.mp h
  obtain ⟨-, h⟩ := ite_error_eq_ok.mp h
  obtain ⟨productThreads, hrenamed⟩ := renameProvisionalTitle_eq db input admittedAt
  generalize db.renameProvisionalTitle input admittedAt = renamedPair at h hrenamed
  obtain ⟨renamedTitle, renamed⟩ := renamedPair
  obtain rfl : renamed = { db with productThreads } := hrenamed
  dsimp only at h
  obtain ⟨hfree, h⟩ := ite_error_eq_ok.mp h
  obtain ⟨⟨status, turnStore⟩, hadmit, h⟩ := bind_eq_ok.mp h
  obtain ⟨link, -, h⟩ := bind_eq_ok.mp h
  dsimp only at h
  obtain ⟨hlink, h⟩ := ite_error_eq_ok.mp h
  obtain ⟨⟨events, written⟩, -, h⟩ := bind_eq_ok.mp h
  obtain ⟨completed, hupdate, ⟨⟩⟩ := bind_eq_ok.mp h
  rw [not_or, not_not, not_not] at hlink
  refine ⟨status, turnStore, link, _,
    setLog { db with productThreads, turnStore := setExecutionLink turnStore input.turnId link }
      input.threadId _, ?_, hadmit, hlink.2, rfl, rfl, ?_, hupdate⟩
  · exact Option.not_isSome_iff_eq_none.mp hfree
  · exact ⟨_, rfl, rfl⟩

theorem ofTurnStore_eq_ok {x : Except TurnError α} (h : ofTurnStore x = .ok a) : x = .ok a := by
  cases x with
  | error _ => cases h
  | ok b =>
    cases h
    rfl

theorem find_admitTurn {store turnStore : TurnDatabase} {status : AdmissionStatus}
    (h : admitTurn store input queueCapacity admittedAt = .ok (status, turnStore)) :
    (turnStore.turns.find input.turnId).isSome = true := by
  rw [admitTurn] at h
  obtain ⟨⟨row, inserted⟩, hinsert, h⟩ := bind_eq_ok.mp h
  obtain ⟨hrow, -, hrows, -⟩ := TurnDatabase.insertTurn_eq_ok (ofTurnStore_eq_ok hinsert)
  have hid : row.id = input.turnId := by
    rcases TurnDatabase.admitted_eq store (promptTurn input (admissionStatus store input.threadId) admittedAt) with
      hsame | ⟨-, -, -, hsame⟩ <;> rw [hrow, hsame] <;> rfl
  have hfind := Table.find_of_rows_append hrows input.turnId
  rw [if_pos hid.symm] at hfind
  dsimp only at h
  split at h
  · cases h
    rw [hfind]
    rfl
  · obtain ⟨queued, hqueued, ⟨⟩⟩ := bind_eq_ok.mp h
    rw [takeQueueEntry] at hqueued
    obtain ⟨-, hqueued⟩ := ite_else_error_eq_ok.mp hqueued
    obtain ⟨_, hqueued⟩ := map_snd_eq_ok hqueued
    rw [(TurnDatabase.updateQueueState_eq_ok (ofTurnStore_eq_ok hqueued)).2.1, hfind]
    rfl

theorem find_setExecutionLink (store : TurnDatabase) (turnId : String) (link : ExecutionLink) :
    ((setExecutionLink store turnId link).turns.find turnId).isSome = (store.turns.find turnId).isSome := by
  rw [setExecutionLink, Table.find_update, Option.isSome_map]

theorem applicableCommand_eq_ok (h : db.applicableCommand input now = .ok current) :
    db.commands.find (input.threadId, input.commandId) = some current ∧ current.ownerId = input.ownerId ∧
      (current.state = .completed ∨ current.command.isSubmitPrompt = true) := by
  rw [applicableCommand] at h
  split at h
  · cases h
  · next row hrow =>
      obtain ⟨hfind, howner⟩ := findCommand_eq_some hrow
      obtain ⟨-, h⟩ := ite_error_eq_ok.mp h
      obtain ⟨-, h⟩ := ite_error_eq_ok.mp h
      split at h
      · next hstate =>
          cases h
          exact ⟨hfind, howner, .inl hstate⟩
      · obtain ⟨-, h⟩ := ite_error_eq_ok.mp h
        obtain ⟨hprompt, h⟩ := ite_error_eq_ok.mp h
        cases h
        exact ⟨hfind, howner, .inr (Bool.not_eq_false _ ▸ hprompt)⟩

theorem cancellation_eq_none (h : db.cancellation ownerId threadId commandId = none) :
    ∀ cancel ∈ db.commands.rows, cancel.threadId = threadId → cancel.ownerId = ownerId →
      cancel.command.cancels commandId = true → ¬ CancellationStands cancel := by
  intro cancel hcancel hthread howner htarget hstands
  have hmem : cancel ∈ StableSort.toSorted (fun left right => compare left.threadVersion right.threadVersion)
      (db.commands.select fun row => row.ownerId = ownerId && row.threadId = threadId &&
        row.command.cancels commandId && decide (CancellationStands row)) := by
    rw [StableSort.mem_toSorted, Table.mem_select]
    exact ⟨hcancel, by simp [hthread, howner, htarget, hstands]⟩
  rw [List.head?_eq_none_iff.mp h] at hmem
  cases hmem

theorem state_eq_admitted {state : CommandState} (h : state ≠ .completed) : state = .admitted := by
  cases state with
  | admitted => rfl
  | completed => exact absurd rfl h

theorem state_eq_completed {state : CommandState} (h : state ≠ .admitted) : state = .completed := by
  cases state with
  | admitted => exact absurd rfl h
  | completed => rfl

theorem applyPrompt_commandStep
    (h : db.applyPrompt contract projection input stage now = .ok (application, db')) (key : String × String) :
    CommandStep db db' key (((Hosted.insertedTurn db db' input).filter fun turn =>
      (turn.threadId, turn.commandId) = key).map (·.turnId)) ∧ db'.ownerOf = db.ownerOf := by
  rw [applyPrompt] at h
  obtain ⟨⟨queueCapacity, admittedAt⟩, -, h⟩ := bind_eq_ok.mp h
  dsimp only at h
  split at h
  · cases h
  · next log state _ =>
      obtain ⟨current, hcurrent, h⟩ := bind_eq_ok.mp h
      obtain ⟨hfind, howner, hprompt⟩ := applicableCommand_eq_ok hcurrent
      split at h
      · obtain ⟨_, -, ⟨⟩⟩ := bind_eq_ok.mp h
        rw [insertedTurn_of_same rfl]
        exact ⟨.same rfl, rfl⟩
      · next hstate =>
          have hadmitted := state_eq_admitted hstate
          split at h
          · next cancel _ =>
              obtain ⟨cancelled, hupdate, ⟨⟩⟩ := bind_eq_ok.mp h
              have hfate := fateOf_updateCommand hupdate key
              have hdb := updateCommand_eq_ok hupdate
              rw [insertedTurn_of_same (by rw [hdb])]
              refine ⟨?_, ownerOf_congr (by rw [hdb])⟩
              by_cases hkey : key = (input.threadId, input.commandId)
              · rw [if_pos hkey, hkey, hfind] at hfate
                exact .cancelled (fate current) cancel.commandId
                  (by rw [hkey]; exact fateOf_eq_some.mpr ⟨current, hfind, rfl⟩) hadmitted (hkey ▸ hfate)
              · rw [if_neg hkey] at hfate
                exact .same hfate
          · next hclear =>
              obtain ⟨status, turnStore, link, cursor, staged, hfree, hadmit, -, hstore, hcommands, ⟨log', hthreads, -⟩,
                hupdate⟩ := stagePrompt_eq_ok h
              have hdb := updateCommand_eq_ok hupdate
              have hfate := fateOf_updateCommand hupdate key
              have hturn : (db'.turnStore.turns.find input.turnId).isSome = true := by
                rw [hdb]
                dsimp only
                rw [hstore, find_setExecutionLink, find_admitTurn hadmit]
              have hinserted : Hosted.insertedTurn db db' input = [⟨input.threadId, input.commandId, input.turnId⟩] := by
                rw [Hosted.insertedTurn, hfree, hturn]
                rfl
              have howners : staged.ownerOf = db.ownerOf := (ownerOf_congr hthreads).trans (ownerOf_setLog _ _ _)
              refine ⟨?_, (ownerOf_congr (by rw [hdb])).trans howners⟩
              rw [hinserted]
              by_cases hkey : key = (input.threadId, input.commandId)
              · subst hkey
                rw [List.filter_singleton, decide_eq_true rfl, cond_true, List.map_singleton]
                refine .applied (fate current) input.turnId status (fateOf_eq_some.mpr ⟨current, hfind, rfl⟩) hadmitted
                  (hprompt.resolve_left hstate) ?_ ?_
                · have hstands := cancellation_eq_none hclear
                  rw [← howner] at hstands
                  exact hstands
                · rw [if_pos rfl, hcommands, hfind] at hfate
                  exact hfate
              · rw [List.filter_singleton, decide_eq_false (Ne.symm hkey), cond_false, List.map_nil]
                rw [if_neg hkey, fateOf_congr hcommands] at hfate
                exact .same hfate

variable {input : CancelPromptInput}

theorem applicableCancellation_eq_ok (h : db.applicableCancellation input now = .ok cancel) :
    db.commands.find (input.threadId, input.cancelCommandId) = some cancel ∧
      cancel.command.cancels input.targetCommandId = true ∧ CancellationStands cancel := by
  rw [applicableCancellation] at h
  split at h
  · cases h
  · next row hrow =>
      obtain ⟨hfind, htarget⟩ := Option.filter_eq_some_iff.mp hrow
      obtain ⟨-, h⟩ := ite_error_eq_ok.mp h
      obtain ⟨hresult, h⟩ := ite_error_eq_ok.mp h
      obtain ⟨-, h⟩ := ite_error_eq_ok.mp h
      cases h
      refine ⟨hfind, htarget, ?_⟩
      by_cases hstate : cancel.state = .completed
      · exact .inr ⟨hstate, not_not.mp fun hne => hresult ⟨hstate, hne⟩⟩
      · exact .inl (state_eq_admitted hstate)

theorem not_isSubmitPrompt_of_cancels {command : CommandBody}
    (h : command.cancels commandId = true) : command.isSubmitPrompt = false := by
  rw [CommandBody.cancels, decide_eq_true_eq] at h
  rw [h]
  rfl

theorem applyCancellation_fateOf (hcancel : db.commands.find (input.threadId, input.cancelCommandId) = some cancel)
    (h : db.applyCancellation input state cancel = .ok db') (key : String × String) :
    (db'.fateOf key = db.fateOf key ∨ key = (input.threadId, input.cancelCommandId) ∧ cancel.state = .admitted ∧
      db'.fateOf key = some { fate cancel with state := .completed, result := some .applied }) ∧
        db'.ownerOf = db.ownerOf := by
  rw [applyCancellation] at h
  split at h
  · next hadmitted =>
      have hfate := fateOf_updateCommand h key
      refine ⟨?_, ownerOf_congr (by rw [updateCommand_eq_ok h])⟩
      by_cases hkey : key = (input.threadId, input.cancelCommandId)
      · rw [if_pos hkey, hkey, hcancel] at hfate
        exact .inr ⟨hkey, hadmitted.2, hkey ▸ hfate⟩
      · rw [if_neg hkey] at hfate
        exact .inl hfate
  · cases h
    exact ⟨.inl rfl, rfl⟩

theorem cancelTarget_eq_ok (h : db.cancelTarget input state = .ok (answer, db')) :
    db'.ownerOf = db.ownerOf ∧ (db.commands.find (input.threadId, input.targetCommandId) = none ∧ db' = db ∨
      ∃ target, db.commands.find (input.threadId, input.targetCommandId) = some target ∧
        target.command.isSubmitPrompt = true ∧
          (target.state = .admitted ∧ (∀ key, db'.fateOf key = if key = (input.threadId, input.targetCommandId) then
              some
                { fate target with
                  state := .completed
                  result := some .applied
                  cancelledByCommandId := some input.cancelCommandId }
              else db.fateOf key) ∨
            target.state = .completed ∧ db' = db ∧
              ((∃ targetCommandId, answer = .pending targetCommandId) →
                target.turnId = none ∨ target.admissionStatus = none))) := by
  rw [cancelTarget] at h
  split at h
  · next hnone =>
      cases h
      exact ⟨rfl, .inl ⟨hnone, rfl⟩⟩
  · next target htarget =>
      obtain ⟨hprompt, h⟩ := ite_error_eq_ok.mp h
      obtain ⟨cancelled, hcancelled, h⟩ := bind_eq_ok.mp h
      have hdb : cancelled = db' := by
        split at h <;> cases h <;> rfl
      subst hdb
      rw [cancelSubmission] at hcancelled
      split at hcancelled
      · next hstate =>
          refine ⟨ownerOf_congr (by rw [updateCommand_eq_ok hcancelled]), .inr ⟨target, htarget,
            Bool.not_eq_false _ ▸ hprompt, .inl ⟨hstate, fun key => ?_⟩⟩⟩
          rw [fateOf_updateCommand hcancelled]
          split
          · next hkey =>
              rw [hkey, htarget]
              rfl
          · rfl
      · next hstate =>
          cases hcancelled
          refine ⟨rfl, .inr ⟨target, htarget, Bool.not_eq_false _ ▸ hprompt, .inr ⟨?_, rfl, ?_⟩⟩⟩
          · exact state_eq_completed hstate
          · rintro ⟨targetCommandId, rfl⟩
            cases hturn : target.turnId with
            | none => exact .inl rfl
            | some turnId =>
              cases hstatus : target.admissionStatus with
              | none => exact .inr rfl
              | some status =>
                rw [hturn, state_eq_completed hstate, hstatus] at h
                cases h

theorem cancelPrompt_commandStep (h : db.cancelPrompt access input now = .ok (answer, db'))
    (key : String × String) : CommandStep db db' key [] ∧ db'.ownerOf = db.ownerOf := by
  rw [cancelPrompt] at h
  obtain ⟨_, -, h⟩ := bind_eq_ok.mp h
  split at h
  · cases h
  · next log state _ =>
      obtain ⟨cancel, hcancel, h⟩ := bind_eq_ok.mp h
      obtain ⟨hfind, htarget, -⟩ := applicableCancellation_eq_ok hcancel
      obtain ⟨applied, happly, h⟩ := bind_eq_ok.mp h
      obtain ⟨hfate, howner⟩ := applyCancellation_fateOf hfind happly key
      obtain ⟨howner', hcases⟩ := cancelTarget_eq_ok h
      refine ⟨?_, howner'.trans howner⟩
      have happlied : CommandStep db applied key [] := by
        rcases hfate with hfate | ⟨rfl, hstate, hfate⟩
        · exact .same hfate
        · exact .closed (fate cancel) .applied (fateOf_eq_some.mpr ⟨cancel, hfind, rfl⟩) hstate hfate
      rcases hcases with ⟨-, rfl⟩ | ⟨target, hfindTarget, hprompt, ⟨hstate, hfate'⟩ | ⟨-, rfl, -⟩⟩
      · exact happlied
      · by_cases hkey : key = (input.threadId, input.targetCommandId)
        · -- the target is not the cancel command itself
          have hsame : applied.fateOf key = db.fateOf key := by
            rcases hfate with hfate | ⟨hcancelKey, -, hfate⟩
            · exact hfate
            · rw [hkey, fateOf, hfindTarget] at hfate
              have hcommand : target.command = cancel.command := congrArg (fun fate => fate.command) (Option.some_inj.mp hfate)
              rw [hcommand, not_isSubmitPrompt_of_cancels htarget] at hprompt
              cases hprompt
          have hbefore : db.fateOf key = some (fate target) := by
            rw [← hsame, hkey]
            exact fateOf_eq_some.mpr ⟨target, hfindTarget, rfl⟩
          have hafter := hfate' key
          rw [if_pos hkey] at hafter
          exact .cancelled (fate target) input.cancelCommandId hbefore hstate hafter
        · have hafter := hfate' key
          rw [if_neg hkey] at hafter
          exact happlied.congr hafter
      · exact happlied

theorem updateTurnCommand_fateOf (h : db.updateTurnCommand turnId p f hf = .ok db')
    (hfate : ∀ row, fate (f row) = fate row) : db'.fateOf = db.fateOf ∧ db'.ownerOf = db.ownerOf := by
  obtain rfl := updateTurnCommand_eq_ok h
  exact ⟨fateOf_of_update hf rfl hfate, rfl⟩

theorem claimNext_fateOf {readyExecutor : String → Bool} {request : ClaimRequest}
    {claim : Option TurnClaim} (h : db.claimNext collation readyExecutor request now = .ok (claim, db')) :
    db'.fateOf = db.fateOf ∧ db'.ownerOf = db.ownerOf := by
  rw [claimNext] at h
  split at h
  · cases h
    exact ⟨rfl, rfl⟩
  · split at h
    · obtain ⟨claimed, hclaimed, ⟨⟩⟩ := bind_eq_ok.mp h
      have hupdate := ofWrite_eq_ok hclaimed
      exact ⟨fateOf_of_updateCommand hupdate fun _ => rfl, ownerOf_of_updateCommand hupdate⟩
    · cases h
      exact ⟨rfl, rfl⟩

theorem requestActivation_fateOf {requested : Bool} (h : db.requestActivation claim updatedAt now = .ok (requested, db')) :
    db'.fateOf = db.fateOf ∧ db'.ownerOf = db.ownerOf := by
  rw [requestActivation] at h
  obtain ⟨-, h⟩ := ite_error_eq_ok.mp h
  split at h
  · cases h
  · split at h
    · cases h
      exact ⟨rfl, rfl⟩
    · obtain ⟨turnStore, -, h⟩ := bind_eq_ok.mp h
      obtain ⟨updated, hupdate, ⟨⟩⟩ := bind_eq_ok.mp h
      obtain ⟨hfate, howner⟩ := updateTurnCommand_fateOf hupdate fun _ => rfl
      exact ⟨hfate, howner⟩

theorem completeActivation_fateOf {status : ActivationStatus} (h : db.completeActivation claim status updatedAt now = .ok db') :
    db'.fateOf = db.fateOf ∧ db'.ownerOf = db.ownerOf := by
  rw [completeActivation] at h
  obtain ⟨-, h⟩ := ite_error_eq_ok.mp h
  obtain ⟨turnStore, -, h⟩ := bind_eq_ok.mp h
  obtain ⟨hfate, howner⟩ := updateTurnCommand_fateOf h fun _ => rfl
  exact ⟨hfate, howner⟩

theorem admitCommand_ownerOf {input : AdmitInput}
    (h : db.admitCommand access input expectedVersion = .ok (admission, db')) : db'.ownerOf = db.ownerOf := by
  rw [admitCommand] at h
  obtain ⟨_, -, h⟩ := bind_eq_ok.mp h
  obtain ⟨existing, -, h⟩ := bind_eq_ok.mp h
  split at h
  · cases h
    rfl
  · split at h
    · cases h
    · split at h
      · cases h
      · split at h
        · cases h
        · obtain ⟨inserted, hinsert, ⟨⟩⟩ := bind_eq_ok.mp h
          obtain ⟨-, -, -, hthreads⟩ := insertCommand_eq_ok hinsert
          exact (ownerOf_setLog _ _ _).trans (ownerOf_congr hthreads)

theorem completeCommand_ownerOf {input : CompleteInput Snapshot}
    (h : db.completeCommand contract projection input now = .ok (completion, db')) : db'.ownerOf = db.ownerOf := by
  rw [completeCommand] at h
  split at h
  · cases h
  · split at h
    · cases h
    · split at h
      · cases h
        rfl
      · obtain ⟨-, h⟩ := ite_error_eq_ok.mp h
        obtain ⟨⟨cursor, log⟩, -, h⟩ := bind_eq_ok.mp h
        obtain ⟨completed, hupdate, ⟨⟩⟩ := bind_eq_ok.mp h
        exact (ownerOf_setLog _ _ _).trans (ownerOf_of_updateCommand hupdate)

end HostedDatabase

namespace Hosted

open Fold HostedDatabase

variable {Json Snapshot : Type} {contract : Contract Json InteractiveEvent Snapshot} {collation : Collation}
  {s : Hosted Json}

def turnsOf (s : Hosted Json) (key : String × String) : List String :=
  (s.created.filter fun turn => (turn.threadId, turn.commandId) = key).map (·.turnId)

inductive Outcome (fate : Fate) : List String → Prop
  | pending (hstate : fate.state = .admitted) (hstatus : fate.admissionStatus = none)
      (hcancelled : fate.cancelledByCommandId = none) : Outcome fate []
  | admitted (turnId : String) (hstate : fate.state = .completed) (hprompt : fate.command.isSubmitPrompt = true)
      (hturn : fate.turnId = some turnId) (hstatus : fate.admissionStatus ≠ none)
      (hcancelled : fate.cancelledByCommandId = none) : Outcome fate [turnId]
  | cancelled (cancelCommandId : String) (hstate : fate.state = .completed) (hstatus : fate.admissionStatus = none)
      (hcancelled : fate.cancelledByCommandId = some cancelCommandId) : Outcome fate []
  | closed (hstate : fate.state = .completed) (hstatus : fate.admissionStatus = none)
      (hcancelled : fate.cancelledByCommandId = none) : Outcome fate []

structure Accounted (s : Hosted Json) : Prop where
  outcome : ∀ key fate, s.db.fateOf key = some fate → Outcome fate (s.turnsOf key)
  free : ∀ key, s.db.fateOf key = none → s.turnsOf key = []
  owner : ∀ key fate, s.db.fateOf key = some fate → s.db.ownerOf key.1 = some fate.ownerId

structure HostedStep (s s' : Hosted Json) (key : String × String) (turnIds : List String) : Prop where
  command : CommandStep s.db s'.db key turnIds
  turns : s'.turnsOf key = s.turnsOf key ++ turnIds
  owner : s'.db.ownerOf = s.db.ownerOf

variable {ε : Type} {result : Except ε (HostedDatabase Json)} {key : String × String}

theorem commit_hostedStep (h : ∀ db', result = .ok db' → CommandStep s.db db' key [] ∧ db'.ownerOf = s.db.ownerOf) :
    HostedStep s (s.commit result) key [] := by
  cases result with
  | error error => exact ⟨.same rfl, (List.append_nil _).symm, rfl⟩
  | ok db' =>
    obtain ⟨hcommand, howner⟩ := h db' rfl
    exact ⟨hcommand, (List.append_nil _).symm, howner⟩

theorem hostedStep_of_fateOf (h : ∀ db', result = .ok db' → db'.fateOf = s.db.fateOf ∧ db'.ownerOf = s.db.ownerOf) :
    HostedStep s (s.commit result) key [] := by
  apply commit_hostedStep
  intro db' hdb
  obtain ⟨hfate, howner⟩ := h db' hdb
  exact ⟨.same (by rw [hfate]), howner⟩

theorem HostedStep.refl (s : Hosted Json) (key : String × String) : HostedStep s s key [] :=
  ⟨.same rfl, (List.append_nil _).symm, rfl⟩

theorem step_hostedStep (contract : Contract Json InteractiveEvent Snapshot) (collation : Collation) (s : Hosted Json) (operation : HostedOperation Snapshot) (key : String × String) :
    ∃ turnIds, HostedStep s (step contract collation s operation) key turnIds := by
  cases operation with
  | turnStore operation => exact ⟨[], .same rfl, (List.append_nil _).symm, rfl⟩
  | admitCommand access input expectedVersion =>
    refine ⟨[], commit_hostedStep fun db' h => ?_⟩
    obtain ⟨_, h⟩ := map_snd_eq_ok h
    exact ⟨admitCommand_commandStep h key, admitCommand_ownerOf h⟩
  | claimNextCommand claimToken claimMillis now =>
    refine ⟨[], hostedStep_of_fateOf fun db' h => ?_⟩
    obtain ⟨_, h⟩ := map_snd_eq_ok h
    exact claimNextCommand_fateOf h
  | renewCommandClaim input claimMillis now =>
    refine ⟨[], hostedStep_of_fateOf fun db' h => ?_⟩
    obtain ⟨_, h⟩ := map_snd_eq_ok h
    exact renewCommandClaim_fateOf h
  | releaseCommandClaim input => exact ⟨[], hostedStep_of_fateOf fun db' h => releaseCommandClaim_fateOf h⟩
  | completeCommand projection input now =>
    refine ⟨[], commit_hostedStep fun db' h => ?_⟩
    obtain ⟨_, h⟩ := map_snd_eq_ok h
    exact ⟨completeCommand_commandStep h key, completeCommand_ownerOf h⟩
  | applyPrompt projection input stage now =>
    rw [step]
    split
    · next application db' h =>
        obtain ⟨hcommand, howner⟩ := applyPrompt_commandStep h key
        exact ⟨_, hcommand, by rw [turnsOf, turnsOf, List.filter_append, List.map_append], howner⟩
    · exact ⟨[], .refl s key⟩
  | cancelPrompt access input now =>
    refine ⟨[], commit_hostedStep fun db' h => ?_⟩
    obtain ⟨_, h⟩ := map_snd_eq_ok h
    exact cancelPrompt_commandStep h key
  | claimNext readyExecutor request now =>
    rw [step]
    split
    · next claim db' h =>
        obtain ⟨hfate, howner⟩ := claimNext_fateOf h
        exact ⟨[], .same (by rw [hfate]), (List.append_nil _).symm, howner⟩
    · exact ⟨[], .refl s key⟩
  | renew claim leaseMillis now =>
    rw [step]
    split
    · refine ⟨[], hostedStep_of_fateOf fun db' h => ?_⟩
      obtain ⟨_, h⟩ := map_snd_eq_ok h
      obtain ⟨renewed, hrenewed, ⟨⟩⟩ := bind_eq_ok.mp h
      exact updateTurnCommand_fateOf hrenewed fun _ => rfl
    · exact ⟨[], .refl s key⟩
  | release claim =>
    rw [step]
    split
    · exact ⟨[], hostedStep_of_fateOf fun db' h => updateTurnCommand_fateOf h fun _ => rfl⟩
    · exact ⟨[], .refl s key⟩
  | requestActivation claim updatedAt now =>
    rw [step]
    split
    · refine ⟨[], hostedStep_of_fateOf fun db' h => ?_⟩
      obtain ⟨_, h⟩ := map_snd_eq_ok h
      exact requestActivation_fateOf h
    · exact ⟨[], .refl s key⟩
  | completeActivation claim status updatedAt now =>
    rw [step]
    split
    · exact ⟨[], hostedStep_of_fateOf fun db' h => completeActivation_fateOf h⟩
    · exact ⟨[], .refl s key⟩

theorem Outcome.step {s' : Hosted Json} {key : String × String} {turnIds : List String} (h : HostedStep s s' key turnIds)
    (hinv : Accounted s) {fate : Fate} (hfate : s'.db.fateOf key = some fate) : Outcome fate (s'.turnsOf key) := by
  rw [h.turns]
  cases h.command with
  | same hsame =>
    rw [List.append_nil]
    exact hinv.outcome key fate (hsame ▸ hfate)
  | admitted _ hfree hadmitted hstate hstatus hcancelled _ =>
    obtain rfl := Option.some_inj.mp (hadmitted.symm.trans hfate)
    rw [hinv.free key hfree]
    exact .pending hstate hstatus hcancelled
  | closed before result hbefore hstate hafter =>
    obtain rfl := Option.some_inj.mp (hafter.symm.trans hfate)
    have hold := hinv.outcome key before hbefore
    rw [List.append_nil]
    generalize s.turnsOf key = turns at hold
    cases hold with
    | pending _ hstatus hcancelled => exact .closed rfl hstatus hcancelled
    | admitted _ hcompleted | cancelled _ hcompleted | closed hcompleted =>
      rw [hstate] at hcompleted
      cases hcompleted
  | cancelled before cancelCommandId hbefore hstate hafter =>
    obtain rfl := Option.some_inj.mp (hafter.symm.trans hfate)
    have hold := hinv.outcome key before hbefore
    rw [List.append_nil]
    generalize s.turnsOf key = turns at hold
    cases hold with
    | pending _ hstatus _ => exact .cancelled cancelCommandId rfl hstatus rfl
    | admitted _ hcompleted | cancelled _ hcompleted | closed hcompleted =>
      rw [hstate] at hcompleted
      cases hcompleted
  | applied before turnId status hbefore hstate hprompt _ hafter =>
    obtain rfl := Option.some_inj.mp (hafter.symm.trans hfate)
    have hold := hinv.outcome key before hbefore
    generalize s.turnsOf key = turns at hold
    cases hold with
    | pending _ _ hcancelled => exact .admitted turnId rfl hprompt rfl (Option.some_ne_none status) hcancelled
    | admitted _ hcompleted | cancelled _ hcompleted | closed hcompleted =>
      rw [hstate] at hcompleted
      cases hcompleted

theorem Accounted.step (hinv : Accounted s) (operation : HostedOperation Snapshot) :
    Accounted (step contract collation s operation) := by
  constructor
  · intro key fate hfate
    obtain ⟨turnIds, h⟩ := step_hostedStep contract collation s operation key
    exact Outcome.step h hinv hfate
  · intro key hfree
    obtain ⟨turnIds, h⟩ := step_hostedStep contract collation s operation key
    rw [h.turns]
    cases h.command with
    | same hsame =>
      rw [List.append_nil]
      exact hinv.free key (hsame ▸ hfree)
    | admitted _ _ hfate | closed _ _ _ _ hfate | cancelled _ _ _ _ hfate | applied _ _ _ _ _ _ _ hfate =>
      rw [hfate] at hfree
      cases hfree
  · intro key fate hfate
    obtain ⟨turnIds, h⟩ := step_hostedStep contract collation s operation key
    rw [h.owner]
    cases h.command with
    | same hsame => exact hinv.owner key fate (hsame ▸ hfate)
    | admitted _ _ hadmitted _ _ _ howner =>
      obtain rfl := Option.some_inj.mp (hadmitted.symm.trans hfate)
      exact howner
    | closed before _ hbefore _ hafter | cancelled before _ hbefore _ hafter
    | applied before _ _ hbefore _ _ _ hafter =>
      obtain rfl := Option.some_inj.mp (hafter.symm.trans hfate)
      exact hinv.owner key before hbefore

theorem start_accounted (hostedThreads : Table (@HostedThread.id Json))
    (productThreads : Table ProductThread.id) (ownerCounters : Table OwnerCounter.ownerId) :
    Accounted (start hostedThreads productThreads ownerCounters) := by
  refine ⟨?_, fun _ _ => rfl, ?_⟩
  · rintro key fate ⟨⟩
  · rintro key fate ⟨⟩

theorem run_accounted (hinv : Accounted s) (operations : List (HostedOperation Snapshot)) :
    Accounted (run contract collation s operations) :=
  List.foldlRecOn operations (step contract collation) hinv fun _ hinv operation _ => hinv.step operation

end Hosted

end Rika
