import Rika.LogRetention
import Rika.PromptOutcome

namespace Rika

structure CommandIdentity where
  ownerId : String
  threadId : String
  commandId : String
  idempotencyKey : String
  expectedVersion : Nat
  threadVersion : Nat
  commitCursor : Nat
  actor : String
  command : CommandBody
  admittedAt : Timestamp

def CommandRow.identity (row : CommandRow) : CommandIdentity :=
  ⟨row.ownerId, row.threadId, row.commandId, row.idempotencyKey, row.expectedVersion, row.threadVersion, row.commitCursor,
    row.actor, row.command, row.admittedAt⟩

/-- A rewrite of a command that neither reopens nor claims it. -/
structure Keeps (row row' : CommandRow) : Prop where
  identity : row'.identity = row.identity
  admitted : row'.state = .admitted → row.state = .admitted
  claim : row'.state = .admitted → row'.claim.isSome → row.claim.isSome

theorem Keeps.refl (row : CommandRow) : Keeps row row := ⟨rfl, id, fun _ => id⟩

theorem completed_ne_admitted : CommandState.completed ≠ .admitted := by decide

variable {row row' : CommandRow}

theorem Keeps.settled (hidentity : row'.identity = row.identity) (hstate : row'.state ≠ .admitted) : Keeps row row' :=
  ⟨hidentity, fun h => absurd h hstate, fun h => absurd h hstate⟩

theorem Keeps.trans {row'' : CommandRow} (h : Keeps row row') (h' : Keeps row' row'') : Keeps row row'' where
  identity := h'.identity.trans h.identity
  admitted hstate := h.admitted (h'.admitted hstate)
  claim hstate hclaim := h.claim (h'.admitted hstate) (h'.claim hstate hclaim)

namespace HostedDatabase

open Fold

variable {Json Snapshot : Type} {db db' db'' : HostedDatabase Json} {contract : Contract Json InteractiveEvent Snapshot}
  {collation : Collation}

def versionOf (db : HostedDatabase Json) (threadId : String) : Option Nat :=
  (db.hostedThreads.find threadId).bind fun thread => thread.log.state.map (·.version)

/-- No older command of the thread is left, apart from the prompt that this one
cancels. -/
def Foremost (db : HostedDatabase Json) (row : CommandRow) : Prop :=
  ∀ predecessor ∈ db.commands.rows, predecessor.threadId = row.threadId →
    predecessor.threadVersion < row.threadVersion → predecessor.state = .admitted →
      row.command.cancels predecessor.commandId = true ∧ predecessor.command.isSubmitPrompt = true

structure Rewritten (db db' : HostedDatabase Json) : Prop where
  rows : ∃ f : CommandRow → CommandRow, db'.commands.rows = db.commands.rows.map f ∧ ∀ row ∈ db.commands.rows, Keeps row (f row)
  versions : db'.versionOf = db.versionOf

/-- What a transaction does to the commands and the versions of the threads. -/
inductive CommandsChange (db db' : HostedDatabase Json) : Prop
  | rewritten (h : Rewritten db db')
  | claimed (selected : CommandRow) (claim : CommandClaim) (hmem : selected ∈ db.commands.rows)
      (hforemost : Foremost db selected)
      (hrows : db'.commands.rows = db.commands.rows.map fun row =>
        if row.key = selected.key then { row with claim := some claim } else row)
      (hversions : db'.versionOf = db.versionOf)
  | admitted (row : CommandRow) (version : Nat) (hversion : db.versionOf row.threadId = some version)
      (hnext : row.threadVersion = version + 1) (hstate : row.state = .admitted) (hclaim : row.claim = none)
      (hfresh : ∀ other ∈ db.commands.rows, other.threadId = row.threadId →
        other.commandId ≠ row.commandId ∧ other.idempotencyKey ≠ row.idempotencyKey)
      (hrows : db'.commands.rows = db.commands.rows ++ [row])
      (hversions : ∀ threadId, db'.versionOf threadId =
        if threadId = row.threadId then some (version + 1) else db.versionOf threadId)

theorem versionOf_congr (h : db'.hostedThreads = db.hostedThreads) : db'.versionOf = db.versionOf := by
  funext threadId
  rw [versionOf, h, versionOf]

theorem Rewritten.refl : Rewritten db db := ⟨⟨id, (List.map_id _).symm, fun row _ => .refl row⟩, rfl⟩

theorem Rewritten.trans (h : Rewritten db db') (h' : Rewritten db' db'') : Rewritten db db'' := by
  obtain ⟨f, hrows, hf⟩ := h.rows
  obtain ⟨g, hrows', hg⟩ := h'.rows
  refine ⟨⟨g ∘ f, ?_, ?_⟩, h'.versions.trans h.versions⟩
  · rw [hrows', hrows, List.map_map]
  · intro row hrow
    have hmem : f row ∈ db'.commands.rows := hrows ▸ List.mem_map_of_mem hrow
    exact (hf row hrow).trans (hg (f row) hmem)

variable {p : CommandRow → Bool} {f : CommandRow → CommandRow} {threadId commandId : String} {hf : ∀ row, (f row).key = row.key}
    {log log' : ThreadLog Json} {state : ProtocolState} {expectedVersion : Option Nat} {now claimMillis updatedAt : Finite}
    {row : CommandRow} {access : Except HostedPersistenceError Unit}
    {projection : ProcessObservationProjection InteractiveEvent Snapshot} {input : CancelPromptInput}
    {answer : PromptCancellation} {readyExecutor : String → Bool} {claim : TurnClaim}

theorem Rewritten.of_update (hf : ∀ row, (f row).key = row.key) (h : db'.commands = db.commands.update p f hf)
    (hkeeps : ∀ row ∈ db.commands.rows, p row = true → Keeps row (f row)) (hversions : db'.versionOf = db.versionOf) :
    Rewritten db db' := by
  refine ⟨⟨fun row => if p row then f row else row, ?_, ?_⟩, hversions⟩
  · rw [h, Table.rows_update]
  · intro row hrow
    dsimp only
    split
    · next hp => exact hkeeps row hrow hp
    · exact .refl row

theorem Rewritten.of_updateCommand (h : db.updateCommand threadId commandId f hf = .ok db')
    (hkeeps : ∀ row, db.commands.find (threadId, commandId) = some row → Keeps row (f row)) : Rewritten db db' := by
  obtain rfl := updateCommand_eq_ok h
  refine .of_update hf rfl (fun row hrow hkey => ?_) rfl
  have hfind := Table.find_key hrow
  rw [of_decide_eq_true hkey] at hfind
  exact hkeeps row hfind

theorem rows_updateCommand (h : db.updateCommand threadId commandId f hf = .ok db') :
    db'.commands.rows = db.commands.rows.map fun row => if row.key = (threadId, commandId) then f row else row := by
  obtain rfl := updateCommand_eq_ok h
  dsimp only
  rw [Table.rows_update]
  simp only [decide_eq_true_eq]

theorem Rewritten.congr (h : Rewritten db db') (hcommands : db''.commands = db'.commands)
    (hversions : db''.versionOf = db'.versionOf) : Rewritten db db'' :=
  ⟨by rw [hcommands]; exact h.rows, hversions.trans h.versions⟩

theorem writeCommands_valid {commands : Table CommandRow.key} (h : db.writeCommands commands = .ok db') :
    ∀ row ∈ db'.commands.rows, row.Valid := by
  have hdb := writeCommands_eq_ok h
  rw [writeCommands] at h
  obtain ⟨hvalid, h⟩ := ite_else_error_eq_ok.mp h
  rw [hdb]
  exact hvalid.1

theorem versionOf_setLog (db : HostedDatabase Json) (threadId : String) (log : ThreadLog Json) (threadId' : String) :
    (db.setLog threadId log).versionOf threadId' =
      if threadId' = threadId then (db.hostedThreads.find threadId).bind fun _ => log.state.map (·.version)
      else db.versionOf threadId' := by
  rw [versionOf, setLog, Table.find_update]
  cases hfind : db.hostedThreads.find threadId' with
  | none =>
    split
    · next hsame =>
        rw [← hsame, hfind]
        rfl
    · rw [versionOf, hfind]
      rfl
  | some thread =>
    have hid : thread.id = threadId' := Table.key_of_find hfind
    by_cases hsame : threadId' = threadId
    · rw [if_pos hsame, Option.map_some, if_pos (decide_eq_true (hid.trans hsame)), ← hsame, hfind]
      rfl
    · rw [if_neg hsame, Option.map_some, if_neg (by simpa [hid] using hsame), versionOf, hfind]

theorem versionOf_setLog_of_state {ownerId : String} {state' : ProtocolState}
    (hstate : db.state ownerId threadId = some (log, state)) (hlog : log'.state = some state')
    (hversion : state'.version = state.version) : (db.setLog threadId log').versionOf = db.versionOf := by
  obtain ⟨thread, hthread, -, rfl, hbefore⟩ := state_eq_some hstate
  funext threadId'
  rw [versionOf_setLog]
  split
  · next hsame =>
      rw [hsame, hthread, versionOf, hthread, Option.bind_some, Option.bind_some, hlog, hbefore]
      exact congrArg some hversion
  · rfl

theorem readExisting_eq_none {input : AdmitInput} (h : db.readExisting input expectedVersion = .ok none) :
    ∀ other ∈ db.commands.rows, other.threadId = input.threadId →
      other.commandId ≠ input.commandId ∧ other.idempotencyKey ≠ input.idempotencyKey := by
  rw [readExisting] at h
  split at h
  · next hselect =>
      intro other hother hthread
      have hnot := List.filter_eq_nil_iff.mp hselect other hother
      simpa [hthread] using hnot
  · split at h <;> cases h
  · cases h

theorem runnableCommand_foremost (h : db.runnableCommand now row = true) : Foremost db row := by
  simp only [runnableCommand, Bool.and_eq_true, Bool.not_eq_true', List.any_eq_false, decide_eq_true_eq] at h
  intro predecessor hmem hthread hversion hstate
  have hnot := h.2 predecessor hmem
  simpa [hthread, hversion, hstate] using hnot

theorem candidate_foremost (h : row ∈ db.candidates collation now) : row ∈ db.commands.rows ∧ Foremost db row := by
  rw [candidates, StableSort.mem_toSorted, List.mem_filterMap] at h
  obtain ⟨thread, -, hhead⟩ := h
  have hmem := (StableSort.mem_toSorted _).mp (List.mem_of_mem_head? hhead)
  obtain ⟨hrow, hrunnable⟩ := Table.mem_select.mp hmem
  simp only [Bool.and_eq_true] at hrunnable
  exact ⟨hrow, runnableCommand_foremost hrunnable.2⟩

theorem admitCommand_change {input : AdmitInput} {admission : CommandAdmission}
    (h : db.admitCommand access input expectedVersion = .ok (admission, db')) : CommandsChange db db' := by
  rw [admitCommand] at h
  obtain ⟨_, -, h⟩ := bind_eq_ok.mp h
  obtain ⟨existing, hexisting, h⟩ := bind_eq_ok.mp h
  split at h
  · cases h
    exact .rewritten .refl
  · split at h
    · cases h
    · next log state hstate =>
        obtain ⟨thread, hthread, howner, hlog, hversion⟩ := state_eq_some hstate
        obtain ⟨-, h⟩ := ite_error_eq_ok.mp h
        split at h
        · cases h
        · next counter _ =>
            obtain ⟨inserted, hinsert, ⟨⟩⟩ := bind_eq_ok.mp h
            obtain ⟨-, hrows, -, hthreads⟩ := insertCommand_eq_ok hinsert
            have hbefore : db.versionOf input.threadId = some state.version := by
              rw [versionOf, hthread, Option.bind_some, hlog, hversion]
              rfl
            refine .admitted (admittedRow input state counter) state.version hbefore rfl rfl rfl ?_ hrows ?_
            · exact readExisting_eq_none hexisting
            · intro threadId
              have hid : (admittedRow input state counter).threadId = input.threadId := rfl
              rw [versionOf_setLog, versionOf_congr hthreads, hid]
              by_cases hthreadId : threadId = input.threadId
              · rw [if_pos hthreadId, if_pos hthreadId, hthreads, hthread, Option.bind_some, ThreadLog.advanceVersion,
                  hversion]
                rfl
              · rw [if_neg hthreadId, if_neg hthreadId]
                rfl

theorem claimNextCommand_change {claimToken : String} {claimed : Option CommandRow}
    (h : db.claimNextCommand collation claimToken claimMillis now = .ok (claimed, db')) : CommandsChange db db' := by
  rw [claimNextCommand] at h
  split at h
  · cases h
    exact .rewritten .refl
  · next selected hselected =>
      obtain ⟨updated, hupdate, ⟨⟩⟩ := bind_eq_ok.mp h
      obtain ⟨hmem, hforemost⟩ := candidate_foremost (List.mem_of_mem_head? hselected)
      exact .claimed selected ⟨claimToken, now + claimMillis⟩ hmem hforemost (rows_updateCommand hupdate)
        (versionOf_congr (by rw [updateCommand_eq_ok hupdate]))

theorem renewCommandClaim_rewritten {input : CommandClaimInput} {renewed : Bool}
    (h : db.renewCommandClaim input claimMillis now = .ok (renewed, db')) : Rewritten db db' := by
  rw [renewCommandClaim] at h
  split at h
  · cases h
    exact .refl
  · next row hrow =>
      obtain ⟨updated, hupdate, ⟨⟩⟩ := bind_eq_ok.mp h
      obtain ⟨hfound, hclaimed⟩ := Option.filter_eq_some_iff.mp hrow
      refine .of_updateCommand hupdate fun other hother => ?_
      obtain rfl := Option.some_inj.mp ((findCommand_eq_some hfound).1.symm.trans hother)
      simp only [Bool.and_eq_true, CommandRow.claimedBy] at hclaimed
      refine ⟨rfl, id, fun _ _ => ?_⟩
      cases hclaim : row.claim with
      | some claim => rfl
      | none =>
        rw [hclaim] at hclaimed
        exact absurd hclaimed.2 Bool.false_ne_true

theorem releaseCommandClaim_rewritten {input : CommandClaimInput} (h : db.releaseCommandClaim input = .ok db') :
    Rewritten db db' := by
  rw [releaseCommandClaim] at h
  split at h
  · cases h
    exact .refl
  · exact .of_updateCommand h fun _ _ => ⟨rfl, id, fun _ hclaim => (Bool.false_ne_true hclaim).elim⟩

theorem completionLog_version {input : CompleteInput Snapshot} {cursor : Nat} (hstate : log.state = some state)
    (h : completionLog contract projection log state input = .ok (cursor, log')) :
    ∃ state', log'.state = some state' ∧ state'.version = state.version := by
  rw [completionLog] at h
  obtain ⟨⟨events, written⟩, hwritten, h⟩ := bind_eq_ok.mp h
  obtain ⟨-, rows, -, -, -, -, -, hkept⟩ := ThreadLog.writeEvents_eq_ok hwritten
  have hlog : ∃ state', (if input.events = [] then written
      else { written with state := some { state with eventCursor := (events.getLast?.map (·.cursor)).getD state.eventCursor } }).state =
        some state' ∧ state'.version = state.version := by
    split
    · exact ⟨state, hkept.trans hstate, rfl⟩
    · exact ⟨_, rfl, rfl⟩
  dsimp only at h
  generalize (if input.events = [] then written
    else { written with state := some { state with eventCursor := (events.getLast?.map (·.cursor)).getD state.eventCursor } }) =
      appended at h hlog
  split at h
  · cases h
    exact hlog
  · split at h
    · cases h
      exact hlog
    · cases h
      exact hlog

theorem completeCommand_rewritten {input : CompleteInput Snapshot} {completion : CommandCompletion}
    (h : db.completeCommand contract projection input now = .ok (completion, db')) : Rewritten db db' := by
  rw [completeCommand] at h
  split at h
  · cases h
  · next log state hstate =>
      split at h
      · cases h
      · split at h
        · cases h
          exact .refl
        · obtain ⟨-, h⟩ := ite_error_eq_ok.mp h
          obtain ⟨⟨cursor, log'⟩, hlog, h⟩ := bind_eq_ok.mp h
          obtain ⟨completed, hupdate, ⟨⟩⟩ := bind_eq_ok.mp h
          obtain ⟨state', hstate', hversion⟩ := completionLog_version (state_eq_some hstate).choose_spec.2.2.2 hlog
          have hrewritten : Rewritten db completed := .of_updateCommand hupdate fun _ _ => .settled rfl completed_ne_admitted
          refine hrewritten.congr rfl ?_
          obtain rfl := updateCommand_eq_ok hupdate
          exact versionOf_setLog_of_state hstate hstate' hversion

theorem applyPrompt_rewritten {input : ApplyPromptInput} {stage : Except HostedPersistenceError ExecutionLink}
    {application : PromptApplication}
    (h : db.applyPrompt contract projection input stage now = .ok (application, db')) : Rewritten db db' := by
  rw [applyPrompt] at h
  obtain ⟨⟨queueCapacity, admittedAt⟩, -, h⟩ := bind_eq_ok.mp h
  dsimp only at h
  split at h
  · cases h
  · next log state hstate =>
      obtain ⟨current, -, h⟩ := bind_eq_ok.mp h
      split at h
      · obtain ⟨_, -, ⟨⟩⟩ := bind_eq_ok.mp h
        exact .refl
      · split at h
        · obtain ⟨cancelled, hupdate, ⟨⟩⟩ := bind_eq_ok.mp h
          exact .of_updateCommand hupdate fun _ _ => .settled rfl completed_ne_admitted
        · obtain ⟨status, turnStore, link, cursor, staged, -, -, -, -, hcommands, ⟨log', hthreads, hlog⟩, hupdate⟩ :=
            stagePrompt_eq_ok h
          have hversions : staged.versionOf = db.versionOf :=
            (versionOf_congr hthreads).trans (versionOf_setLog_of_state hstate hlog rfl)
          have hstaged : Rewritten db staged := Rewritten.refl.congr hcommands hversions
          exact hstaged.trans (.of_updateCommand hupdate fun _ _ => .settled rfl completed_ne_admitted)

theorem applyCancellation_rewritten {cancel : CommandRow}
    (h : db.applyCancellation input state cancel = .ok db') : Rewritten db db' := by
  rw [applyCancellation] at h
  split at h
  · exact .of_updateCommand h fun _ _ => .settled rfl completed_ne_admitted
  · cases h
    exact .refl

theorem cancelTarget_rewritten (h : db.cancelTarget input state = .ok (answer, db')) : Rewritten db db' := by
  rw [cancelTarget] at h
  split at h
  · cases h
    exact .refl
  · next target _ =>
      obtain ⟨-, h⟩ := ite_error_eq_ok.mp h
      obtain ⟨cancelled, hcancelled, h⟩ := bind_eq_ok.mp h
      have hdb : cancelled = db' := by
        split at h <;> cases h <;> rfl
      subst hdb
      rw [cancelSubmission] at hcancelled
      split at hcancelled
      · exact .of_updateCommand hcancelled fun _ _ => .settled rfl completed_ne_admitted
      · cases hcancelled
        exact .refl

theorem cancelPrompt_rewritten (h : db.cancelPrompt access input now = .ok (answer, db')) : Rewritten db db' := by
  rw [cancelPrompt] at h
  obtain ⟨_, -, h⟩ := bind_eq_ok.mp h
  split at h
  · cases h
  · obtain ⟨cancel, -, h⟩ := bind_eq_ok.mp h
    obtain ⟨applied, happly, h⟩ := bind_eq_ok.mp h
    exact (applyCancellation_rewritten happly).trans (cancelTarget_rewritten h)

theorem state_of_valid (h : row.Valid) (hwork : row.workState.isSome) : row.state = .completed := by
  rcases h.2.2.1 with hnone | hcompleted
  · rw [hnone] at hwork
    cases hwork
  · exact hcompleted.1

theorem mem_runnableWork {work : TurnWork} (h : work ∈ db.runnableWork collation readyExecutor now) :
    work.row ∈ db.commands.rows ∧ work.row.workState.isSome := by
  rw [runnableWork, StableSort.mem_toSorted, List.mem_filterMap] at h
  obtain ⟨row, hrow, hwork⟩ := h
  obtain ⟨turn, -, hwork⟩ := Option.bind_eq_some_iff.mp hwork
  obtain ⟨thread, -, hwork⟩ := Option.bind_eq_some_iff.mp hwork
  obtain ⟨hrunnable, hwork⟩ := Option.ite_none_right_eq_some.mp hwork
  cases hwork
  simp only [runnableTurn, Bool.and_eq_true] at hrunnable
  exact ⟨hrow, hrunnable.1.1⟩

theorem claimNext_rewritten {request : ClaimRequest}
    {claim : Option TurnClaim} (h : db.claimNext collation readyExecutor request now = .ok (claim, db')) :
    Rewritten db db' := by
  rw [claimNext] at h
  split at h
  · cases h
    exact .refl
  · next work hwork =>
      split at h
      · obtain ⟨claimed, hclaimed, ⟨⟩⟩ := bind_eq_ok.mp h
        have hupdate := ofWrite_eq_ok hclaimed
        obtain ⟨hmem, hpending⟩ := mem_runnableWork (List.mem_of_mem_head? hwork)
        refine .of_updateCommand hupdate fun row hrow => ?_
        obtain rfl := Option.some_inj.mp ((Table.find_key hmem).symm.trans hrow)
        have hvalid := writeCommands_valid hupdate _ (Table.mem_of_find ((find_updateCommand hupdate work.row.key).trans
          ((if_pos rfl).trans (congrArg _ hrow))))
        have hstate := state_of_valid hvalid hpending
        exact ⟨rfl, id, fun hadmitted => absurd (hstate.symm.trans hadmitted) (by decide)⟩
      · cases h
        exact .refl

theorem updateTurnCommand_rewritten {turnId : String} (h : db.updateTurnCommand turnId p f hf = .ok db')
    (hkeeps : ∀ row, (f row).Valid → p row = true → Keeps row (f row)) : Rewritten db db' := by
  have hvalid := writeCommands_valid (ofWrite_eq_ok h)
  obtain rfl := updateTurnCommand_eq_ok h
  refine .of_update hf rfl (fun row hrow hp => ?_) rfl
  have hmem : f row ∈ (db.commands.update (fun row => row.turnId = some turnId && p row) f hf).rows := by
    rw [Table.rows_update]
    exact List.mem_map.mpr ⟨row, hrow, if_pos hp⟩
  exact hkeeps row (hvalid _ hmem) (Bool.and_eq_true_iff.mp hp).2

theorem requestActivation_rewritten {requested : Bool}
    (h : db.requestActivation claim updatedAt now = .ok (requested, db')) : Rewritten db db' := by
  rw [requestActivation] at h
  obtain ⟨-, h⟩ := ite_error_eq_ok.mp h
  split at h
  · cases h
  · split at h
    · cases h
      exact .refl
    · obtain ⟨turnStore, -, h⟩ := bind_eq_ok.mp h
      obtain ⟨updated, hupdate, ⟨⟩⟩ := bind_eq_ok.mp h
      have hrewritten := updateTurnCommand_rewritten hupdate fun row _ _ => ⟨rfl, id, fun _ => id⟩
      exact ⟨hrewritten.rows, hrewritten.versions⟩

theorem completeActivation_rewritten {status : ActivationStatus}
    (h : db.completeActivation claim status updatedAt now = .ok db') : Rewritten db db' := by
  rw [completeActivation] at h
  obtain ⟨-, h⟩ := ite_error_eq_ok.mp h
  obtain ⟨turnStore, -, h⟩ := bind_eq_ok.mp h
  have hrewritten := updateTurnCommand_rewritten h fun row _ _ =>
    ⟨rfl, id, fun _ hclaim => (Bool.false_ne_true hclaim).elim⟩
  exact ⟨hrewritten.rows, hrewritten.versions⟩

end HostedDatabase

namespace Hosted

open Fold HostedDatabase

variable {Json Snapshot : Type} {s : Hosted Json}

theorem commit_change {ε : Type} {result : Except ε (HostedDatabase Json)}
    (h : ∀ db', result = .ok db' → CommandsChange s.db db') : CommandsChange s.db (s.commit result).db := by
  cases result with
  | error error => exact .rewritten .refl
  | ok db' => exact h db' rfl

theorem step_change (contract : Contract Json InteractiveEvent Snapshot) (collation : Collation) (s : Hosted Json)
    (operation : HostedOperation Snapshot) : CommandsChange s.db (step contract collation s operation).db := by
  cases operation with
  | turnStore operation => exact .rewritten (Rewritten.refl.congr rfl rfl)
  | admitCommand access input expectedVersion =>
    exact commit_change fun db' h => (map_snd_eq_ok h).elim fun _ h => admitCommand_change h
  | claimNextCommand claimToken claimMillis now =>
    exact commit_change fun db' h => (map_snd_eq_ok h).elim fun _ h => claimNextCommand_change h
  | renewCommandClaim input claimMillis now =>
    exact commit_change fun db' h => .rewritten ((map_snd_eq_ok h).elim fun _ h => renewCommandClaim_rewritten h)
  | releaseCommandClaim input => exact commit_change fun db' h => .rewritten (releaseCommandClaim_rewritten h)
  | completeCommand projection input now =>
    exact commit_change fun db' h => .rewritten ((map_snd_eq_ok h).elim fun _ h => completeCommand_rewritten h)
  | applyPrompt projection input stage now =>
    rw [step]
    split
    · next application db' h => exact .rewritten (applyPrompt_rewritten h)
    · exact .rewritten .refl
  | cancelPrompt access input now =>
    exact commit_change fun db' h => .rewritten ((map_snd_eq_ok h).elim fun _ h => cancelPrompt_rewritten h)
  | claimNext readyExecutor request now =>
    rw [step]
    split
    · next claim db' h => exact .rewritten (claimNext_rewritten h)
    · exact .rewritten .refl
  | renew claim leaseMillis now =>
    rw [step]
    split
    · refine commit_change fun db' h => .rewritten ?_
      obtain ⟨_, h⟩ := map_snd_eq_ok h
      obtain ⟨renewed, hrenewed, ⟨⟩⟩ := bind_eq_ok.mp h
      refine updateTurnCommand_rewritten hrenewed fun row hvalid hp => ?_
      have hstate := state_of_valid hvalid (Bool.and_eq_true_iff.mp hp).1
      exact ⟨rfl, id, fun hadmitted => absurd (hstate.symm.trans hadmitted) (by decide)⟩
    · exact .rewritten .refl
  | release claim =>
    rw [step]
    split
    · refine commit_change fun db' h => .rewritten ?_
      exact updateTurnCommand_rewritten h fun row _ _ => ⟨rfl, id, fun _ hclaim => (Bool.false_ne_true hclaim).elim⟩
    · exact .rewritten .refl
  | requestActivation claim updatedAt now =>
    rw [step]
    split
    · exact commit_change fun db' h => .rewritten ((map_snd_eq_ok h).elim fun _ h => requestActivation_rewritten h)
    · exact .rewritten .refl
  | completeActivation claim status updatedAt now =>
    rw [step]
    split
    · exact commit_change fun db' h => .rewritten (completeActivation_rewritten h)
    · exact .rewritten .refl

end Hosted

end Rika
