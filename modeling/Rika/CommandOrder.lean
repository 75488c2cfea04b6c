import Rika.CommandChanges
import Rika.PromptCancellations

namespace Rika

namespace HostedDatabase

open Fold

variable {Json Snapshot : Type} {db db' : HostedDatabase Json} {contract : Contract Json InteractiveEvent Snapshot}
  {first : String → Option Nat}

def ofThread (db : HostedDatabase Json) (threadId : String) : List CommandRow :=
  db.commands.select fun row => row.threadId = threadId

/-- The invariant of a run whose threads had the versions `first` at its start. -/
structure Ordered (first : String → Option Nat) (db : HostedDatabase Json) : Prop where
  versions : ∀ threadId, (db.ofThread threadId).map (·.threadVersion) =
    List.range' ((first threadId).getD 0 + 1) (db.ofThread threadId).length
  latest : ∀ threadId, db.versionOf threadId = (first threadId).map (· + (db.ofThread threadId).length)
  keys : ∀ row ∈ db.commands.rows, ∀ other ∈ db.commands.rows, row.threadId = other.threadId →
    row.idempotencyKey = other.idempotencyKey → row = other
  foremost : ∀ row ∈ db.commands.rows, row.state = .admitted → row.claim.isSome → Foremost db row

variable {f : CommandRow → CommandRow} {row : CommandRow} {version : Nat}

theorem Foremost.of_map (hrows : db'.commands.rows = db.commands.rows.map f)
    (hidentity : ∀ row ∈ db.commands.rows, (f row).identity = row.identity)
    (hadmitted : ∀ row ∈ db.commands.rows, (f row).state = .admitted → row.state = .admitted)
    (hrow : row ∈ db.commands.rows) (h : Foremost db row) : Foremost db' (f row) := by
  intro predecessor' hmem hthread hversion hstate
  rw [hrows] at hmem
  obtain ⟨predecessor, hpredecessor, rfl⟩ := List.mem_map.mp hmem
  have hbefore := CommandIdentity.mk.inj (hidentity predecessor hpredecessor)
  have hafter := CommandIdentity.mk.inj (hidentity row hrow)
  obtain ⟨-, hthreadBefore, hcommandId, -, -, hversionBefore, -, -, hcommand, -⟩ := hbefore
  obtain ⟨-, hthreadAfter, -, -, -, hversionAfter, -, -, hcommandAfter, -⟩ := hafter
  rw [hthreadBefore, hthreadAfter] at hthread
  rw [hversionBefore, hversionAfter] at hversion
  rw [hcommandAfter, hcommandId, hcommand]
  exact h predecessor hpredecessor hthread hversion (hadmitted predecessor hpredecessor hstate)

theorem Ordered.of_map (h : Ordered first db)
    (hrows : db'.commands.rows = db.commands.rows.map f) (hversions : db'.versionOf = db.versionOf)
    (hidentity : ∀ row ∈ db.commands.rows, (f row).identity = row.identity)
    (hadmitted : ∀ row ∈ db.commands.rows, (f row).state = .admitted → row.state = .admitted)
    (hclaim : ∀ row ∈ db.commands.rows, (f row).state = .admitted → (f row).claim.isSome →
      row.claim.isSome ∨ Foremost db row) : Ordered first db' := by
  have hthread : ∀ row ∈ db.commands.rows, (f row).threadId = row.threadId := fun row hrow =>
    congrArg CommandIdentity.threadId (hidentity row hrow)
  have hversion : ∀ row ∈ db.commands.rows, (f row).threadVersion = row.threadVersion := fun row hrow =>
    congrArg CommandIdentity.threadVersion (hidentity row hrow)
  have hkey : ∀ row ∈ db.commands.rows, (f row).idempotencyKey = row.idempotencyKey := fun row hrow =>
    congrArg CommandIdentity.idempotencyKey (hidentity row hrow)
  have hof : ∀ threadId, db'.ofThread threadId = (db.ofThread threadId).map f := by
    intro threadId
    rw [ofThread, Table.select, hrows, List.filter_map, ofThread, Table.select]
    congr 1
    apply List.filter_congr
    intro row hrow
    rw [Function.comp_apply, hthread row hrow]
  have hlength : ∀ threadId, (db'.ofThread threadId).length = (db.ofThread threadId).length := fun threadId => by
    rw [hof, List.length_map]
  constructor
  · intro threadId
    rw [hlength, ← h.versions, hof, List.map_map]
    apply List.map_congr_left
    intro row hrow
    exact hversion row (Table.mem_select.mp hrow).1
  · intro threadId
    rw [hversions, hlength]
    exact h.latest threadId
  · intro row' hrow' other' hother' hsameThread hsameKey
    rw [hrows] at hrow' hother'
    obtain ⟨row, hrow, rfl⟩ := List.mem_map.mp hrow'
    obtain ⟨other, hother, rfl⟩ := List.mem_map.mp hother'
    rw [hthread row hrow, hthread other hother] at hsameThread
    rw [hkey row hrow, hkey other hother] at hsameKey
    rw [h.keys row hrow other hother hsameThread hsameKey]
  · intro row' hrow' hstate hclaimed
    rw [hrows] at hrow'
    obtain ⟨row, hrow, rfl⟩ := List.mem_map.mp hrow'
    have hforemost : Foremost db row := by
      rcases hclaim row hrow hstate hclaimed with hbefore | hforemost
      · exact h.foremost row hrow (hadmitted row hrow hstate) hbefore
      · exact hforemost
    exact hforemost.of_map hrows hidentity hadmitted hrow

theorem Ordered.version_le (h : Ordered first db) (hrow : row ∈ db.commands.rows)
    (hversion : db.versionOf row.threadId = some version) : row.threadVersion ≤ version := by
  rw [h.latest] at hversion
  obtain ⟨start, hstart, rfl⟩ := Option.map_eq_some_iff.mp hversion
  have hmem : row.threadVersion ∈ (db.ofThread row.threadId).map (·.threadVersion) :=
    List.mem_map_of_mem (Table.mem_select.mpr ⟨hrow, decide_eq_true rfl⟩)
  rw [h.versions, hstart, Option.getD_some, List.mem_range'_1] at hmem
  omega

theorem Ordered.of_admitted (h : Ordered first db)
    (hversion : db.versionOf row.threadId = some version) (hnext : row.threadVersion = version + 1)
    (hclaim : row.claim = none)
    (hfresh : ∀ other ∈ db.commands.rows, other.threadId = row.threadId →
      other.commandId ≠ row.commandId ∧ other.idempotencyKey ≠ row.idempotencyKey)
    (hrows : db'.commands.rows = db.commands.rows ++ [row])
    (hversions : ∀ threadId, db'.versionOf threadId =
      if threadId = row.threadId then some (version + 1) else db.versionOf threadId) : Ordered first db' := by
  have hof : ∀ threadId, db'.ofThread threadId =
      db.ofThread threadId ++ if row.threadId = threadId then [row] else [] := by
    intro threadId
    rw [ofThread, Table.select, hrows, List.filter_append, ofThread, Table.select]
    congr 1
    by_cases hthread : row.threadId = threadId
    · rw [if_pos hthread, List.filter_singleton, decide_eq_true hthread, cond_true]
    · rw [if_neg hthread, List.filter_singleton, decide_eq_false hthread, cond_false]
  obtain ⟨start, hstart, hlast⟩ := Option.map_eq_some_iff.mp ((h.latest row.threadId).symm.trans hversion)
  have hlast : start + (db.ofThread row.threadId).length = version := hlast
  constructor
  · intro threadId
    rw [hof]
    by_cases hthread : row.threadId = threadId
    · rw [if_pos hthread, List.map_append, h.versions, List.length_append, ← hthread, hstart, Option.getD_some]
      rw [List.length_singleton, List.range'_1_concat, List.map_singleton, hnext]
      congr 2
      omega
    · rw [if_neg hthread, List.append_nil]
      exact h.versions threadId
  · intro threadId
    rw [hversions, hof]
    by_cases hthread : threadId = row.threadId
    · rw [if_pos hthread, if_pos hthread.symm, hthread, hstart, List.length_append]
      refine congrArg some ?_
      change version + 1 = start + ((db.ofThread row.threadId).length + 1)
      omega
    · rw [if_neg hthread, if_neg (Ne.symm hthread), List.append_nil]
      exact h.latest threadId
  · intro left hleft right hright hthread hkey
    rw [hrows, List.mem_append, List.mem_singleton] at hleft hright
    rcases hleft with hleft | rfl
    · rcases hright with hright | rfl
      · exact h.keys left hleft right hright hthread hkey
      · exact absurd hkey (hfresh left hleft hthread).2
    · rcases hright with hright | rfl
      · exact absurd hkey.symm (hfresh right hright hthread.symm).2
      · rfl
  · intro left hleft hstate hclaimed
    rw [hrows, List.mem_append, List.mem_singleton] at hleft
    rcases hleft with hleft | rfl
    · intro predecessor hpredecessor hthread hlt hadmitted
      rw [hrows, List.mem_append, List.mem_singleton] at hpredecessor
      rcases hpredecessor with hpredecessor | rfl
      · exact h.foremost left hleft hstate hclaimed predecessor hpredecessor hthread hlt hadmitted
      · -- the new command is the last of its thread
        have hle := h.version_le hleft (hthread ▸ hversion)
        omega
    · rw [hclaim] at hclaimed
      cases hclaimed

theorem CommandsChange.ordered (hchange : CommandsChange db db') (h : Ordered first db) : Ordered first db' := by
  cases hchange with
  | rewritten hrewritten =>
    obtain ⟨f, hrows, hkeeps⟩ := hrewritten.rows
    exact h.of_map hrows hrewritten.versions (fun row hrow => (hkeeps row hrow).identity)
      (fun row hrow => (hkeeps row hrow).admitted) fun row hrow hstate hclaim => .inl ((hkeeps row hrow).claim hstate hclaim)
  | claimed selected claim hmem hforemost hrows hversions =>
    refine h.of_map hrows hversions (fun row _ => ?_) (fun row _ => ?_) fun row hrow _ hclaim => ?_
    · split <;> rfl
    · split <;> exact id
    · split at hclaim
      · next hkey =>
          obtain rfl := Table.eq_of_key_eq _ hrow hmem hkey
          exact .inr hforemost
      · exact .inl hclaim
  | admitted row version hversion hnext hstate hclaim hfresh hrows hversions =>
    exact h.of_admitted hversion hnext hclaim hfresh hrows hversions

theorem CommandsChange.stays (hchange : CommandsChange db db') (hrow : row ∈ db.commands.rows) :
    ∃ row' ∈ db'.commands.rows, row'.identity = row.identity := by
  cases hchange with
  | rewritten hrewritten =>
    obtain ⟨f, hrows, hkeeps⟩ := hrewritten.rows
    exact ⟨f row, hrows ▸ List.mem_map_of_mem hrow, (hkeeps row hrow).identity⟩
  | claimed selected claim _ _ hrows _ =>
    refine ⟨_, hrows ▸ List.mem_map_of_mem hrow, ?_⟩
    split <;> rfl
  | admitted new version _ _ _ _ _ hrows _ => exact ⟨row, hrows ▸ List.mem_append_left [new] hrow, rfl⟩

def Compatible (row : CommandRow) (input : AdmitInput) (expectedVersion : Option Nat) : Prop :=
  row.commandId = input.commandId ∧ row.idempotencyKey = input.idempotencyKey ∧
    (∀ version, expectedVersion = some version → row.expectedVersion = version) ∧ row.actor = input.actor ∧
      row.command = input.command

theorem admitCommand_again (h : Ordered first db) (hrow : row ∈ db.commands.rows) {input : AdmitInput}
    (expectedVersion : Option Nat) (hthread : input.threadId = row.threadId)
    (hsame : input.commandId = row.commandId ∨ input.idempotencyKey = row.idempotencyKey) :
    (Compatible row input expectedVersion →
      db.admitCommand (.ok ()) input expectedVersion = .ok (.duplicate row, db)) ∧
    (¬Compatible row input expectedVersion →
      ∃ message, db.admitCommand (.ok ()) input expectedVersion = .error (failure .conflict message)) := by
  have hadmit : ∀ error, db.readExisting input expectedVersion = .error error →
      db.admitCommand (.ok ()) input expectedVersion = .error error := by
    intro error herror
    rw [admitCommand, herror]
    rfl
  have hselected : row ∈ db.commands.select fun row => row.threadId = input.threadId &&
      (row.commandId = input.commandId || row.idempotencyKey = input.idempotencyKey) := by
    refine Table.mem_select.mpr ⟨hrow, ?_⟩
    rcases hsame with hsame | hsame
    · simp [hthread, hsame]
    · simp [hthread, hsame]
  constructor
  · rintro ⟨hcommandId, hkey, hexpected, hactor, hcommand⟩
    have hselect : (db.commands.select fun row => row.threadId = input.threadId &&
        (row.commandId = input.commandId || row.idempotencyKey = input.idempotencyKey)) = [row] := by
      have hfilter : (db.commands.select fun row => row.threadId = input.threadId &&
          (row.commandId = input.commandId || row.idempotencyKey = input.idempotencyKey)) =
          db.commands.rows.filter fun other => other.key = row.key := by
        refine List.filter_congr fun other hother => Bool.eq_iff_iff.mpr ?_
        simp only [Bool.and_eq_true, Bool.or_eq_true, decide_eq_true_eq]
        constructor
        · rintro ⟨hother_thread, hfound⟩
          have hsame_thread : other.threadId = row.threadId := hother_thread.trans hthread
          rcases hfound with hfound | hfound
          · exact Prod.ext hsame_thread (hfound.trans hcommandId.symm)
          · exact congrArg CommandRow.key (h.keys other hother row hrow hsame_thread (hfound.trans hkey.symm))
        · intro hsame_key
          obtain rfl := Table.eq_of_key_eq _ hother hrow hsame_key
          exact ⟨hthread.symm, .inl hcommandId⟩
      rw [hfilter, Table.filter_key, Table.find_key hrow]
      rfl
    have hexisting : db.readExisting input expectedVersion = .ok (some row) := by
      rw [readExisting, hselect]
      dsimp only
      rw [if_neg]
      rw [not_or, not_or, not_or, not_or, not_not, not_not, not_not, not_not]
      refine ⟨hcommandId, hkey, ?_, hactor, hcommand⟩
      cases expectedVersion with
      | none => exact Bool.false_ne_true
      | some version => simpa using hexpected version rfl
    rw [admitCommand, hexisting]
    rfl
  · intro hnot
    have herror : ∃ message, db.readExisting input expectedVersion = .error (failure .conflict message) := by
      rw [readExisting]
      split
      · next hselect =>
          rw [hselect] at hselected
          cases hselected
      · next existing hselect =>
          rw [hselect, List.mem_singleton] at hselected
          subst hselected
          rw [if_pos]
          · exact ⟨_, rfl⟩
          · by_contra hcompatible
            rw [not_or, not_or, not_or, not_or, not_not, not_not, not_not, not_not] at hcompatible
            obtain ⟨hcommandId, hkey, hexpected, hactor, hcommand⟩ := hcompatible
            refine hnot ⟨hcommandId, hkey, ?_, hactor, hcommand⟩
            intro version hversion
            simpa [hversion] using hexpected
      · exact ⟨_, rfl⟩
    obtain ⟨message, herror⟩ := herror
    exact ⟨message, hadmit _ herror⟩

theorem completeCommand_foremost (h : Ordered first db) {projection : ProcessObservationProjection InteractiveEvent Snapshot}
    {input : CompleteInput Snapshot} {now : Finite}
    (hcomplete : db.completeCommand contract projection input now = .ok (.completed row, db')) : Foremost db row := by
  rw [completeCommand] at hcomplete
  split at hcomplete
  · cases hcomplete
  · split at hcomplete
    · cases hcomplete
    · next current hcurrent =>
        split at hcomplete
        · cases hcomplete
        · next hstate =>
            obtain ⟨hclaimed, hcomplete⟩ := ite_error_eq_ok.mp hcomplete
            obtain ⟨⟨cursor, log⟩, -, hcomplete⟩ := bind_eq_ok.mp hcomplete
            obtain ⟨completed, -, ⟨⟩⟩ := bind_eq_ok.mp hcomplete
            have hmem := Table.mem_of_find (findCommand_eq_some hcurrent).1
            refine h.foremost current hmem (state_eq_admitted hstate) ?_
            cases hclaim : current.claim with
            | some claim => rfl
            | none =>
              rw [CommandRow.claimedBy, hclaim] at hclaimed
              exact absurd rfl hclaimed

end HostedDatabase

namespace Hosted

open HostedDatabase

variable {Json Snapshot : Type} {contract : Contract Json InteractiveEvent Snapshot} {collation : Collation}

theorem start_ordered (hostedThreads : Table (@HostedThread.id Json)) (productThreads : Table ProductThread.id)
    (ownerCounters : Table OwnerCounter.ownerId) :
    Ordered (start hostedThreads productThreads ownerCounters).db.versionOf
      (start hostedThreads productThreads ownerCounters).db := by
  refine ⟨fun _ => rfl, fun threadId => ?_, fun row hrow => absurd hrow List.not_mem_nil,
    fun row hrow => absurd hrow List.not_mem_nil⟩
  exact Option.map_id'.symm

variable {s : Hosted Json}

theorem run_ordered {first : String → Option Nat} (h : Ordered first s.db)
    (operations : List (HostedOperation Snapshot)) : Ordered first (run contract collation s operations).db := by
  induction operations generalizing s with
  | nil => exact h
  | cons operation operations ih => exact ih ((step_change contract collation s operation).ordered h)

theorem run_stays (contract : Contract Json InteractiveEvent Snapshot) (collation : Collation)
    (operations : List (HostedOperation Snapshot)) {row : CommandRow}
    (hrow : row ∈ s.db.commands.rows) :
    ∃ row' ∈ (run contract collation s operations).db.commands.rows, row'.identity = row.identity := by
  induction operations generalizing s row with
  | nil => exact ⟨row, hrow, rfl⟩
  | cons operation operations ih =>
    obtain ⟨row₁, hrow₁, hidentity⟩ := (step_change contract collation s operation).stays hrow
    obtain ⟨row', hrow', hidentity'⟩ := ih hrow₁
    exact ⟨row', hrow', hidentity'.trans hidentity⟩

/-- In every run versions have no gap, a repeated identity or key changes nothing, and a command completes after all
older ones. -/
theorem commands_ordered (contract : Contract Json InteractiveEvent Snapshot) (collation : Collation)
    (hostedThreads : Table (@HostedThread.id Json)) (productThreads : Table ProductThread.id)
    (ownerCounters : Table OwnerCounter.ownerId) (operations : List (HostedOperation Snapshot)) :
    let started := start hostedThreads productThreads ownerCounters
    let s := run contract collation started operations
    (∀ threadId, (s.db.ofThread threadId).map (·.threadVersion) =
        List.range' ((started.db.versionOf threadId).getD 0 + 1) (s.db.ofThread threadId).length ∧
      s.db.versionOf threadId = (started.db.versionOf threadId).map (· + (s.db.ofThread threadId).length)) ∧
    (∀ row ∈ s.db.commands.rows, ∀ input expectedVersion, input.threadId = row.threadId →
      (input.commandId = row.commandId ∨ input.idempotencyKey = row.idempotencyKey) →
        ∀ later, let s' := run contract collation s later
          ∃ row' ∈ s'.db.commands.rows, row'.identity = row.identity ∧
            (Compatible row' input expectedVersion →
              s'.db.admitCommand (.ok ()) input expectedVersion = .ok (.duplicate row', s'.db)) ∧
            (¬Compatible row' input expectedVersion →
              ∃ message, s'.db.admitCommand (.ok ()) input expectedVersion = .error (failure .conflict message) ∧
                step contract collation s' (.admitCommand (.ok ()) input expectedVersion) = s')) ∧
    ∀ projection input now row db', s.db.completeCommand contract projection input now = .ok (.completed row, db') →
      ∀ earlier ∈ s.db.commands.rows, earlier.threadId = row.threadId → earlier.threadVersion < row.threadVersion →
        earlier.state = .completed ∨
          row.command.cancels earlier.commandId = true ∧ earlier.command.isSubmitPrompt = true := by
  intro started s
  have hordered : Ordered started.db.versionOf s.db :=
    run_ordered (start_ordered hostedThreads productThreads ownerCounters) operations
  refine ⟨fun threadId => ⟨hordered.versions threadId, hordered.latest threadId⟩, ?_, ?_⟩
  · intro row hrow input expectedVersion hthread hsame later s'
    obtain ⟨row', hrow', hidentity⟩ := run_stays contract collation later hrow
    have hordered' : Ordered started.db.versionOf s'.db := run_ordered hordered later
    have hthread' : row'.threadId = row.threadId := congrArg CommandIdentity.threadId hidentity
    have hsame' : input.commandId = row'.commandId ∨ input.idempotencyKey = row'.idempotencyKey := by
      have hcommandId : row'.commandId = row.commandId := congrArg CommandIdentity.commandId hidentity
      have hkey : row'.idempotencyKey = row.idempotencyKey := congrArg CommandIdentity.idempotencyKey hidentity
      rw [hcommandId, hkey]
      exact hsame
    obtain ⟨hagain, hconflict⟩ := admitCommand_again hordered' hrow' expectedVersion (hthread.trans hthread'.symm) hsame'
    refine ⟨row', hrow', hidentity, hagain, fun hnot => ?_⟩
    obtain ⟨message, herror⟩ := hconflict hnot
    refine ⟨message, herror, ?_⟩
    rw [step, herror]
    rfl
  · intro projection input now row db' hcomplete earlier hearlier hthread hversion
    have hforemost := completeCommand_foremost hordered hcomplete earlier hearlier hthread hversion
    cases hstate : earlier.state with
    | completed => exact .inl rfl
    | admitted => exact .inr (hforemost hstate)

/-- A command's identity with another key is refused, not answered by the command. -/
theorem reused_identity_refused :
    ((run sampleContract .codePoint sampleStart [sampleAdmit "prompt" (.submitPrompt "")]).db.commands.find
      ("thread", "prompt")).isSome = true ∧
    ((run sampleContract .codePoint sampleStart [sampleAdmit "prompt" (.submitPrompt "")]).db.admitCommand (.ok ())
      ⟨"owner", "thread", "prompt", none, "another key", "actor", .submitPrompt "", ⟨"now", some 1⟩⟩ none).toOption.isNone =
        true := by
  refine ⟨?_, ?_⟩ <;> decide +kernel

end Hosted

end Rika
