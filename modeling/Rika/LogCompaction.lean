import Rika.ThreadConnections
import Rika.ThreadReplay

namespace Rika

namespace ThreadLog

open Fold

variable {Json Event Snapshot : Type} {contract : Contract Json Event Snapshot}
  {projection : ProcessObservationProjection Event Snapshot} {log log' : ThreadLog Json}

def Covered (log : ThreadLog Json) (cursor : Nat) : Prop := ∃ snapshot ∈ log.snapshots.rows, cursor ≤ snapshot.cursor

/-- Every client that has acknowledged anything has acknowledged the event at the
cursor. -/
def Acknowledged (log : ThreadLog Json) (cursor : Nat) : Prop := ∀ row ∈ log.cursors.rows, cursor ≤ row.cursor

def Bounded (log : ThreadLog Json) : Prop :=
  ∀ row ∈ log.cursors.rows, ∃ state, log.state = some state ∧ row.cursor ≤ state.eventCursor

/-- A step that deletes nothing and acknowledges nothing. -/
structure Grows (log log' : ThreadLog Json) : Prop where
  cursors : log'.cursors = log.cursors
  events : ∀ event ∈ log.events.rows, event ∈ log'.events.rows
  state : ∀ state, log.state = some state → ∃ state', log'.state = some state' ∧ state.eventCursor ≤ state'.eventCursor

theorem Grows.refl : Grows log log := ⟨rfl, fun _ => id, fun state h => ⟨state, h, Nat.le_refl _⟩⟩

theorem Grows.bounded (h : Grows log log') (hbounded : Bounded log) : Bounded log' := by
  intro row hrow
  rw [h.cursors] at hrow
  obtain ⟨state, hstate, hle⟩ := hbounded row hrow
  obtain ⟨state', hstate', hle'⟩ := h.state state hstate
  exact ⟨state', hstate', hle.trans hle'⟩

theorem committed_grows {outcome : Except HostedPersistenceError (ThreadLog Json)}
    (h : ∀ next, outcome = .ok next → Grows log next) : Grows log (committed log outcome) := by
  cases outcome with
  | error _ => exact .refl
  | ok next => exact h next rfl

theorem initializeThread_grows {access : Except HostedPersistenceError Unit} (h : initializeThread access log = .ok log') :
    Grows log log' := by
  obtain ⟨_, -, ⟨⟩⟩ := bind_eq_ok.mp h
  refine ⟨rfl, fun _ => id, fun state hstate => ⟨state, ?_, Nat.le_refl _⟩⟩
  rw [hstate]
  rfl

theorem advanceVersion_grows : Grows log (advanceVersion log) := by
  refine ⟨rfl, fun _ => id, fun state hstate => ⟨{ state with version := state.version + 1 }, ?_, Nat.le_refl _⟩⟩
  rw [advanceVersion, hstate]
  rfl

variable {state : ProtocolState} {input : CheckpointInput Snapshot} {cursor : Nat} {event : EventRow Json} {row : CursorRow}

theorem writeEvents_grows {firstCursor version : Nat} {events : List Event} {createdAt : String}
    {written : List (ThreadProtocolEvent Event)}
    (hfirst : firstCursor = state.eventCursor + 1)
    (h : writeEvents contract projection log version firstCursor events createdAt = .ok (written, log')) :
    log'.cursors = log.cursors ∧ (∀ event ∈ log.events.rows, event ∈ log'.events.rows) ∧
      state.eventCursor ≤ (written.getLast?.map (·.cursor)).getD state.eventCursor := by
  obtain ⟨hwritten, rows, -, -, hevents, -, hcursors, -⟩ := writeEvents_eq_ok h
  refine ⟨hcursors, fun event hevent => ?_, ?_⟩
  · rw [hevents]
    exact List.mem_append_left _ hevent
  · cases hlast : written.getLast? with
    | none => exact Nat.le_refl _
    | some last =>
      have hmem : last.cursor ∈ written.map (·.cursor) := List.mem_map_of_mem (List.mem_of_getLast? hlast)
      rw [hwritten, List.Ico.mem] at hmem
      rw [Option.map_some, Option.getD_some]
      omega

theorem appendEvents_grows {input : AppendInput Event Snapshot} {events : List (ThreadProtocolEvent Event)}
    (h : appendEvents contract projection log input = .ok (events, log')) : Grows log log' := by
  rw [appendEvents] at h
  split at h
  · cases h
    exact .refl
  · split at h
    · cases h
    · next state hstate =>
        obtain ⟨⟨written, next⟩, hwrite, h⟩ := bind_eq_ok.mp h
        obtain ⟨hcursors, hevents, hle⟩ := writeEvents_grows rfl hwrite
        have hgrows : Grows log
            { next with state := some { state with eventCursor := (written.getLast?.map (·.cursor)).getD state.eventCursor } } := by
          refine ⟨hcursors, hevents, fun before hbefore => ?_⟩
          obtain rfl := Option.some_inj.mp (hstate.symm.trans hbefore)
          exact ⟨_, rfl, hle⟩
        dsimp only at h
        split at h
        · cases h
          exact hgrows
        · split at h
          · cases h
            exact ⟨hgrows.cursors, hgrows.events, hgrows.state⟩
          · cases h
            exact hgrows

theorem writeSnapshot_grows (version cursor : Nat) (snapshot : Snapshot) (createdAt : String) (replayRequired : Bool) :
    Grows log (writeSnapshot contract projection log version cursor snapshot createdAt replayRequired) :=
  ⟨rfl, fun _ => id, fun state hstate => ⟨state, hstate, Nat.le_refl _⟩⟩

theorem checkpoint_grows {written : Bool}
    (h : checkpoint contract projection log input = .ok (written, log')) : Grows log log' := by
  rw [checkpoint] at h
  split at h
  · cases h
  · split at h
    · cases h
    · dsimp only at h
      split at h
      · cases h
        exact writeSnapshot_grows _ _ _ _ _
      · cases h
        exact .refl

theorem saveSnapshot_grows (h : saveSnapshot contract projection log input = .ok log') : Grows log log' := by
  rw [saveSnapshot] at h
  split at h
  · cases h
    exact writeSnapshot_grows _ _ _ _ _
  · cases h

theorem clientId_acknowledged (input : AcknowledgeInput) (row : CursorRow) :
    { row with cursor := max row.cursor input.cursor, acknowledgedAt := input.acknowledgedAt }.clientId = row.clientId :=
  rfl

def acknowledgedCursors (log : ThreadLog Json) (input : AcknowledgeInput) : Table CursorRow.clientId :=
  log.cursors.upsert ⟨input.clientId, input.cursor, input.acknowledgedAt⟩
    (fun row => { row with cursor := max row.cursor input.cursor, acknowledgedAt := input.acknowledgedAt })
    (clientId_acknowledged input)

theorem step_cases (contract : Contract Json Event Snapshot) (log : ThreadLog Json)
    (transaction : Transaction Event Snapshot) :
    Grows log (step contract log transaction) ∨
      ∃ state input, log.state = some state ∧ input.cursor ≤ state.eventCursor ∧
        step contract log transaction = compact { log with cursors := log.acknowledgedCursors input } := by
  cases transaction with
  | initializeThread access => exact .inl (committed_grows fun next h => initializeThread_grows h)
  | admitCommand => exact .inl advanceVersion_grows
  | appendEvents projection input =>
    exact .inl (committed_grows fun next h => (map_snd_eq_ok h).elim fun _ h => appendEvents_grows h)
  | checkpoint projection input =>
    exact .inl (committed_grows fun next h => (map_snd_eq_ok h).elim fun _ h => checkpoint_grows h)
  | saveSnapshot projection input => exact .inl (committed_grows fun next h => saveSnapshot_grows h)
  | replay access input => exact .inl .refl
  | acknowledgeCursor access input =>
    rw [step]
    cases h : acknowledgeCursor access log input with
    | error error => exact .inl .refl
    | ok answer =>
      obtain ⟨acknowledgement, next⟩ := answer
      rw [acknowledgeCursor] at h
      obtain ⟨_, -, h⟩ := bind_eq_ok.mp h
      split at h
      · cases h
      · next state hstate =>
          split at h
          · cases h
          · next hle =>
              cases h
              exact .inr ⟨state, input, hstate, Nat.le_of_not_lt hle, rfl⟩

theorem compactCursor_acknowledged (h : log.compactCursor = some cursor) : Acknowledged log cursor := by
  rw [compactCursor] at h
  split at h
  · cases h
  · next minimum hminimum =>
      obtain ⟨snapshot, hsnapshot, rfl⟩ := List.mem_map.mp (List.max?_mem h)
      have hle : snapshot.cursor ≤ minimum := of_decide_eq_true (Table.mem_select.mp hsnapshot).2
      intro row hrow
      exact hle.trans ((List.min?_eq_some_iff.mp hminimum).2 _ (List.mem_map_of_mem hrow))

theorem compact_cursors (log : ThreadLog Json) : (compact log).cursors = log.cursors := by
  rw [compact]
  split <;> rfl

theorem compact_deleted (hevent : event ∈ log.events.rows) (hdeleted : event ∉ (compact log).events.rows) :
    Covered (compact log) event.cursor ∧ Acknowledged (compact log) event.cursor := by
  rw [Acknowledged, compact_cursors]
  rw [compact] at hdeleted
  cases hcursor : log.compactCursor with
  | none =>
    rw [hcursor] at hdeleted
    exact absurd hevent hdeleted
  | some cursor =>
    rw [hcursor] at hdeleted
    have hle : event.cursor ≤ cursor := by
      by_contra hlt
      exact hdeleted (Table.mem_delete.mpr ⟨hevent, by simpa using hlt⟩)
    obtain ⟨kept, hkept, rfl⟩ := compactCursor_eq_some hcursor
    refine ⟨⟨kept, ?_, hle⟩, fun row hrow => hle.trans (compactCursor_acknowledged hcursor row hrow)⟩
    rw [compact, hcursor]
    exact Table.mem_delete.mpr ⟨hkept, by simp⟩

theorem compact_bounded (h : Bounded log) : Bounded (compact log) := by
  rw [Bounded, compact_cursors, compact_state]
  exact h

theorem acknowledged_bounded {input : AcknowledgeInput} (h : Bounded log)
    (hstate : log.state = some state) (hle : input.cursor ≤ state.eventCursor) :
    Bounded { log with cursors := log.acknowledgedCursors input } := by
  intro row hrow
  refine ⟨state, hstate, ?_⟩
  rcases Table.mem_upsert hrow with rfl | hold | ⟨old, hold, -, rfl⟩
  · exact hle
  · obtain ⟨before, hbefore, hcursor⟩ := h row hold
    obtain rfl := Option.some_inj.mp (hbefore.symm.trans hstate)
    exact hcursor
  · obtain ⟨before, hbefore, hcursor⟩ := h old hold
    obtain rfl := Option.some_inj.mp (hbefore.symm.trans hstate)
    exact Nat.max_le.mpr ⟨hcursor, hle⟩

theorem acknowledged_find {input : AcknowledgeInput} (h : row ∈ log.cursors.rows) :
    ∃ row', (log.acknowledgedCursors input).find row.clientId = some row' ∧ row.cursor ≤ row'.cursor := by
  have hfind := Table.find_key h
  rw [acknowledgedCursors, Table.find_upsert, hfind]
  split
  · exact ⟨_, rfl, Nat.le_max_left _ _⟩
  · exact ⟨row, rfl, Nat.le_refl _⟩

theorem step_bounded (transaction : Transaction Event Snapshot) (h : Bounded log) :
    Bounded (step contract log transaction) := by
  rcases step_cases contract log transaction with hgrows | ⟨state, input, hstate, hle, hstep⟩
  · exact hgrows.bounded h
  · rw [hstep]
    exact compact_bounded (acknowledged_bounded h hstate hle)

theorem step_cursor (transaction : Transaction Event Snapshot) (h : row ∈ log.cursors.rows) :
    ∃ row', (step contract log transaction).cursors.find row.clientId = some row' ∧ row.cursor ≤ row'.cursor := by
  rcases step_cases contract log transaction with hgrows | ⟨state, input, -, -, hstep⟩
  · rw [hgrows.cursors]
    exact ⟨row, Table.find_key h, Nat.le_refl _⟩
  · rw [hstep, compact_cursors]
    exact acknowledged_find h

theorem step_deleted {transaction : Transaction Event Snapshot} (hevent : event ∈ log.events.rows)
    (hdeleted : event ∉ (step contract log transaction).events.rows) :
    Covered (step contract log transaction) event.cursor ∧ Acknowledged (step contract log transaction) event.cursor := by
  rcases step_cases contract log transaction with hgrows | ⟨state, input, -, -, hstep⟩
  · exact absurd (hgrows.events event hevent) hdeleted
  · rw [hstep] at hdeleted
    rw [hstep]
    exact compact_deleted hevent hdeleted

theorem Retains.covered {compacted : Nat} (h : Retains log state compacted)
    (hpositive : 1 ≤ cursor) (hle : cursor ≤ compacted) : Covered log cursor := by
  rcases h.bridged with hnone | hsnapshots
  · omega
  · obtain ⟨snapshot, hsnapshot⟩ := List.exists_mem_of_ne_nil _ hsnapshots
    exact ⟨snapshot, hsnapshot, hle.trans (h.snapshot_ge snapshot hsnapshot)⟩

end ThreadLog

namespace ThreadConnections

open Fold ThreadLog

variable {Json Event Snapshot : Type} {contract : Contract Json Event Snapshot} {db : ThreadConnections Json}

structure Sound (db : ThreadConnections Json) : Prop where
  wellFormed : db.log.WellFormed
  bounded : Bounded db.log

theorem commit_log {outcome : Except HostedPersistenceError (ThreadConnections Json)}
    (h : ∀ next, outcome = .ok next → next.log = db.log) : (db.commit outcome).log = db.log := by
  cases outcome with
  | error _ => rfl
  | ok next => exact h next rfl

variable {ticket : SocketTicket} {db' : ThreadConnections Json}

theorem issueTicket_log (h : db.issueTicket ticket = .ok db') : db'.log = db.log := by
  rw [issueTicket] at h
  split at h
  · cases h
  · split at h
    · cases h
    · split at h
      · cases h
      · cases h
        rfl

theorem redeemTicket_log {authorized : SocketTicket → Bool} {ticketDigest audience : String} {redeemedAt : Int}
    (h : db.redeemTicket authorized ticketDigest audience redeemedAt = .ok (ticket, db')) : db'.log = db.log := by
  rw [redeemTicket] at h
  split at h
  · cases h
  · split at h
    · cases h
    · cases h
      rfl

theorem revokeTicket_log {ticketId : String} {revokedAt : Int}
    (h : db.revokeTicket ticketId revokedAt = .ok db') : db'.log = db.log := by
  rw [revokeTicket] at h
  split at h
  · cases h
  · cases h
    rfl

theorem step_log (contract : Contract Json Event Snapshot) (db : ThreadConnections Json) (call : Call Event Snapshot) :
    (∃ transaction, (step contract db call).log = db.log.step contract transaction) ∨
      (step contract db call).log = db.log ∨
        ∃ clientId, call = .removeClient clientId ∧
          (step contract db call).log = { db.log with cursors := db.log.cursors.delete fun row => row.clientId = clientId } := by
  cases call with
  | log transaction => exact .inl ⟨transaction, rfl⟩
  | issueTicket ticket => exact .inr (.inl (commit_log fun next h => issueTicket_log h))
  | redeemTicket authorized ticketDigest audience redeemedAt =>
    exact .inr (.inl (commit_log fun next h => (map_snd_eq_ok h).elim fun _ h => redeemTicket_log h))
  | revokeTicket ticketId revokedAt => exact .inr (.inl (commit_log fun next h => revokeTicket_log h))
  | disconnect clientId => exact .inr (.inl rfl)
  | removeClient clientId => exact .inr (.inr ⟨clientId, rfl, rfl⟩)

theorem wellFormed_of_cursors {log : ThreadLog Json} (h : log.WellFormed) (cursors : Table CursorRow.clientId) :
    WellFormed { log with cursors } := by
  cases hstate : log.state with
  | none =>
    rw [WellFormed, hstate] at h
    exact h
  | some state =>
    obtain ⟨compacted, hretains⟩ := h.retains hstate
    exact wellFormed_of_state rfl (hretains.of_rows rfl rfl)

theorem Sound.next (h : Sound db) (call : Call Event Snapshot) : Sound (step contract db call) := by
  rcases step_log contract db call with ⟨transaction, hlog⟩ | hlog | ⟨clientId, -, hlog⟩
  · exact ⟨hlog ▸ step_wellFormed h.wellFormed transaction, hlog ▸ step_bounded transaction h.bounded⟩
  · exact ⟨hlog ▸ h.wellFormed, hlog ▸ h.bounded⟩
  · refine ⟨hlog ▸ wellFormed_of_cursors h.wellFormed _, ?_⟩
    rw [hlog]
    intro row hrow
    exact h.bounded row (Table.mem_delete.mp hrow).1

theorem run_sound (calls : List (Call Event Snapshot)) (h : Sound db) : Sound (run contract calls db) := by
  induction calls generalizing db with
  | nil => exact h
  | cons call calls ih => exact ih (h.next call)

theorem empty_sound : Sound (empty : ThreadConnections Json) := ⟨⟨rfl, rfl⟩, nofun⟩

theorem run_cursor (contract : Contract Json Event Snapshot) (calls : List (Call Event Snapshot))
    (db : ThreadConnections Json) {row : CursorRow} (h : row ∈ db.log.cursors.rows)
    (hstays : .removeClient row.clientId ∉ calls) :
    ∃ row', (run contract calls db).log.cursors.find row.clientId = some row' ∧ row.cursor ≤ row'.cursor := by
  induction calls generalizing db row with
  | nil => exact ⟨row, Table.find_key h, Nat.le_refl _⟩
  | cons call calls ih =>
    rw [List.mem_cons, not_or] at hstays
    have hnext : ∃ row₁, (step contract db call).log.cursors.find row.clientId = some row₁ ∧ row.cursor ≤ row₁.cursor := by
      rcases step_log contract db call with ⟨transaction, hlog⟩ | hlog | ⟨clientId, hcall, hlog⟩
      · rw [hlog]
        exact step_cursor transaction h
      · rw [hlog]
        exact ⟨row, Table.find_key h, Nat.le_refl _⟩
      · have hne : row.clientId ≠ clientId := fun heq => hstays.1 (heq ▸ hcall.symm)
        refine ⟨row, ?_, Nat.le_refl _⟩
        rw [hlog]
        dsimp only
        rw [Table.find_delete, Table.find_key h, Option.filter_some, if_pos (by simpa using hne)]
    obtain ⟨row₁, hfind, hle⟩ := hnext
    have hclient : row₁.clientId = row.clientId := Table.key_of_find hfind
    obtain ⟨row', hfind', hle'⟩ := ih (step contract db call) (Table.mem_of_find hfind) (hclient ▸ hstays.2)
    exact ⟨row', hclient ▸ hfind', hle.trans hle'⟩

theorem step_deleted {call : Call Event Snapshot} {event : EventRow Json} (hevent : event ∈ db.log.events.rows)
    (hdeleted : event ∉ (step contract db call).log.events.rows) :
    Covered (step contract db call).log event.cursor ∧ Acknowledged (step contract db call).log event.cursor := by
  rcases step_log contract db call with ⟨transaction, hlog⟩ | hlog | ⟨clientId, -, hlog⟩
  · rw [hlog] at hdeleted
    rw [hlog]
    exact ThreadLog.step_deleted hevent hdeleted
  · rw [hlog] at hdeleted
    exact absurd hevent hdeleted
  · rw [hlog] at hdeleted
    exact absurd hevent hdeleted

/-- Over every run a snapshot stands for what is deleted, and an event is deleted once every client may do without it. -/
theorem log_compacted_safely (contract : Contract Json Event Snapshot) (before after : List (Call Event Snapshot)) :
    let db := run contract before empty
    (db.log.state = none → db.log.events.rows = []) ∧
    (∀ state, db.log.state = some state → ∃ compacted ≤ state.eventCursor,
      db.log.events.rows.map (·.cursor) = List.Ico (compacted + 1) (state.eventCursor + 1) ∧
        (∀ event ∈ db.log.events.rows, event.sequence = event.cursor) ∧
          ∀ cursor, 1 ≤ cursor → cursor ≤ compacted → Covered db.log cursor) ∧
    Bounded db.log ∧
    (∀ row ∈ db.log.cursors.rows, .removeClient row.clientId ∉ after →
      ∃ row', (run contract after db).log.cursors.find row.clientId = some row' ∧ row.cursor ≤ row'.cursor) ∧
    ∀ call, ∀ event ∈ db.log.events.rows, event ∉ (step contract db call).log.events.rows →
      Covered (step contract db call).log event.cursor ∧ Acknowledged (step contract db call).log event.cursor := by
  intro db
  have hsound : Sound db := run_sound before empty_sound
  refine ⟨?_, ?_, hsound.bounded, fun row hrow hstays => run_cursor contract after db hrow hstays,
    fun call event hevent hdeleted => step_deleted hevent hdeleted⟩
  · intro hstate
    have hempty := hsound.wellFormed
    rw [WellFormed, hstate] at hempty
    exact hempty.1
  · intro state hstate
    obtain ⟨compacted, hretains⟩ := hsound.wellFormed.retains hstate
    exact ⟨compacted, hretains.compacted_le, hretains.cursors, hretains.sequences,
      fun cursor hpositive hle => hretains.covered hpositive hle⟩

def sampleTicket : SocketTicket := ⟨"ticket", "digest", "user", "silent", "device", "audience", 10, 0, none, none⟩

def sampleCalls : List (Call String String) :=
  [.log (.initializeThread (.ok ())), .log (.appendEvents ⟨id, id⟩ ⟨["first"], some "snapshot", "now"⟩),
    .issueTicket sampleTicket, .redeemTicket (fun _ => true) "digest" "audience" 1]

/-- An event is deleted that the client of an open connection has not acknowledged. -/
theorem silent_connection_ignored :
    let db := run textContract sampleCalls empty
    let acknowledged := step textContract db (.log (.acknowledgeCursor (.ok ()) ⟨"client", 1, "now"⟩))
    db.log.events.rows.map (·.cursor) = [1] ∧ acknowledged.log.events.rows = [] ∧ "silent" ∈ acknowledged.connections ∧
      acknowledged.log.cursors.find "silent" = none := by
  decide

end ThreadConnections

end Rika
