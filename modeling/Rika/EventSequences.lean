import Rika.ThreadEvents

namespace Rika.ThreadEvents

open Assignments (AssignmentRow Millis)
open Fold (bind_eq_ok ite_error_eq_ok)

variable {Json : Type} [DecidableEq Json]

namespace EventDatabase

def admission (db : EventDatabase Json) (request : Request Json) : Option (Origin × AppendEventInput Json) :=
  match request.append with
  | .event input => (db.fencedAssignment request.around input).map fun found => (found.2, input)
  | .recovered input =>
    if input.eventId ≠ input.idempotencyKey then none
    else do
      let assignment ← request.around.assignments.find? fun assignment => assignment.id = input.assignmentId
      let _ ← fencedOperation request.around input
      let _ ← db.findThread assignment.threadId assignment.ownerId
      return (⟨assignment.ownerId, assignment.threadId, input.executorInstanceId⟩, input.toAppendEventInput)

variable {db db' : EventDatabase Json} {around : Surroundings Json} {thread : ThreadRow} {origin : Origin}
  {input : AppendEventInput Json} {event : ThreadEvent Json}

omit [DecidableEq Json] in
theorem findThread_eq_some {threadId ownerId : String} :
    db.findThread threadId ownerId = some thread ↔ db.threads.find threadId = some thread ∧ thread.ownerId = ownerId := by
  rw [findThread, Option.filter_eq_some_iff, decide_eq_true_eq]

theorem serve_of_admission (request : Request Json) : match db.admission request with
    | some (origin, input) => ∃ thread collides, db.threads.find origin.threadId = some thread ∧
        db.serve request = db.recordEvent request.around thread origin input collides
    | none => ∃ error, db.serve request = .error error := by
  obtain ⟨around, append⟩ := request
  cases append with
  | event input =>
    simp only [admission, serve, appendEvent]
    cases hfenced : db.fencedAssignment around input with
    | none => exact ⟨_, rfl⟩
    | some found =>
      obtain ⟨thread, origin⟩ := found
      refine ⟨thread, _, ?_, rfl⟩
      simp only [fencedAssignment, Option.bind_eq_bind, Option.bind_eq_some_iff] at hfenced
      obtain ⟨assignment, -, found, hfound, executorInstanceId, -, hpair⟩ := hfenced
      cases hpair
      exact (findThread_eq_some.mp hfound).1
  | recovered input =>
    simp only [admission, serve, appendRecoveredEvent]
    by_cases hidentity : input.eventId = input.idempotencyKey
    · rw [if_neg (not_not.mpr hidentity), if_neg (not_not.mpr hidentity)]
      cases around.assignments.find? fun assignment => assignment.id = input.assignmentId with
      | none => exact ⟨_, rfl⟩
      | some assignment =>
        cases hoperation : fencedOperation around input with
        | none => exact ⟨_, rfl⟩
        | some operation =>
          simp only [Option.bind_eq_bind, Option.bind_some, Option.isNone_some, Bool.false_eq_true, if_false]
          cases hthread : db.findThread assignment.threadId assignment.ownerId with
          | none => exact ⟨_, rfl⟩
          | some thread => exact ⟨thread, _, (findThread_eq_some.mp hthread).1, rfl⟩
    · rw [if_pos hidentity, if_pos hidentity]
      exact ⟨_, rfl⟩

theorem recordEvent_eq_ok {collides : String} (h : db.recordEvent around thread origin input collides = .ok (event, db')) :
    (db' = db ∧ db.existingRows origin.threadId input = [event] ∧ equivalent event origin input = true) ∨
      ∃ commitCursor, db.existingRows origin.threadId input = [] ∧
        event = eventRow around origin input thread.nextEventSequence commitCursor ∧
        db'.events.rows = db.events.rows ++ [event] ∧ db'.threads = (db.allocateSequence thread).threads := by
  rw [recordEvent] at h
  split at h
  · next existing rest hrows =>
      obtain ⟨hrest, h⟩ := ite_error_eq_ok.mp h
      obtain ⟨hequivalent, h⟩ := ite_error_eq_ok.mp h
      cases h
      rw [not_not] at hrest
      exact .inl ⟨rfl, by rw [hrows, hrest], by simpa using hequivalent⟩
  · next hrows =>
      obtain ⟨⟨commitCursor, allocated⟩, hallocate, h⟩ := bind_eq_ok.mp h
      obtain ⟨inserted, hinsert, h⟩ := bind_eq_ok.mp h
      cases h
      rw [allocateCommitCursor] at hallocate
      split at hallocate
      · cases hallocate
      · cases hallocate
        rw [insertEvent] at hinsert
        split at hinsert
        · cases hinsert
        · split at hinsert
          · cases hinsert
          · next events hevents =>
              cases hinsert
              exact .inr ⟨_, hrows, rfl, (Table.insert_eq_some.mp hevents).2, rfl⟩

theorem equivalent_eventRow (around : Surroundings Json) (origin : Origin) (input : AppendEventInput Json)
    (sequence commitCursor : Nat) : equivalent (eventRow around origin input sequence commitCursor) origin input = true := by
  simp [equivalent, eventRow]

omit [DecidableEq Json] in
theorem mem_existingRows {threadId : String} : event ∈ db.existingRows threadId input ↔
      event ∈ db.events.rows ∧ event.threadId = threadId ∧
        (event.eventId = input.eventId ∨ event.idempotencyKey = input.idempotencyKey) := by
  simp [existingRows]

/-- The events of each thread are numbered from one on, and their keys differ. -/
structure Sound (db : EventDatabase Json) : Prop where
  sequences (threadId : String) :
    (db.eventsOf threadId).map (·.sequence) = List.range' 1 (db.eventsOf threadId).length
  next {threadId thread} (h : db.threads.find threadId = some thread) :
    thread.nextEventSequence = (db.eventsOf threadId).length + 1
  keys {row row'} (h : row ∈ db.events.rows) (h' : row' ∈ db.events.rows) (hthread : row.threadId = row'.threadId)
    (hkey : row.idempotencyKey = row'.idempotencyKey) : row = row'

omit [DecidableEq Json] in
theorem start_sound (threads : Table ThreadRow.id) (ownerCounters : Table OwnerCounter.ownerId) :
    (start threads ownerCounters : EventDatabase Json).Sound where
  sequences _ := rfl
  next {threadId thread} h := by
    rw [start, Table.find_update, Option.map_eq_some_iff] at h
    obtain ⟨created, -, rfl⟩ := h
    rfl
  keys h := absurd h List.not_mem_nil

omit [DecidableEq Json] in
theorem eventsOf_concat (hrows : db'.events.rows = db.events.rows ++ [event]) (threadId : String) :
    db'.eventsOf threadId = if event.threadId = threadId then db.eventsOf threadId ++ [event] else db.eventsOf threadId := by
  rw [eventsOf, Table.select, hrows, List.filter_append, List.filter_singleton]
  split
  · next h =>
      rw [decide_eq_true h]
      rfl
  · next h =>
      rw [decide_eq_false h]
      exact List.append_nil _

theorem Sound.record {collides : String} (h : db.Sound) (hthread : db.threads.find origin.threadId = some thread)
    (hrecord : db.recordEvent around thread origin input collides = .ok (event, db')) : db'.Sound := by
  obtain ⟨rfl, -, -⟩ | ⟨commitCursor, hnone, hevent, hrows, hthreads⟩ := recordEvent_eq_ok hrecord
  · exact h
  · have hkey : thread.id = origin.threadId := Table.key_of_find hthread
    have heventThread : event.threadId = origin.threadId := by rw [hevent]; rfl
    have hsequence : event.sequence = (db.eventsOf origin.threadId).length + 1 := by
      rw [hevent]
      exact h.next hthread
    have hnew : ∀ row ∈ db.events.rows, row.threadId = event.threadId → row.idempotencyKey ≠ event.idempotencyKey := by
      intro row hrow hsame hused
      have hmem : row ∈ db.existingRows origin.threadId input :=
        mem_existingRows.mpr ⟨hrow, hsame.trans heventThread, .inr (hused.trans (by rw [hevent]; rfl))⟩
      rw [hnone] at hmem
      cases hmem
    refine ⟨fun threadId => ?_, fun {threadId found} hfound => ?_, fun {row row'} hrow hrow' hsame hused => ?_⟩
    · rw [eventsOf_concat hrows]
      split
      · next hsame =>
          rw [List.map_append, h.sequences, List.length_append, List.length_singleton, List.range'_concat, List.map_singleton,
            hsequence, ← hsame, heventThread, Nat.one_mul, Nat.add_comm 1]
      · exact h.sequences threadId
    · rw [hthreads, allocateSequence, Table.find_update, Option.map_eq_some_iff] at hfound
      obtain ⟨old, hold, rfl⟩ := hfound
      have hid : old.id = threadId := Table.key_of_find hold
      rw [eventsOf_concat hrows, heventThread]
      by_cases hsame : origin.threadId = threadId
      · rw [if_pos (decide_eq_true (hid.trans (hsame.symm.trans hkey.symm))), if_pos hsame, List.length_append]
        exact congrArg (· + 1) (h.next hold)
      · have hother : ¬old.id = thread.id := fun heq => hsame (hkey.symm.trans (heq.symm.trans hid))
        rw [if_neg (by simpa using hother), if_neg hsame]
        exact h.next hold
    · rw [hrows, List.mem_append, List.mem_singleton] at hrow hrow'
      obtain hrow | rfl := hrow
      · obtain hrow' | rfl := hrow'
        · exact h.keys hrow hrow' hsame hused
        · exact absurd hused (hnew row hrow hsame)
      · obtain hrow' | rfl := hrow'
        · exact absurd hused.symm (hnew row' hrow' hsame.symm)
        · rfl

theorem eq_singleton_of_nodup {α : Type*} {xs : List α} {x : α} (hnodup : xs.Nodup) (hx : x ∈ xs)
    (hall : ∀ y ∈ xs, y = x) : xs = [x] := by
  have hreplicate := List.eq_replicate_of_mem hall
  rw [hreplicate, List.nodup_replicate] at hnodup
  have hpos := List.length_pos_of_mem hx
  rw [hreplicate, show xs.length = 1 by omega]
  rfl

theorem Sound.serve (h : db.Sound) {request : Request Json} (hserve : db.serve request = .ok (event, db')) :
    db'.Sound ∧ ∃ origin input, db.admission request = some (origin, input) ∧ equivalent event origin input = true ∧
      (db' = db ∧ event ∈ db.events.rows ∨
        db'.events.rows = db.events.rows ++ [event] ∧ event.sequence = (db.eventsOf origin.threadId).length + 1) := by
  have hadmission := db.serve_of_admission request
  cases hfound : db.admission request with
  | none =>
    rw [hfound] at hadmission
    obtain ⟨error, herror⟩ := hadmission
    rw [herror] at hserve
    cases hserve
  | some found =>
    obtain ⟨origin, input⟩ := found
    rw [hfound] at hadmission
    obtain ⟨thread, collides, hthread, hrecord⟩ := hadmission
    rw [hrecord] at hserve
    refine ⟨h.record hthread hserve, origin, input, rfl, ?_⟩
    obtain ⟨rfl, hrows, hequivalent⟩ | ⟨commitCursor, -, hevent, hrows, -⟩ := recordEvent_eq_ok hserve
    · have hmem : event ∈ db'.existingRows origin.threadId input := by
        rw [hrows]
        exact List.mem_singleton_self _
      exact ⟨hequivalent, .inl ⟨rfl, (mem_existingRows.mp hmem).1⟩⟩
    · refine ⟨?_, .inr ⟨hrows, ?_⟩⟩
      · rw [hevent]
        exact equivalent_eventRow ..
      · rw [hevent]
        exact h.next hthread

theorem Sound.step (h : db.Sound) (request : Request Json) :
    (db.next request).Sound ∧ db.events.rows <+: (db.next request).events.rows := by
  rw [EventDatabase.next]
  cases hserve : db.serve request with
  | error error => exact ⟨h, List.prefix_refl _⟩
  | ok answer =>
    obtain ⟨hsound, origin, input, -, -, ⟨hsame, -⟩ | ⟨hrows, -⟩⟩ := h.serve hserve
    · refine ⟨hsound, ?_⟩
      exact hsame.symm ▸ List.prefix_refl db.events.rows
    · refine ⟨hsound, ?_⟩
      change db.events.rows <+: answer.2.events.rows
      rw [hrows]
      exact List.prefix_append _ _

theorem run_sound (h : db.Sound) (requests : List (Request Json)) :
    (db.run requests).Sound ∧ db.events.rows <+: (db.run requests).events.rows := by
  induction requests generalizing db with
  | nil => exact ⟨h, List.prefix_refl _⟩
  | cons request requests ih =>
    obtain ⟨hsound, hinit⟩ := h.step request
    obtain ⟨hsound', hinit'⟩ := ih hsound
    exact ⟨hsound', hinit.trans hinit'⟩

theorem Sound.serve_taken (h : db.Sound) {request : Request Json} (hadmission : db.admission request = some (origin, input))
    (hevent : event ∈ db.events.rows) (hthread : event.threadId = origin.threadId)
    (htaken : event.eventId = input.eventId ∨ event.idempotencyKey = input.idempotencyKey) :
    if equivalent event origin input = true then db.serve request = .ok (event, db)
    else ∃ message, db.serve request = .error ⟨.conflict, message⟩ := by
  have hserve := db.serve_of_admission request
  rw [hadmission] at hserve
  obtain ⟨thread, collides, -, hrecord⟩ := hserve
  have hmem : event ∈ db.existingRows origin.threadId input := mem_existingRows.mpr ⟨hevent, hthread, htaken⟩
  rw [hrecord, recordEvent]
  split
  · next hequivalent =>
      have hfields := hequivalent
      simp only [equivalent, Bool.and_eq_true, decide_eq_true_eq] at hfields
      have hone : db.existingRows origin.threadId input = [event] := by
        refine eq_singleton_of_nodup ?_ hmem fun row hrow => ?_
        · exact (List.Nodup.of_map _ db.events.unique).filter _
        · obtain ⟨hrow, hsame, hid | hkey⟩ := mem_existingRows.mp hrow
          · refine db.events.eq_of_key_eq hrow hevent (Prod.ext (hsame.trans hthread.symm) ?_)
            exact hid.trans hfields.1.1.1.1.1.1.1.2.symm
          · exact h.keys hrow hevent (hsame.trans hthread.symm) (hkey.trans hfields.1.1.1.1.1.1.2.symm)
      rw [hone]
      simp [hequivalent]
  · next hequivalent =>
      split
      · next existing rest hrows =>
          split
          · exact ⟨collides, rfl⟩
          · next hrest =>
              rw [hrows, not_not.mp hrest, List.mem_singleton] at hmem
              rw [hmem] at hequivalent
              rw [if_pos (by simpa using hequivalent)]
              exact ⟨_, rfl⟩
      · next hrows =>
          rw [hrows] at hmem
          cases hmem

/-- In every run the events of a thread are numbered as they were stored and stay so, and a taken identity or key adds
none. -/
theorem events_sequenced (threads : Table ThreadRow.id) (ownerCounters : Table OwnerCounter.ownerId)
    (before after : List (Request Json)) :
    let db := (start threads ownerCounters).run before
    let later := db.run after
    (∀ threadId, (db.eventsOf threadId).map (·.sequence) = List.range' 1 (db.eventsOf threadId).length ∧
      ∀ thread, db.threads.find threadId = some thread →
        thread.nextEventSequence = (db.eventsOf threadId).length + 1) ∧
      db.events.rows <+: later.events.rows ∧
      (∀ request event db', db.serve request = .ok (event, db') →
        ∃ origin input, db.admission request = some (origin, input) ∧ equivalent event origin input = true ∧
          (db' = db ∧ event ∈ db.events.rows ∨
            db'.events.rows = db.events.rows ++ [event] ∧ event.sequence = (db.eventsOf origin.threadId).length + 1)) ∧
      ∀ request origin input event, event ∈ db.events.rows → later.admission request = some (origin, input) →
        event.threadId = origin.threadId →
        event.eventId = input.eventId ∨ event.idempotencyKey = input.idempotencyKey →
          later.next request = later ∧
            if equivalent event origin input = true then later.serve request = .ok (event, later)
            else ∃ message, later.serve request = .error ⟨.conflict, message⟩ := by
  intro db later
  have hsound : db.Sound := (run_sound (start_sound threads ownerCounters) before).1
  obtain ⟨hlater, hkept⟩ := run_sound hsound after
  refine ⟨fun threadId => ⟨hsound.sequences threadId, fun thread => hsound.next⟩, hkept,
    fun request event db' hserve => (hsound.serve hserve).2, ?_⟩
  intro request origin input event hevent hadmission hthread htaken
  have hserve := hlater.serve_taken hadmission (hkept.subset hevent) hthread htaken
  refine ⟨?_, hserve⟩
  rw [next]
  split at hserve
  · rw [hserve]
    rfl
  · obtain ⟨message, hserve⟩ := hserve
    rw [hserve]
    rfl

def sampleInput : AppendEventInput String := ⟨"event", "key", "assignment", 1, 1, none, "content"⟩

def sampleRow : AssignmentRow where
  id := "assignment"
  ownerId := "owner"
  threadId := "thread"
  workspaceId := "workspace"
  executorKind := .orb
  placement := .orbPlacement ⟨"template", "scope", none⟩
  checkout := none
  workspaceSeed := none
  generation := 1
  revision := 3
  lastLeaseEpoch := 1
  lifecycle := .active
  capabilityGeneration := none
  capabilitySnapshot := none
  providerInstanceId := some "sandbox"
  bootstrapDigest := none
  bootstrapExpiresAt := none
  executorInstanceId := some "executor"
  processIncarnation := some "process"
  sessionDigest := some "session"
  leaseEpoch := some 1
  leaseExpiresAt := some 1000
  cursor := ⟨0, ""⟩
  latestCheckpointId := none
  lastActiveAt := 0
  createdAt := 0
  updatedAt := 0

def sampleAppend (now : Millis) : Request String := ⟨⟨now, [sampleRow], [], fun _ => true⟩, .event sampleInput⟩

def sampleThreads : Table ThreadRow.id := ⟨[⟨"thread", "owner", 1⟩], List.nodup_singleton _⟩

def sampleCounters : Table OwnerCounter.ownerId := ⟨[⟨"owner", 1⟩], List.nodup_singleton _⟩

/-- An append that is repeated with the same content once its lease has expired is refused. -/
theorem repeated_append_refused :
    let db := (start sampleThreads sampleCounters : EventDatabase String)
    ((db.serve (sampleAppend 0)).toOption.map fun answer => answer.1.sequence) = some 1 ∧
      ((db.next (sampleAppend 0)).serve (sampleAppend 2000)).toOption.map Prod.fst = none := by
  decide +kernel

end EventDatabase

end Rika.ThreadEvents
