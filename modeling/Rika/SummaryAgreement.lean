import Mathlib.Data.List.Induction
import Rika.ThreadSummaries

namespace Rika.ThreadSummaries

open Table (find_set key_of_find mem_delete mem_of_find mem_set)

variable {db db' : Database} {memory : Memory} {history : List Operation}

section Histories

def Operation.timed : Operation → Bool
  | putThread row => 0 ≤ row.createdAt
  | markRead _ now => 0 ≤ now
  | putTurn _ | dequeueTurn _ | ensureTurn _ _ _ | replaceTurn _ => true

/-- Times are those of a clock, and a turn that is created has an id of its own. -/
structure Regular (history : List Operation) : Prop where
  timed : ∀ operation ∈ history, operation.timed = true
  fresh : ∀ before row after, history = before ++ .putTurn row :: after →
    ∀ db, Database.run before = .ok db → db.turns.find row.id = none → ∀ other, .putTurn other ∈ before → other.id ≠ row.id

variable {operation : Operation}

theorem Regular.of_concat (h : Regular (history ++ [operation])) : Regular history := by
  refine ⟨fun other hmem => h.timed other (List.mem_append_left _ hmem), fun before row after hsplit => ?_⟩
  refine h.fresh before row (after ++ [operation]) ?_
  rw [hsplit, List.append_assoc, List.cons_append]

theorem run_concat (h : Database.run (history ++ [operation]) = .ok db') :
    ∃ db, Database.run history = .ok db ∧ db.apply operation = .ok db' := by
  rw [Database.run, List.foldlM_append] at h
  obtain ⟨db, hdb, h⟩ := Fold.bind_eq_ok.mp h
  obtain ⟨next, hnext, h⟩ := Fold.bind_eq_ok.mp h
  cases h
  exact ⟨db, hdb, hnext⟩

theorem memoryRun_concat (history : List Operation) (operation : Operation) :
    Memory.run (history ++ [operation]) = (Memory.run history).apply operation := by
  rw [Memory.run, List.foldl_append]
  rfl

end Histories

section Agreement

def ActivityRow.activity (row : ActivityRow) : Activity :=
  ⟨row.turnId, row.threadId, row.projectedCursor, row.complete, ⟨row.added, row.modified, row.removed⟩, row.lastEventAt,
    row.updatedAt⟩

structure Consistent (db : Database) : Prop where
  referenced : ∀ row ∈ db.activity.rows, (db.turns.find row.turnId).isSome = true
  placed : ∀ turn ∈ db.turns.rows, (db.threads.find turn.threadId).isSome = true
  totals : ∀ row ∈ db.activity.rows, 0 ≤ row.added ∧ 0 ≤ row.modified ∧ 0 ≤ row.removed
  timed : ∀ thread ∈ db.threads.rows, 0 ≤ thread.createdAt
  outbox : db.deletionOutbox = []

/-- The activities of the turns that are there, and all that is read, are those of the tables. -/
structure Agrees (db : Database) (memory : Memory) : Prop where
  activity : ∀ turnId, (db.turns.find turnId).isSome = true →
    memory.activities.get turnId = (db.activity.find turnId).map ActivityRow.activity
  readAt : ∀ threadId, memory.readAt.get threadId = (db.readState.find threadId).map (·.lastReadAt)

structure Put (history : List Operation) (db : Database) (memory : Memory) : Prop where
  turns : ∀ turn ∈ db.turns.rows, ∃ row, .putTurn row ∈ history ∧ row.id = turn.id
  activities : ∀ turnId activity, memory.activities.get turnId = some activity →
    ∃ row, .putTurn row ∈ history ∧ row.id = turnId

structure Sound (history : List Operation) (db : Database) (memory : Memory) : Prop where
  consistent : Consistent db
  agrees : Agrees db memory
  put : Put history db memory

theorem Put.concat (h : Put history db memory) (operation : Operation) : Put (history ++ [operation]) db memory := by
  constructor
  · intro turn hmem
    obtain ⟨row, hrow, hid⟩ := h.turns turn hmem
    exact ⟨row, List.mem_append_left _ hrow, hid⟩
  · intro turnId activity hget
    obtain ⟨row, hrow, hid⟩ := h.activities turnId activity hget
    exact ⟨row, List.mem_append_left _ hrow, hid⟩

theorem isSome_find_set {ρ κ : Type} [DecidableEq κ] {key : ρ → κ} {table : Table key} (row : ρ) {k : κ}
    (h : (table.find k).isSome = true) : ((table.set row).find k).isSome = true := by
  rw [find_set]
  split
  · rfl
  · exact h

theorem Sound.putThread (h : Sound history db memory) (row : ThreadRow) (htimed : 0 ≤ row.createdAt) :
    Sound (history ++ [.putThread row]) { db with threads := db.threads.set row } memory := by
  refine ⟨⟨h.consistent.referenced, fun turn hmem => isSome_find_set row (h.consistent.placed turn hmem),
    h.consistent.totals, fun thread hmem => ?_, h.consistent.outbox⟩, ⟨h.agrees.activity, h.agrees.readAt⟩, ?_⟩
  · rcases mem_set.mp hmem with rfl | ⟨hmem, _⟩
    · exact htimed
    · exact h.consistent.timed thread hmem
  · exact ⟨(h.put.concat _).turns, (h.put.concat _).activities⟩

theorem Sound.putTurn (h : Sound history db memory) (row : TurnRow)
    (hfresh : db.turns.find row.id = none → ∀ other, .putTurn other ∈ history → other.id ≠ row.id)
    (hthread : (db.threads.find row.threadId).isSome = true) :
    Sound (history ++ [.putTurn row]) { db with turns := db.turns.set row } memory := by
  refine ⟨⟨fun activity hmem => isSome_find_set row (h.consistent.referenced activity hmem), fun turn hmem => ?_,
    h.consistent.totals, h.consistent.timed, h.consistent.outbox⟩, ⟨fun turnId hturn => ?_, h.agrees.readAt⟩,
    fun turn hmem => ?_, (h.put.concat _).activities⟩
  · rcases mem_set.mp hmem with rfl | ⟨hmem, _⟩
    · exact hthread
    · exact h.consistent.placed turn hmem
  · cases hold : db.turns.find turnId with
    | some turn => exact h.agrees.activity turnId (by rw [hold]; rfl)
    | none =>
      -- A turn that was not there is a new one, of which nothing is kept.
      have hid : turnId = row.id := by
        by_contra hne
        dsimp only at hturn
        rw [find_set, if_neg hne, hold] at hturn
        cases hturn
      subst hid
      have hnoActivity : db.activity.find row.id = none := by
        rw [Table.find_eq_none]
        intro activity hmem hid
        have hreferenced := h.consistent.referenced activity hmem
        rw [hid, hold] at hreferenced
        cases hreferenced
      cases hget : memory.activities.get row.id with
      | none =>
        dsimp only
        rw [hnoActivity]
        rfl
      | some activity =>
        obtain ⟨other, hother, hid⟩ := h.put.activities row.id activity hget
        exact absurd hid (hfresh hold other hother)
  · rcases mem_set.mp hmem with rfl | ⟨hmem, _⟩
    · exact ⟨turn, List.mem_append_right _ (List.mem_singleton_self _), rfl⟩
    · exact (h.put.concat _).turns turn hmem

theorem isSome_find_dequeueTurn (turnId other : String) :
    ((dequeueTurn db turnId).turns.find other).isSome = true ↔ (db.turns.find other).isSome = true ∧ other ≠ turnId := by
  rw [dequeueTurn, Table.find_delete]
  cases hfind : db.turns.find other with
  | none => simp
  | some turn =>
    have hid := key_of_find hfind
    simp [Option.filter, hid]

variable {turnId threadId : String} {now : Finite}

theorem find_activity_dequeueTurn {other : String} (hne : other ≠ turnId) :
    (dequeueTurn db turnId).activity.find other = db.activity.find other := by
  rw [dequeueTurn, Table.find_delete]
  cases hfind : db.activity.find other with
  | none => rfl
  | some row =>
    have hid := key_of_find hfind
    simp [Option.filter, hid, hne]

section

variable (h : Sound history db memory)

include h

theorem Sound.dequeueTurn (turnId : String) :
    Sound (history ++ [.dequeueTurn turnId]) (ThreadSummaries.dequeueTurn db turnId) memory := by
  refine ⟨⟨fun row hmem => ?_, fun turn hmem => ?_, fun row hmem => ?_, h.consistent.timed, h.consistent.outbox⟩,
    ⟨fun other hother => ?_, h.agrees.readAt⟩, fun turn hmem => ?_, (h.put.concat _).activities⟩
  · obtain ⟨hmem, hne⟩ := mem_delete.mp hmem
    exact (isSome_find_dequeueTurn turnId _).mpr ⟨h.consistent.referenced row hmem, by simpa using hne⟩
  · exact h.consistent.placed turn (mem_delete.mp hmem).1
  · exact h.consistent.totals row (mem_delete.mp hmem).1
  · obtain ⟨hturn, hne⟩ := (isSome_find_dequeueTurn turnId other).mp hother
    rw [h.agrees.activity other hturn, find_activity_dequeueTurn hne]
  · exact (h.put.concat _).turns turn (mem_delete.mp hmem).1

theorem Sound.setActivity (input : TurnActivityInput) (operation : Operation)
    (hreferenced : referenced db input.turnId input.threadId = true)
    (htotals : 0 ≤ input.editTotals.added ∧ 0 ≤ input.editTotals.modified ∧ 0 ≤ input.editTotals.removed) :
    Sound (history ++ [operation]) { db with activity := db.activity.set (activityRow input) }
      { memory with activities := memory.activities.set input.turnId (activityOf input) } := by
  obtain ⟨hturn, _⟩ := (Bool.and_eq_true_iff.mp hreferenced : _ ∧ _)
  refine ⟨⟨fun row hmem => ?_, h.consistent.placed, fun row hmem => ?_, h.consistent.timed, h.consistent.outbox⟩,
    ⟨fun turnId hturnId => ?_, h.agrees.readAt⟩, (h.put.concat _).turns, fun turnId activity hget => ?_⟩
  · rcases mem_set.mp hmem with rfl | ⟨hmem, _⟩
    · exact hturn
    · exact h.consistent.referenced row hmem
  · rcases mem_set.mp hmem with rfl | ⟨hmem, _⟩
    · exact htotals
    · exact h.consistent.totals row hmem
  · have hset : (db.activity.set (activityRow input)).find turnId =
        if turnId = input.turnId then some (activityRow input) else db.activity.find turnId :=
      find_set _ _ _
    dsimp only at hturnId ⊢
    rw [InsertionMap.get_set, hset]
    by_cases heq : turnId = input.turnId
    · rw [if_pos heq, if_pos heq]
      rfl
    · rw [if_neg heq, if_neg heq]
      exact h.agrees.activity turnId hturnId
  · dsimp only at hget
    rw [InsertionMap.get_set] at hget
    split at hget
    · next heq =>
        obtain ⟨turn, hfind⟩ := Option.isSome_iff_exists.mp hturn
        obtain ⟨row, hrow, hid⟩ := (h.put.concat operation).turns turn (mem_of_find hfind)
        exact ⟨row, hrow, hid.trans ((key_of_find hfind).trans heq.symm)⟩
    · exact (h.put.concat operation).activities turnId activity hget

theorem Sound.skip (operation : Operation) : Sound (history ++ [operation]) db memory :=
  ⟨h.consistent, h.agrees, h.put.concat operation⟩

theorem Sound.ensureTurn (happly : ensureTurn db turnId threadId now = .ok db') :
    Sound (history ++ [.ensureTurn turnId threadId now]) db' (memory.apply (.ensureTurn turnId threadId now)) := by
  rw [ThreadSummaries.ensureTurn] at happly
  rw [Memory.apply]
  cases hfind : db.activity.find turnId with
  | some row =>
    rw [hfind] at happly
    cases happly
    have hturn := h.consistent.referenced row (mem_of_find hfind)
    rw [key_of_find hfind] at hturn
    rw [if_pos]
    · exact h.skip _
    · rw [InsertionMap.has, h.agrees.activity turnId hturn, hfind]
      rfl
  | none =>
    rw [hfind] at happly
    dsimp only at happly
    split at happly
    · next hreferenced =>
        cases happly
        obtain ⟨hturn, _⟩ := (Bool.and_eq_true_iff.mp hreferenced : _ ∧ _)
        rw [if_neg]
        · exact h.setActivity (newActivity turnId threadId now) _ hreferenced ⟨le_rfl, le_rfl, le_rfl⟩
        · rw [InsertionMap.has, h.agrees.activity turnId hturn, hfind]
          exact Bool.false_ne_true
    · cases happly

end

theorem checkTotal_eq_ok {value : Int} {checked : Unit} (h : checkTotal value = .ok checked) : 0 ≤ value := by
  rw [checkTotal] at h
  split at h
  · cases h
  split at h
  · cases h
  · next hvalue => exact not_lt.mp hvalue

theorem Sound.replaceTurn (h : Sound history db memory) {input : TurnActivityInput}
    (happly : replaceTurn db input = .ok db') :
    Sound (history ++ [.replaceTurn input]) db' (memory.apply (.replaceTurn input)) := by
  unfold ThreadSummaries.replaceTurn at happly
  obtain ⟨_, hadded, happly⟩ := Fold.bind_eq_ok.mp happly
  obtain ⟨_, hmodified, happly⟩ := Fold.bind_eq_ok.mp happly
  obtain ⟨_, hremoved, happly⟩ := Fold.bind_eq_ok.mp happly
  rw [Memory.apply]
  have hstale : (db.turns.find input.turnId).isSome = true →
      ((memory.activities.get input.turnId).any fun activity => decide (input.now < activity.updatedAt)) =
        (db.activity.find input.turnId).any fun row => decide (input.now < row.updatedAt) := by
    intro hturn
    rw [h.agrees.activity _ hturn]
    cases db.activity.find input.turnId <;> rfl
  split at happly
  · next hnewer =>
      cases happly
      cases hfind : db.activity.find input.turnId with
      | none =>
        rw [hfind] at hnewer
        cases hnewer
      | some row =>
        have hturn := h.consistent.referenced row (mem_of_find hfind)
        rw [key_of_find hfind] at hturn
        rw [if_pos ((hstale hturn).trans hnewer)]
        exact h.skip _
  · next hnewer =>
      split at happly
      · next hreferenced =>
          cases happly
          obtain ⟨hturn, _⟩ := (Bool.and_eq_true_iff.mp hreferenced : _ ∧ _)
          rw [if_neg (by rwa [hstale hturn])]
          exact h.setActivity input _ hreferenced
            ⟨checkTotal_eq_ok hadded, checkTotal_eq_ok hmodified, checkTotal_eq_ok hremoved⟩
      · cases happly

theorem Sound.markRead (h : Sound history db memory) (htimed : 0 ≤ now) (happly : markRead db threadId now = .ok db') :
    Sound (history ++ [.markRead threadId now]) db' (memory.apply (.markRead threadId now)) := by
  rw [ThreadSummaries.markRead] at happly
  split at happly
  · cases happly
    have hput := h.put.concat (.markRead threadId now)
    refine ⟨⟨h.consistent.referenced, h.consistent.placed, h.consistent.totals, h.consistent.timed, h.consistent.outbox⟩,
      ⟨h.agrees.activity, fun other => ?_⟩, hput.turns, hput.activities⟩
    rw [Memory.apply]
    dsimp only
    rw [InsertionMap.get_set, find_set]
    by_cases heq : other = threadId
    · rw [if_pos heq, if_pos heq, h.agrees.readAt threadId, Option.map_some]
      cases db.readState.find threadId with
      | none => exact congrArg some (max_eq_right htimed)
      | some row => rfl
    · rw [if_neg heq, if_neg heq]
      exact h.agrees.readAt other
  · cases happly

theorem Sound.apply (h : Sound history db memory) {operation : Operation} (htimed : operation.timed = true)
    (hfresh : ∀ row, operation = .putTurn row → db.turns.find row.id = none →
      ∀ other, .putTurn other ∈ history → other.id ≠ row.id)
    (happly : db.apply operation = .ok db') : Sound (history ++ [operation]) db' (memory.apply operation) := by
  cases operation with
  | putThread row =>
    cases happly
    exact h.putThread row (of_decide_eq_true htimed)
  | putTurn row =>
    rw [Database.apply] at happly
    split at happly
    · next hthread =>
        cases happly
        exact h.putTurn row (hfresh row rfl) hthread
    · cases happly
  | dequeueTurn turnId =>
    cases happly
    exact h.dequeueTurn turnId
  | ensureTurn turnId threadId now => exact h.ensureTurn happly
  | replaceTurn input => exact h.replaceTurn happly
  | markRead threadId now => exact h.markRead (of_decide_eq_true htimed) happly

theorem sound_empty : Sound [] .empty .empty where
  consistent := by
    refine ⟨fun row hmem => ?_, fun turn hmem => ?_, fun row hmem => ?_, fun thread hmem => ?_, rfl⟩ <;> cases hmem
  agrees := ⟨fun _ _ => rfl, fun _ => rfl⟩
  put := by
    refine ⟨fun turn hmem => ?_, fun turnId activity hget => ?_⟩
    · cases hmem
    · cases hget

theorem sound_run (h : Regular history) (hrun : Database.run history = .ok db) : Sound history db (Memory.run history) := by
  induction history using List.reverseRecOn generalizing db with
  | nil =>
    cases hrun
    exact sound_empty
  | append_singleton history operation ih =>
    obtain ⟨before, hbefore, happly⟩ := run_concat hrun
    rw [memoryRun_concat]
    refine (ih h.of_concat hbefore).apply (h.timed operation (by simp)) (fun row heq => ?_) happly
    subst heq
    exact h.fresh history row [] rfl before hbefore

end Agreement

end Rika.ThreadSummaries
