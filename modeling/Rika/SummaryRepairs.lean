import Rika.SummaryPages

namespace Rika.ThreadSummaries

variable {collation : Collation} {db : Database} {memory : Memory} {ownerId threadId : String}

section Candidates

def isCandidate (db : Database) (ownerId : String) (turn : TurnRow) : Bool :=
  (db.threads.find turn.threadId).any (fun thread => thread.ownerId = ownerId) &&
    !db.deletionOutbox.contains turn.threadId && turn.isAgent && needsRepair turn (db.activity.find turn.id)

def threadCandidates (collation : Collation) (db : Database) (threadId : String) : List TurnRow :=
  (listTurns collation db threadId).filter fun turn => turn.isAgent && needsRepair turn (db.activity.find turn.id)

theorem needsRepair_eq (hagrees : Agrees db memory) {turn : TurnRow} (hmem : turn ∈ db.turns.rows) :
    memory.needsRepair turn = needsRepair turn (db.activity.find turn.id) := by
  rw [Memory.needsRepair, get_of_mem hagrees hmem]
  cases db.activity.find turn.id with
  | none => rfl
  | some row => cases turn with
    | mk id threadId turnKind prompt promptParts status => cases status <;> rfl

theorem mem_listTurns {turn : TurnRow} :
    turn ∈ listTurns collation db threadId ↔ turn ∈ db.turns.rows ∧ turn.threadId = threadId := by
  rw [(listTurns_perm threadId).mem_iff, turnsOf, List.mem_filter, decide_eq_true_eq]

theorem filter_listTurns (hagrees : Agrees db memory) :
    ((listTurns collation db threadId).filter fun turn => turn.isAgent && memory.needsRepair turn) =
      threadCandidates collation db threadId :=
  List.filter_congr fun turn hmem => by rw [needsRepair_eq hagrees (mem_listTurns.mp hmem).1]

theorem memoryCandidates_eq (hagrees : Agrees db memory) : memory.candidates collation db ownerId =
      (hundred collation db ownerId).flatMap fun thread => threadCandidates collation db thread.id := by
  rw [Memory.candidates, List.filter_flatMap]
  exact List.flatMap_congr fun thread _ => filter_listTurns hagrees

theorem threadId_of_mem {turn : TurnRow} (h : turn ∈ threadCandidates collation db threadId) : turn.threadId = threadId :=
  (mem_listTurns.mp (List.mem_filter.mp h).1).2

theorem filter_flatMap_threadCandidates {threads : List ThreadRow} (hnodup : (threads.map ThreadRow.key).Nodup) :
    (threads.flatMap fun thread => threadCandidates collation db thread.id).filter
        (fun turn => turn.threadId = threadId) =
      if threadId ∈ threads.map ThreadRow.key then threadCandidates collation db threadId else [] := by
  induction threads with
  | nil => rfl
  | cons thread threads ih =>
    rw [List.map_cons, List.nodup_cons] at hnodup
    rw [List.flatMap_cons, List.filter_append, ih hnodup.2]
    simp only [List.map_cons, List.mem_cons]
    by_cases heq : thread.id = threadId
    · subst heq
      have hnot : thread.id ∉ threads.map ThreadRow.key := hnodup.1
      have hhead : thread.id = thread.key ∨ thread.id ∈ threads.map ThreadRow.key := Or.inl rfl
      rw [if_neg hnot, List.append_nil, if_pos hhead, List.filter_eq_self]
      exact fun turn hmem => decide_eq_true (threadId_of_mem hmem)
    · have hnil : (threadCandidates collation db thread.id).filter (fun turn => turn.threadId = threadId) = [] := by
        rw [List.filter_eq_nil_iff]
        intro turn hmem
        rw [threadId_of_mem hmem]
        simpa using heq
      have hiff : (threadId = thread.key ∨ threadId ∈ threads.map ThreadRow.key) ↔
          threadId ∈ threads.map ThreadRow.key := or_iff_right (Ne.symm heq)
      rw [hnil, List.nil_append]
      simp only [hiff]

theorem filter_candidates (hstrict : Collation.Strict collation) (houtbox : db.deletionOutbox = []) :
    (candidates collation db ownerId).filter (fun turn => turn.threadId = threadId) =
      if (db.threads.find threadId).any (fun thread => thread.ownerId = ownerId) then
        threadCandidates collation db threadId else [] := by
  have hsame : ∀ rows : List TurnRow, (∀ turn ∈ rows, turn ∈ db.turns.rows) → ∀ left ∈ rows, ∀ right ∈ rows,
      compareTurns collation left right = .eq → left = right :=
    fun rows hrows left hleft right hright => eq_of_compareTurns hstrict (hrows left hleft) (hrows right hright)
  have hcandidates : ∀ turn ∈ db.turns.rows.filter (isCandidate db ownerId), turn ∈ db.turns.rows :=
    fun turn hmem => (List.mem_filter.mp hmem).1
  change (StableSort.toSorted (compareTurns collation) (db.turns.rows.filter (isCandidate db ownerId))).filter _ = _
  rw [← StableSort.toSorted_filter _ (hsame _ hcandidates), threadCandidates, listTurns,
    ← StableSort.toSorted_filter _ (hsame (db.turns.rows.filter fun turn => turn.threadId = threadId) turnsOf_subset),
    List.filter_filter, List.filter_filter]
  split
  · next hown =>
      congr 1
      refine List.filter_congr fun turn _ => ?_
      by_cases heq : turn.threadId = threadId
      · rw [isCandidate, heq, hown, houtbox]
        simp
      · simp [heq]
  · next hother =>
      have hnil : (db.turns.rows.filter fun turn => decide (turn.threadId = threadId) && isCandidate db ownerId turn) =
          [] := by
        rw [List.filter_eq_nil_iff]
        intro turn _ h
        obtain ⟨heq, hcandidate⟩ := (Bool.and_eq_true_iff.mp h : _ ∧ _)
        rw [isCandidate, of_decide_eq_true heq, Bool.eq_false_of_not_eq_true hother] at hcandidate
        cases hcandidate
      rw [hnil, StableSort.toSorted_nil]

theorem any_find_iff {threads : Table ThreadRow.key} (hown : ∀ thread ∈ threads.rows, thread.ownerId = ownerId) :
    (threads.find threadId).any (fun thread => thread.ownerId = ownerId) = true ↔
      threadId ∈ threads.rows.map ThreadRow.key := by
  cases hfind : threads.find threadId with
  | none => simpa using Table.find_eq_none_iff_notMem.mp hfind
  | some thread =>
    obtain ⟨hmem, rfl⟩ := Table.find_eq_some.mp hfind
    exact iff_of_true (decide_eq_true (hown thread hmem)) (List.mem_map_of_mem hmem)

/-- Each thread's candidates are the same ones in the same order, where it is one of the first
hundred. -/
theorem candidates_firstHundred (hstrict : Collation.Strict collation) (hconsistent : Consistent db)
    (hagrees : Agrees db memory) (threadId : String) :
    (memory.candidates collation db ownerId).filter (fun turn => turn.threadId = threadId) =
      (candidates collation (firstHundred collation db ownerId) ownerId).filter fun turn => turn.threadId = threadId := by
  have hown : ∀ thread ∈ (firstHundred collation db ownerId).threads.rows, thread.ownerId = ownerId :=
    fun thread hmem => (mem_hundred hmem).2
  rw [memoryCandidates_eq hagrees, filter_flatMap_threadCandidates nodup_hundred,
    filter_candidates hstrict (show (firstHundred collation db ownerId).deletionOutbox = [] from hconsistent.outbox)]
  refine if_congr ?_ rfl rfl
  exact (any_find_iff hown).symm

/-- An owner with no more than a hundred threads has the same candidates with or without those of
others. -/
theorem candidates_cut (houtbox : db.deletionOutbox = []) (hlength : (ownThreads db ownerId).length ≤ 100) :
    candidates collation (firstHundred collation db ownerId) ownerId = candidates collation db ownerId := by
  have hfind : ∀ threadId, ((firstHundred collation db ownerId).threads.find threadId).any
      (fun thread => thread.ownerId = ownerId) =
        (db.threads.find threadId).any fun thread => thread.ownerId = ownerId := by
    intro threadId
    rw [Bool.eq_iff_iff, any_find_iff fun thread hmem => (mem_hundred hmem).2]
    have hperm := @hundred_perm collation db ownerId houtbox hlength
    change threadId ∈ (hundred collation db ownerId).map ThreadRow.key ↔ _
    rw [(hperm.map _).mem_iff, List.mem_map]
    constructor
    · rintro ⟨thread, hmem, rfl⟩
      obtain ⟨hmem, hown⟩ := List.mem_filter.mp hmem
      rw [Table.find_key hmem]
      exact hown
    · intro hany
      cases hfind : db.threads.find threadId with
      | none =>
        rw [hfind] at hany
        cases hany
      | some thread =>
        rw [hfind] at hany
        obtain ⟨hmem, hkey⟩ := Table.find_eq_some.mp hfind
        exact ⟨thread, List.mem_filter.mpr ⟨hmem, hany⟩, hkey⟩
  rw [candidates, candidates]
  congr 1
  refine List.filter_congr fun turn _ => ?_
  rw [hfind]
  rfl

theorem perm_of_filter_threadId {left right : List TurnRow}
    (h : ∀ threadId, (left.filter fun turn => turn.threadId = threadId) = right.filter fun turn => turn.threadId = threadId) :
    left.Perm right := by
  refine List.perm_iff_count.mpr fun turn => ?_
  have hcount : ∀ turns : List TurnRow,
      (turns.filter fun other => other.threadId = turn.threadId).count turn = turns.count turn :=
    fun turns => List.count_filter (decide_eq_true rfl)
  rw [← hcount left, ← hcount right, h]

end Candidates

section Samples

def sampleThread (id : String) (archived : Bool) (createdAt updatedAt : Finite) : ThreadRow :=
  ⟨⟨id, "workspace", "title", [], false, archived, .original, createdAt, updatedAt⟩, "owner"⟩

def sampleTurn (id threadId : String) (createdAt : Finite) : TurnRow :=
  ⟨id, threadId, .agentExecution "route", "prompt", none, .running, none, .human, .original, none, createdAt, createdAt⟩

/-- Two threads, the one that was updated first with the turn that was created first. -/
def groupedHistory : List Operation :=
  [.putThread (sampleThread "a" false 0 5), .putThread (sampleThread "b" false 0 3), .putTurn (sampleTurn "1" "a" 2),
    .putTurn (sampleTurn "2" "b" 1)]

def crowdedHistory : List Operation :=
  (List.range 100).map (fun index => .putThread (sampleThread (toString index) true 0 1)) ++
    [.putThread (sampleThread "open" false 0 0)]

/-- A turn with an activity is dequeued, and its id is given to another. -/
def reusedHistory : List Operation :=
  [.putThread (sampleThread "a" false 0 0), .putTurn (sampleTurn "1" "a" 1), .ensureTurn "1" "a" 1, .dequeueTurn "1",
    .putTurn (sampleTurn "1" "a" 2)]

def earlyHistory : List Operation := [.putThread (sampleThread "a" false (-1) 0)]

def unreferencedHistory : List Operation :=
  [.putThread (sampleThread "a" false 0 0), .ensureTurn "1" "a" 1, .putTurn (sampleTurn "1" "a" 1)]

def everything : ListInput := ⟨none, true, none⟩

/-- Both repositories answer the requests alike after a history. -/
def sameLists (history : List Operation) (input : ListInput) : Bool :=
  match Database.run history with
  | .ok db =>
    match list .codePoint db "owner" input with
    | .ok summaries => decide ((Memory.run history).list .codePoint db "owner" input = summaries)
    | .error _ => false
  | .error _ => false

def sameRepairs (history : List Operation) (limit : Option Int) : Bool :=
  match Database.run history with
  | .ok db =>
    decide ((Memory.run history).listRepairCandidates .codePoint db "owner" limit =
      listRepairCandidates .codePoint db "owner" limit)
  | .error _ => false

end Samples

section Agreement

/-- What both repositories answer for an owner with no more than a hundred threads. -/
structure SameAnswers (collation : Collation) (db : Database) (memory : Memory) (ownerId : String) : Prop where
  summaries : ∀ input, input.projectId = none → ∀ summaries, list collation db ownerId input = .ok summaries →
    memory.list collation db ownerId input = summaries
  groups : ∀ threadId, (memory.candidates collation db ownerId).filter (fun turn => turn.threadId = threadId) =
    (candidates collation db ownerId).filter fun turn => turn.threadId = threadId
  repairs : ∀ limit, (candidates collation db ownerId).length ≤ listLimit (some (Option.getD limit 25)) →
    (memory.listRepairCandidates collation db ownerId limit).Perm (listRepairCandidates collation db ownerId limit)

def Operation.putTurnId : Operation → Option String
  | putTurn row => some row.id
  | putThread _ | dequeueTurn _ | ensureTurn _ _ _ | replaceTurn _ | markRead _ _ => none

theorem Regular.of_nodup {history : List Operation} (htimed : ∀ operation ∈ history, operation.timed = true)
    (hnodup : (history.filterMap Operation.putTurnId).Nodup) : Regular history := by
  refine ⟨htimed, ?_⟩
  rintro before row after rfl db _ _ other hmem heq
  rw [List.filterMap_append, List.nodup_append] at hnodup
  have hbefore : other.id ∈ before.filterMap Operation.putTurnId := List.mem_filterMap.mpr ⟨_, hmem, rfl⟩
  have hafter : row.id ∈ (Operation.putTurn row :: after).filterMap Operation.putTurnId :=
    List.mem_filterMap.mpr ⟨_, List.mem_cons_self, rfl⟩
  exact hnodup.2.2 _ hbefore _ hafter heq

def sampleHistory : List Operation :=
  [.putThread (sampleThread "a" false 0 5), .putTurn (sampleTurn "1" "a" 1), .putTurn (sampleTurn "2" "a" 2),
    .ensureTurn "1" "a" 2, .replaceTurn ⟨"2", "a", some "cursor", true, ⟨3, 0, 1⟩, some 7, 4⟩, .markRead "a" 6]

def sampleDatabase : Database :=
  match Database.run sampleHistory with
  | .ok db => db
  | .error _ => .empty

theorem regular_sampleHistory : Regular sampleHistory :=
  Regular.of_nodup (by decide +kernel) (by decide +kernel)

/-- The view and the fold summarize a thread alike, and both repositories answer alike up to a hundred threads. -/
theorem summaries_agree (collation : Collation) (hstrict : Collation.Strict collation) (history : List Operation)
    (hregular : Regular history) (db : Database) (hrun : Database.run history = .ok db) (ownerId : String) :
    (∀ thread ∈ db.threads.rows, ∀ row, pickerSummary collation db thread = .ok row →
      summarize (Memory.run history) thread (listTurns collation db thread.id) = decodeRow db row) ∧
    (∀ input, input.projectId = none → ∀ summaries,
      list collation (firstHundred collation db ownerId) ownerId input = .ok summaries →
        (Memory.run history).list collation db ownerId input = summaries) ∧
    (∀ threadId,
      ((Memory.run history).candidates collation db ownerId).filter (fun turn => turn.threadId = threadId) =
        (candidates collation (firstHundred collation db ownerId) ownerId).filter
          fun turn => turn.threadId = threadId) ∧
    ((ownThreads db ownerId).length ≤ 100 → SameAnswers collation db (Memory.run history) ownerId) := by
  obtain ⟨hconsistent, hagrees, _⟩ := sound_run hregular hrun
  have hcandidates := @candidates_firstHundred collation db (Memory.run history) ownerId hstrict hconsistent hagrees
  refine ⟨fun thread hmem row hrow => ?_, fun input hproject summaries => memoryList_eq hstrict hconsistent hagrees hproject,
    hcandidates, fun hlength => ?_⟩
  · obtain rfl := pickerSummary_eq_ok hstrict hrow
    exact summarize_eq hconsistent hagrees hmem
  · have hcut := @candidates_cut collation db ownerId hconsistent.outbox hlength
    rw [hcut] at hcandidates
    refine ⟨fun input hproject summaries hlist => ?_, hcandidates, fun limit hlimit => ?_⟩
    · exact memoryList_eq hstrict hconsistent hagrees hproject
        (list_firstHundred hstrict hconsistent.outbox hlength hproject hlist)
    · have hperm := perm_of_filter_threadId hcandidates
      rw [Memory.listRepairCandidates, listRepairCandidates, List.take_of_length_le hlimit,
        List.take_of_length_le (hperm.length_eq.trans_le hlimit)]
      exact hperm.map _

/-- They differ where threads and turns are in other orders, at a hundred threads, or where an activity has no turn. -/
theorem summaries_disagree :
    sameRepairs groupedHistory none = false ∧ sameLists crowdedHistory ⟨none, false, none⟩ = false ∧
      sameLists reusedHistory everything = false ∧ sameLists earlyHistory everything = false ∧
        sameLists unreferencedHistory everything = false := by
  decide +kernel

theorem summaries_agree_sample :
    (∃ summaries, list .codePoint sampleDatabase "owner" everything = .ok summaries ∧ summaries ≠ [] ∧
      (Memory.run sampleHistory).list .codePoint sampleDatabase "owner" everything = summaries) ∧
    SameAnswers .codePoint sampleDatabase (Memory.run sampleHistory) "owner" := by
  have hagree := summaries_agree .codePoint Collation.strict_codePoint sampleHistory regular_sampleHistory sampleDatabase rfl "owner"
  have hsame := hagree.2.2.2 (by decide +kernel)
  refine ⟨⟨_, rfl, by decide +kernel, ?_⟩, hsame⟩
  exact hsame.summaries everything rfl _ rfl

end Agreement

end Rika.ThreadSummaries
