import Mathlib.Algebra.Order.BigOperators.Group.List
import Rika.SummaryAgreement

namespace Rika.ThreadSummaries

open StableSort (toSorted toSorted_perm)

variable {collation : Collation} {db : Database} {memory : Memory} {thread : ThreadRow}

section Statuses

section

variable (statuses : List Status)

def countedRank : Nat :=
  if 0 < statuses.countP isActive then 2 else if 0 < statuses.countP (fun status => status = .queued) then 1 else 0

theorem countedRank_concat (status : Status) :
    countedRank (statuses ++ [status]) = max (countedRank statuses) (statusRank status) := by
  rw [countedRank, countedRank, List.countP_append, List.countP_append]
  cases status <;> simp [isActive, statusRank] <;> (repeat' split) <;> omega

theorem foldl_statusRank :
    statuses.foldl (fun highest status => max highest (statusRank status)) 0 = countedRank statuses := by
  induction statuses using List.reverseRecOn with
  | nil => rfl
  | append_singleton statuses status ih =>
    rw [List.foldl_append, countedRank_concat, ← ih]
    rfl

theorem threadState_eq :
    threadState statuses = threadStateFromRank (countedRank statuses) statuses.getLast? := by
  rw [threadState, foldl_statusRank]

end

theorem countedRank_perm {statuses others : List Status} (h : statuses.Perm others) :
    countedRank statuses = countedRank others := by
  rw [countedRank, countedRank, h.countP_eq, h.countP_eq]

end Statuses

section Maxima

variable {first : Finite}

theorem max_coalesceMax (hfirst : 0 ≤ first) (values : List Finite) :
    values.foldl max first = max first (coalesceMax values) := by
  rw [List.foldl_max, coalesceMax]
  cases values.max? with
  | none => rw [Option.getD_none, Option.getD_none, max_self, max_eq_left hfirst]
  | some value => rfl

theorem foldl_max_append (hfirst : 0 ≤ first) (values others : List Finite) :
    (values ++ others).foldl max first = max first (max (coalesceMax values) (coalesceMax others)) := by
  have hnext : 0 ≤ max first (coalesceMax values) := le_max_of_le_left hfirst
  rw [List.foldl_append, max_coalesceMax hfirst, max_coalesceMax hnext, max_assoc]

end Maxima

section Summaries

def Collation.Strict (collation : Collation) : Prop := ∀ left right, collation.compare left right = .eq → left = right

theorem Collation.strict_codePoint : Collation.Strict .codePoint := fun _ _ h => Std.LawfulEqOrd.eq_of_compare h

def turnsOf (db : Database) (threadId : String) : List TurnRow :=
  db.turns.rows.filter fun turn => turn.threadId = threadId

def activitiesOf (db : Database) (turns : List TurnRow) : List ActivityRow :=
  turns.filterMap fun turn => db.activity.find turn.id

instance compareTurns_trans (collation : Collation) : Std.TransCmp (compareTurns collation) :=
  inferInstanceAs (Std.TransCmp (compareLex (fun left right : TurnRow => compare left.createdAt right.createdAt)
    fun left right => collation.compare left.id right.id))

theorem eq_of_compareTurns (hstrict : Collation.Strict collation) {left right : TurnRow} (hleft : left ∈ db.turns.rows)
    (hright : right ∈ db.turns.rows) (h : compareTurns collation left right = .eq) : left = right := by
  rw [compareTurns, Ordering.then_eq_eq] at h
  exact db.turns.eq_of_key_eq hleft hright (hstrict _ _ h.2)

theorem listTurns_perm (threadId : String) : (listTurns collation db threadId).Perm (turnsOf db threadId) :=
  toSorted_perm _ _

theorem head?_latest (hstrict : Collation.Strict collation) (threadId : String) :
    (toSorted (fun left right => compareTurns collation right left) (turnsOf db threadId)).head? =
      (listTurns collation db threadId).getLast? := by
  rw [StableSort.toSorted_swap, List.head?_reverse]
  · rfl
  · intro left hleft right hright h
    exact eq_of_compareTurns hstrict (List.mem_filter.mp hleft).1 (List.mem_filter.mp hright).1 h

theorem toInteger_eq_ok {value result : Int} (h : toInteger value = .ok result) : result = value := by
  rw [toInteger] at h
  split at h
  · cases h
    rfl
  · cases h

def pickerRow (collation : Collation) (db : Database) (thread : ThreadRow) : PickerRow where
  threadId := thread.id
  workspace := thread.workspace
  title := thread.title
  pinned := thread.pinned
  archived := thread.archived
  statusRank := countedRank ((turnsOf db thread.id).map (·.status))
  lastStatus := ((listTurns collation db thread.id).getLast?).map (·.status)
  lastActivityAt :=
    max thread.createdAt
      (max (coalesceMax ((turnsOf db thread.id).map (·.updatedAt)))
        (coalesceMax ((activitiesOf db (turnsOf db thread.id)).filterMap (·.lastEventAt))))
  turnCount := (turnsOf db thread.id).length
  currentActivityCount := (turnsOf db thread.id).countP fun turn => isCurrent turn (db.activity.find turn.id)
  added := ((activitiesOf db (turnsOf db thread.id)).map (·.added)).sum
  modified := ((activitiesOf db (turnsOf db thread.id)).map (·.modified)).sum
  removed := ((activitiesOf db (turnsOf db thread.id)).map (·.removed)).sum

theorem pickerSummary_eq_ok (hstrict : Collation.Strict collation) {row : PickerRow}
    (h : pickerSummary collation db thread = .ok row) : row = pickerRow collation db thread := by
  rw [pickerSummary] at h
  obtain ⟨turnCount, hturnCount, h⟩ := Fold.bind_eq_ok.mp h
  obtain ⟨currentCount, hcurrentCount, h⟩ := Fold.bind_eq_ok.mp h
  obtain ⟨added, hadded, h⟩ := Fold.bind_eq_ok.mp h
  obtain ⟨modified, hmodified, h⟩ := Fold.bind_eq_ok.mp h
  obtain ⟨removed, hremoved, h⟩ := Fold.bind_eq_ok.mp h
  obtain rfl := toInteger_eq_ok hturnCount
  obtain rfl := toInteger_eq_ok hcurrentCount
  obtain rfl := toInteger_eq_ok hadded
  obtain rfl := toInteger_eq_ok hmodified
  obtain rfl := toInteger_eq_ok hremoved
  have hlatest := congrArg (Option.map (·.status)) (@head?_latest _ db hstrict thread.id)
  cases h
  rw [pickerRow, ← hlatest, countedRank, List.countP_map, List.countP_map]
  rfl

theorem totals_eq {history : List TurnRow} {activities : List ActivityRow}
    (h : (history.filterMap fun turn => db.activity.find turn.id).Perm activities) :
    ((history.filterMap fun turn => (db.activity.find turn.id).map ActivityRow.activity).map (·.editTotals)).foldl
        EditTotals.add ⟨0, 0, 0⟩ =
      ⟨(activities.map (·.added)).sum, (activities.map (·.modified)).sum, (activities.map (·.removed)).sum⟩ := by
  have hfold : ∀ (rows : List ActivityRow) (total : EditTotals),
      ((rows.map ActivityRow.activity).map (·.editTotals)).foldl EditTotals.add total =
        ⟨total.added + (rows.map (·.added)).sum, total.modified + (rows.map (·.modified)).sum,
          total.removed + (rows.map (·.removed)).sum⟩ := by
    intro rows
    induction rows with
    | nil => simp
    | cons row rows ih =>
      intro total
      simp only [List.map_cons, List.foldl_cons, ih, List.sum_cons, EditTotals.add, ActivityRow.activity, add_assoc]
  have hmap : (history.filterMap fun turn => (db.activity.find turn.id).map ActivityRow.activity) =
      (history.filterMap fun turn => db.activity.find turn.id).map ActivityRow.activity := by
    rw [List.map_filterMap]
  rw [hmap, hfold, (h.map (·.added)).sum_eq, (h.map (·.modified)).sum_eq, (h.map (·.removed)).sum_eq]
  simp

variable {history : List TurnRow}

variable {turn : TurnRow}

theorem get_of_mem (hagrees : Agrees db memory) (hmem : turn ∈ db.turns.rows) :
    memory.activities.get turn.id = (db.activity.find turn.id).map ActivityRow.activity := by
  refine hagrees.activity turn.id ?_
  rw [Table.find_key hmem]
  rfl

theorem filterMap_get (hagrees : Agrees db memory) (hmem : ∀ turn ∈ history, turn ∈ db.turns.rows) :
    (history.filterMap fun turn => memory.activities.get turn.id) =
      history.filterMap fun turn => (db.activity.find turn.id).map ActivityRow.activity :=
  List.filterMap_congr fun turn hturn => get_of_mem hagrees (hmem turn hturn)

theorem isTerminalStatus_eq (status : Status) :
    (!status.isTerminalStatus) = decide (status ∉ [Status.completed, .failed, .cancelled]) := by
  cases status <;> rfl

theorem filter_get (hagrees : Agrees db memory) (hmem : turn ∈ db.turns.rows) :
    (memory.activities.get turn.id).filter (fun activity => !turn.status.isTerminalStatus || activity.complete) =
      if isCurrent turn (db.activity.find turn.id) then (db.activity.find turn.id).map ActivityRow.activity else none := by
  rw [get_of_mem hagrees hmem, isCurrent, isTerminalStatus_eq]
  cases db.activity.find turn.id with
  | none => rfl
  | some row => rfl

theorem length_currentProjected (hagrees : Agrees db memory) (hmem : ∀ turn ∈ history, turn ∈ db.turns.rows) :
    (history.filterMap fun turn =>
      (memory.activities.get turn.id).filter fun activity => !turn.status.isTerminalStatus || activity.complete).length =
      history.countP fun turn => isCurrent turn (db.activity.find turn.id) := by
  rw [List.length_filterMap_eq_countP]
  refine List.countP_congr fun turn hturn => ?_
  rw [filter_get hagrees (hmem turn hturn)]
  cases hcurrent : isCurrent turn (db.activity.find turn.id) with
  | false => simp
  | true =>
    cases hfind : db.activity.find turn.id with
    | none =>
      rw [hfind] at hcurrent
      cases hcurrent
    | some row => simp

theorem currentProjected_eq (hagrees : Agrees db memory) (hmem : ∀ turn ∈ history, turn ∈ db.turns.rows)
    (hall : (history.countP fun turn => isCurrent turn (db.activity.find turn.id)) = history.length) :
    (history.filterMap fun turn =>
      (memory.activities.get turn.id).filter fun activity => !turn.status.isTerminalStatus || activity.complete) =
      history.filterMap fun turn => (db.activity.find turn.id).map ActivityRow.activity := by
  refine List.filterMap_congr fun turn hturn => ?_
  rw [filter_get hagrees (hmem turn hturn), if_pos (List.countP_eq_length.mp hall turn hturn)]

theorem sum_nonneg {rows : List ActivityRow} (f : ActivityRow → Int) (h : ∀ row ∈ rows, 0 ≤ f row) :
    0 ≤ (rows.map f).sum := by
  refine List.sum_nonneg fun value hmem => ?_
  obtain ⟨row, hrow, rfl⟩ := List.mem_map.mp hmem
  exact h row hrow

theorem turnsOf_subset {threadId : String} : ∀ turn ∈ turnsOf db threadId, turn ∈ db.turns.rows :=
  fun _ hmem => (List.mem_filter.mp hmem).1

theorem mem_activitiesOf {turns : List TurnRow} {row : ActivityRow} (h : row ∈ activitiesOf db turns) :
    row ∈ db.activity.rows := by
  obtain ⟨turn, _, hfind⟩ := List.mem_filterMap.mp h
  exact Table.mem_of_find hfind

theorem editTotals_eq (hconsistent : Consistent db) (hagrees : Agrees db memory)
    (hperm : history.Perm (turnsOf db thread.id)) (lastReadAt : Option Finite) :
    (if 0 < history.length && (history.filterMap fun turn => (memory.activities.get turn.id).filter fun activity =>
        !turn.status.isTerminalStatus || activity.complete).length = history.length then
      some (((history.filterMap fun turn => (memory.activities.get turn.id).filter fun activity =>
        !turn.status.isTerminalStatus || activity.complete).map (·.editTotals)).foldl EditTotals.add ⟨0, 0, 0⟩)
    else none) = (decodeSummary (pickerRow collation db thread) lastReadAt).editTotals := by
  have hmem : ∀ turn ∈ history, turn ∈ db.turns.rows := fun turn hturn => turnsOf_subset turn (hperm.mem_iff.mp hturn)
  have hcount : (pickerRow collation db thread).turnCount = (history.length : Int) :=
    congrArg Nat.cast hperm.length_eq.symm
  have hcurrent : (pickerRow collation db thread).currentActivityCount =
      ((history.countP fun turn => isCurrent turn (db.activity.find turn.id) : Nat) : Int) :=
    congrArg Nat.cast (hperm.countP_eq _).symm
  rw [length_currentProjected hagrees hmem, decodeSummary, hcount, hcurrent]
  by_cases hall : (history.countP fun turn => isCurrent turn (db.activity.find turn.id)) = history.length
  · have hconsistentTotals : ∀ row ∈ activitiesOf db (turnsOf db thread.id), 0 ≤ row.added ∧ 0 ≤ row.modified ∧
        0 ≤ row.removed := fun row hrow => hconsistent.totals row (mem_activitiesOf hrow)
    rw [currentProjected_eq hagrees hmem hall, totals_eq (hperm.filterMap _)]
    have hadded : max 0 (pickerRow collation db thread).added = (pickerRow collation db thread).added :=
      max_eq_right (sum_nonneg _ fun row hrow => (hconsistentTotals row hrow).1)
    have hmodified : max 0 (pickerRow collation db thread).modified = (pickerRow collation db thread).modified :=
      max_eq_right (sum_nonneg _ fun row hrow => (hconsistentTotals row hrow).2.1)
    have hremoved : max 0 (pickerRow collation db thread).removed = (pickerRow collation db thread).removed :=
      max_eq_right (sum_nonneg _ fun row hrow => (hconsistentTotals row hrow).2.2)
    rw [hadded, hmodified, hremoved, hall]
    simp only [decide_true, Bool.and_true, Int.natCast_pos]
    rfl
  · have hall' : ¬((history.length : Int) =
        ((history.countP fun turn => isCurrent turn (db.activity.find turn.id) : Nat) : Int)) :=
      fun h => hall (Nat.cast_inj.mp h).symm
    rw [if_neg, if_neg]
    · simp [hall']
    · simp [hall]

theorem summarize_eq (hconsistent : Consistent db) (hagrees : Agrees db memory) (hthread : thread ∈ db.threads.rows) :
    summarize memory thread (listTurns collation db thread.id) =
      decodeSummary (pickerRow collation db thread) ((db.readState.find thread.id).map (·.lastReadAt)) := by
  have hperm : (listTurns collation db thread.id).Perm (turnsOf db thread.id) := listTurns_perm thread.id
  have hmem : ∀ turn ∈ listTurns collation db thread.id, turn ∈ db.turns.rows :=
    fun turn hturn => turnsOf_subset turn (hperm.mem_iff.mp hturn)
  have hactivities : ((listTurns collation db thread.id).filterMap fun turn => db.activity.find turn.id).Perm
      (activitiesOf db (turnsOf db thread.id)) := hperm.filterMap _
  have hstatus : threadState ((listTurns collation db thread.id).map (·.status)) =
      threadStateFromRank (pickerRow collation db thread).statusRank (pickerRow collation db thread).lastStatus := by
    rw [threadState_eq, countedRank_perm (hperm.map _), List.getLast?_map]
    rfl
  have hactivity : ((listTurns collation db thread.id).map (·.updatedAt) ++
      ((listTurns collation db thread.id).filterMap fun turn => memory.activities.get turn.id).filterMap
        (·.lastEventAt)).foldl max thread.createdAt = (pickerRow collation db thread).lastActivityAt := by
    have hevents : ((listTurns collation db thread.id).filterMap fun turn =>
        (db.activity.find turn.id).map ActivityRow.activity).filterMap (·.lastEventAt) =
          ((listTurns collation db thread.id).filterMap fun turn => db.activity.find turn.id).filterMap
            (·.lastEventAt) := by
      rw [← List.map_filterMap, List.filterMap_map]
      rfl
    rw [filterMap_get hagrees hmem, hevents,
      ((hperm.map (·.updatedAt)).append (hactivities.filterMap (·.lastEventAt))).foldl_eq,
      foldl_max_append (hconsistent.timed thread hthread)]
    rfl
  have hcount : ((listTurns collation db thread.id).length : Int) = max 0 (pickerRow collation db thread).turnCount := by
    rw [hperm.length_eq]
    exact (max_eq_right (Int.natCast_nonneg _)).symm
  rw [summarize, hstatus, hactivity, hagrees.readAt, hcount,
    editTotals_eq hconsistent hagrees hperm ((db.readState.find thread.id).map (·.lastReadAt))]
  rfl

end Summaries

section Lists

variable {ownerId : String}

theorem mapM_pickerSummary {threads : List ThreadRow} {rows : List PickerRow} (hstrict : Collation.Strict collation) :
    threads.mapM (pickerSummary collation db) = .ok rows ↔
      (∀ thread ∈ threads, pickerSummary collation db thread = .ok (pickerRow collation db thread)) ∧
        rows = threads.map (pickerRow collation db) := by
  induction threads generalizing rows with
  | nil => simp [pure, Except.pure, eq_comm]
  | cons thread threads ih =>
    rw [List.mapM_cons, Fold.bind_eq_ok]
    constructor
    · rintro ⟨row, hrow, hrest⟩
      obtain ⟨rest, hmap, hcons⟩ := Fold.bind_eq_ok.mp hrest
      cases hcons
      obtain ⟨hall, rfl⟩ := ih.mp hmap
      obtain rfl := pickerSummary_eq_ok hstrict hrow
      exact ⟨List.forall_mem_cons.mpr ⟨hrow, hall⟩, rfl⟩
    · rintro ⟨hall, rfl⟩
      obtain ⟨hrow, hrest⟩ := List.forall_mem_cons.mp hall
      exact ⟨_, hrow, Fold.bind_eq_ok.mpr ⟨_, ih.mpr ⟨hrest, rfl⟩, rfl⟩⟩

def decodeRow (db : Database) (row : PickerRow) : ThreadSummary :=
  decodeSummary row ((db.readState.find row.threadId).map (·.lastReadAt))

def selected (db : Database) (ownerId : String) (input : ListInput) : List ThreadRow :=
  db.threads.rows.filter fun thread =>
    thread.ownerId = ownerId && !db.deletionOutbox.contains thread.id && inProject db ownerId input.projectId thread &&
      (input.includeArchived || !thread.archived)

variable {input : ListInput} {summaries : List ThreadSummary}

theorem list_eq_ok (hstrict : Collation.Strict collation) :
    list collation db ownerId input = .ok summaries ↔
      (∀ thread ∈ selected db ownerId input,
        pickerSummary collation db thread = .ok (pickerRow collation db thread)) ∧
      summaries = ((toSorted (compareRows collation)
        ((selected db ownerId input).map (pickerRow collation db))).take (listLimit input.limit)).map (decodeRow db) := by
  rw [list, Fold.bind_eq_ok]
  constructor
  · rintro ⟨rows, hrows, h⟩
    obtain ⟨hall, rfl⟩ := (mapM_pickerSummary hstrict).mp hrows
    cases h
    exact ⟨hall, rfl⟩
  · rintro ⟨hall, rfl⟩
    exact ⟨_, (mapM_pickerSummary hstrict).mpr ⟨hall, rfl⟩, rfl⟩

def hundred (collation : Collation) (db : Database) (ownerId : String) : List ThreadRow :=
  listThreads collation db ownerId true (some 100)

theorem hundred_sublist : ∃ rows, (hundred collation db ownerId).Sublist rows ∧
    rows.Perm (db.threads.rows.filter fun row =>
      row.ownerId = ownerId && !db.deletionOutbox.contains row.id && (true || !row.archived)) :=
  ⟨_, List.take_sublist _ _, toSorted_perm _ _⟩

theorem mem_hundred {thread : ThreadRow} (h : thread ∈ hundred collation db ownerId) :
    thread ∈ db.threads.rows ∧ thread.ownerId = ownerId := by
  obtain ⟨rows, hsublist, hperm⟩ := @hundred_sublist collation db ownerId
  obtain ⟨hmem, hselected⟩ := List.mem_filter.mp (hperm.mem_iff.mp (hsublist.subset h))
  simp only [Bool.and_eq_true, decide_eq_true_eq] at hselected
  exact ⟨hmem, hselected.1.1⟩

theorem nodup_hundred : ((hundred collation db ownerId).map ThreadRow.key).Nodup := by
  obtain ⟨rows, hsublist, hperm⟩ := @hundred_sublist collation db ownerId
  have hrows : (rows.map ThreadRow.key).Nodup :=
    (hperm.map ThreadRow.key).nodup_iff.mpr (db.threads.unique.sublist (List.filter_sublist.map _))
  exact hrows.sublist (hsublist.map _)

def firstHundred (collation : Collation) (db : Database) (ownerId : String) : Database :=
  { db with threads := ⟨hundred collation db ownerId, nodup_hundred⟩ }

def ownThreads (db : Database) (ownerId : String) : List ThreadRow :=
  db.threads.rows.filter fun thread => thread.ownerId = ownerId

theorem hundred_perm (houtbox : db.deletionOutbox = []) (hlength : (ownThreads db ownerId).length ≤ 100) :
    (hundred collation db ownerId).Perm (ownThreads db ownerId) := by
  have hfilter : (db.threads.rows.filter fun row =>
      row.ownerId = ownerId && !db.deletionOutbox.contains row.id && (true || !row.archived)) =
        ownThreads db ownerId := by
    refine List.filter_congr fun row _ => ?_
    rw [houtbox]
    simp
  rw [hundred, listThreads]
  rw [hfilter, List.take_of_length_le]
  · exact toSorted_perm _ _
  · rw [(toSorted_perm _ _).length_eq]
    exact hlength

theorem selected_eq (houtbox : db.deletionOutbox = []) {input : ListInput} (hproject : input.projectId = none) :
    selected db ownerId input =
      (ownThreads db ownerId).filter fun thread => input.includeArchived || !thread.archived := by
  rw [selected, ownThreads, List.filter_filter]
  refine List.filter_congr fun thread _ => ?_
  rw [houtbox, inProject, hproject]
  simp [Bool.and_comm]

theorem ownThreads_firstHundred :
    ownThreads (firstHundred collation db ownerId) ownerId = hundred collation db ownerId := by
  refine List.filter_eq_self.mpr fun thread hmem => ?_
  exact decide_eq_true (mem_hundred hmem).2

theorem selected_firstHundred (houtbox : db.deletionOutbox = []) (hproject : input.projectId = none) :
    selected (firstHundred collation db ownerId) ownerId input =
      (hundred collation db ownerId).filter fun thread => input.includeArchived || !thread.archived := by
  have hselected := @selected_eq (firstHundred collation db ownerId) ownerId houtbox input hproject
  rwa [ownThreads_firstHundred] at hselected

/-- The repository in memory lists what the database would if it had only the first hundred
threads. -/
theorem memoryList_eq (hstrict : Collation.Strict collation) (hconsistent : Consistent db) (hagrees : Agrees db memory)
    (hproject : input.projectId = none)
    (h : list collation (firstHundred collation db ownerId) ownerId input = .ok summaries) :
    memory.list collation db ownerId input = summaries := by
  obtain ⟨_, rfl⟩ := (list_eq_ok hstrict).mp h
  have hsummaries : ((hundred collation db ownerId).map fun thread =>
      summarize memory thread (listTurns collation db thread.id)) =
        (hundred collation db ownerId).map fun thread => decodeRow db (pickerRow collation db thread) :=
    List.map_congr_left fun thread hmem => summarize_eq hconsistent hagrees (mem_hundred hmem).1
  have hfilter : ((hundred collation db ownerId).map fun thread => decodeRow db (pickerRow collation db thread)).filter
      (fun summary => input.includeArchived || !summary.archived) =
        (((hundred collation db ownerId).filter fun thread => input.includeArchived || !thread.archived).map
          (pickerRow collation db)).map (decodeRow db) := by
    rw [List.filter_map, List.map_map]
    rfl
  rw [selected_firstHundred hconsistent.outbox hproject, Memory.list, hproject]
  dsimp only [Option.isSome_none]
  rw [if_neg Bool.false_ne_true]
  change ((toSorted (compareSummaries collation) (((hundred collation db ownerId).map fun thread =>
    summarize memory thread (listTurns collation db thread.id)).filter _)).take _) = _
  rw [hsummaries, hfilter, StableSort.toSorted_map (compareSummaries collation) (decodeRow db), List.map_take]
  · rfl
  · intro left right
    rfl

instance compareRows_trans (collation : Collation) : Std.TransCmp (compareRows collation) :=
  inferInstanceAs (Std.TransCmp (compareLex (fun left right : PickerRow => compare right.pinned left.pinned)
    (compareLex (fun left right => compare right.lastActivityAt left.lastActivityAt)
      fun left right => collation.compare left.threadId right.threadId)))

theorem list_firstHundred (hstrict : Collation.Strict collation) (houtbox : db.deletionOutbox = [])
    (hlength : (ownThreads db ownerId).length ≤ 100) (hproject : input.projectId = none)
    (h : list collation db ownerId input = .ok summaries) :
    list collation (firstHundred collation db ownerId) ownerId input = .ok summaries := by
  obtain ⟨hall, rfl⟩ := (list_eq_ok hstrict).mp h
  rw [list_eq_ok hstrict, selected_firstHundred houtbox hproject]
  rw [selected_eq houtbox hproject] at hall ⊢
  have hperm := (@hundred_perm collation db ownerId houtbox hlength).filter
    fun thread => input.includeArchived || !thread.archived
  refine ⟨fun thread hmem => hall thread (hperm.mem_iff.mp hmem), ?_⟩
  have hrows := hperm.map (pickerRow collation db)
  rw [StableSort.toSorted_eq_of_perm hrows.symm]
  · rfl
  · intro left hleft right hright heq
    obtain ⟨leftThread, hleftMem, rfl⟩ := List.mem_map.mp hleft
    obtain ⟨rightThread, hrightMem, rfl⟩ := List.mem_map.mp hright
    rw [compareRows, Ordering.then_eq_eq, Ordering.then_eq_eq] at heq
    have hid : leftThread.id = rightThread.id := hstrict _ _ heq.2.2
    have hmem : ∀ thread ∈ (ownThreads db ownerId).filter (fun thread => input.includeArchived || !thread.archived),
        thread ∈ db.threads.rows := fun thread hmem => (List.mem_filter.mp (List.mem_filter.mp hmem).1).1
    rw [db.threads.eq_of_key_eq (hmem _ hleftMem) (hmem _ hrightMem) hid]

end Lists

end Rika.ThreadSummaries
