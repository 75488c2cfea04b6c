import Mathlib.Data.List.Induction
import Rika.Selection
import Rika.Table
import Rika.UsageAccumulator

/-- A collation under which no two texts are alike, as a database's default one. -/
structure TextOrder extends Collation where
  eq_of_compare : ∀ left right, compare left right = .eq → left = right

namespace TextOrder

def codePoint : TextOrder := ⟨Collation.codePoint, fun _ _ h => Std.LawfulEqOrd.eq_of_compare h⟩

end TextOrder

namespace Rika.ThreadUsage

open Usage
open Selection (UsageSummary)
open StableSort (toSorted)

structure TurnUsageRow where
  turnId : String
  threadId : String
  createdAt : Finite
  usage : UsageState
  hasContext : Bool
  contextCapacity : Option ContextCapacity
  activeSince : Option Finite

structure ThreadUsageRow where
  threadId : String
  accumulator : UsageAccumulator
  summary : UsageSummary

structure UsageTables where
  turns : Table TurnUsageRow.turnId
  threads : Table ThreadUsageRow.threadId

def UsageTables.empty : UsageTables := ⟨Table.empty, Table.empty⟩

variable (order : TextOrder)

/-- `asc(createdAt), asc(turnId)`. -/
def compareTurns (left right : TurnUsageRow) : Ordering :=
  (compare left.createdAt right.createdAt).then (order.compare left.turnId right.turnId)

/-- The first row by `desc(createdAt), desc(turnId)`. -/
def newest (rows : List TurnUsageRow) : Option TurnUsageRow :=
  (toSorted (fun left right => compareTurns order right left) rows).head?

def compareActive (left right : TurnUsageRow) : Ordering :=
  compare (left.activeSince.getD 0) (right.activeSince.getD 0)

/-- The first row by `asc(activeSince)` of those that have one. -/
def firstActive (rows : List TurnUsageRow) : Option TurnUsageRow :=
  (toSorted compareActive (rows.filter (·.activeSince.isSome))).head?

def contextCapacityFor (turn : Turn) (next : UsageState) : Option ContextCapacity :=
  if next.context.isNone then none else turn.compaction

def usageRow (turn : Turn) (next : UsageState) : TurnUsageRow where
  turnId := turn.id
  threadId := turn.threadId
  createdAt := turn.createdAt
  usage := next
  hasContext := next.context.isSome
  contextCapacity := contextCapacityFor turn next
  activeSince := next.active.since

/-- The assignment of the conflicting insert, which leaves the thread and the
creation time of the row as they are. -/
def TurnUsageRow.assign (row excluded : TurnUsageRow) : TurnUsageRow :=
  { row with
    usage := excluded.usage
    hasContext := excluded.hasContext
    contextCapacity := excluded.contextCapacity
    activeSince := excluded.activeSince }

def summaryOf (accumulator : UsageAccumulator) (rows : List TurnUsageRow) : UsageSummary :=
  let contextRow := newest order (rows.filter (·.hasContext))
  { usage := summarize accumulator ((newest order rows).map (·.usage)) (contextRow.map (·.usage))
      ((firstActive rows).bind (·.activeSince))
    contextCapacity := contextRow.bind (·.contextCapacity) }

def UsageTables.ofThread (tables : UsageTables) (threadId : String) : List TurnUsageRow :=
  tables.turns.select (·.threadId = threadId)

def emptyThread (threadId : String) : ThreadUsageRow := ⟨threadId, emptyAccumulator, emptyUsageState, none⟩

def updateThreadUsage (tables : UsageTables) (turn : Turn) (next : UsageState) : UsageTables :=
  let threads := tables.threads.upsert (emptyThread turn.threadId) id
  let current := ((threads.find turn.threadId).map (·.accumulator)).getD emptyAccumulator
  let previous := (tables.turns.find turn.id).map (·.usage)
  let row := usageRow turn next
  let turns := tables.turns.upsert row (·.assign row)
  let accumulator := replaceContribution current previous next
  let summary := summaryOf order accumulator (turns.select (·.threadId = turn.threadId))
  { turns
    threads := threads.update (·.threadId = turn.threadId) fun thread => { thread with accumulator, summary } }

/-- `usage` of the transcript repository. -/
def UsageTables.usage (tables : UsageTables) (threadId : String) : UsageSummary :=
  ((tables.threads.find threadId).map (·.summary)).getD ⟨emptyUsageState, none⟩

structure UsageUpdate where
  turn : Turn
  usage : UsageState

section

variable (updates : List UsageUpdate)

def run : UsageTables :=
  updates.foldl (fun tables update => updateThreadUsage order tables update.turn update.usage) .empty

def latest (turnId : String) : Option UsageUpdate :=
  updates.reverse.find? fun update => update.turn.id = turnId

def UsageUpdate.row (update : UsageUpdate) : TurnUsageRow := usageRow update.turn update.usage

/-- The turns of a thread that were updated, in `(createdAt, id)` order. -/
def updatedTurns (threadId : String) : List TurnUsageRow :=
  toSorted (compareTurns order)
    ((((updates.map (·.turn.id)).dedup.filterMap (latest updates)).filter (·.turn.threadId = threadId)).map (·.row))

/-- The latest usage of every turn of a thread, in `(createdAt, id)` order. -/
def latestUsages (threadId : String) : List UsageState :=
  (updatedTurns order updates threadId).map (·.usage)

def KeepTurns : Prop :=
  ∀ update ∈ updates, ∀ other ∈ updates, update.turn.id = other.turn.id →
    update.turn.threadId = other.turn.threadId ∧ update.turn.createdAt = other.turn.createdAt

end

instance (updates : List UsageUpdate) : Decidable (KeepTurns updates) :=
  inferInstanceAs (Decidable (∀ update ∈ updates, ∀ other ∈ updates, update.turn.id = other.turn.id →
    update.turn.threadId = other.turn.threadId ∧ update.turn.createdAt = other.turn.createdAt))

def threadRow (threadId : String) (rows : List TurnUsageRow) : ThreadUsageRow where
  threadId := threadId
  accumulator := accumulated (rows.map (·.usage))
  summary := summaryOf order (accumulated (rows.map (·.usage))) rows

structure UsageTables.Current (tables : UsageTables) (updates : List UsageUpdate) : Prop where
  turns : ∀ turnId, tables.turns.find turnId = (latest updates turnId).map (·.row)
  threads : ∀ threadId, tables.threads.find threadId =
    if tables.ofThread threadId = [] then none else some (threadRow order threadId (tables.ofThread threadId))

section

variable {order}

theorem latest_concat (updates : List UsageUpdate) (update : UsageUpdate) (turnId : String) :
    latest (updates ++ [update]) turnId = if update.turn.id = turnId then some update else latest updates turnId := by
  rw [latest, List.reverse_append, List.reverse_singleton, List.singleton_append, List.find?_cons]
  by_cases hturn : update.turn.id = turnId <;> simp [hturn, latest]

variable {update : UsageUpdate} {updates : List UsageUpdate}

theorem latest_eq_some {turnId : String}
    (h : latest updates turnId = some update) : update ∈ updates ∧ update.turn.id = turnId :=
  ⟨List.mem_reverse.mp (List.mem_of_find?_eq_some h), by simpa using List.find?_some h⟩

theorem latest_isSome (h : update ∈ updates) : (latest updates update.turn.id).isSome := by
  rw [latest, List.find?_isSome]
  exact ⟨update, List.mem_reverse.mpr h, by simp⟩

theorem current_empty : UsageTables.empty.Current order [] := ⟨fun _ => rfl, fun _ => rfl⟩

theorem assign_usageRow {row : TurnUsageRow} {turn : Turn} (next : UsageState) (hid : row.turnId = turn.id)
    (hturn : row.threadId = turn.threadId ∧ row.createdAt = turn.createdAt) :
    row.assign (usageRow turn next) = usageRow turn next := by
  obtain ⟨hthread, hcreated⟩ := hturn
  simp [TurnUsageRow.assign, usageRow, hid, hthread, hcreated]

section

variable {tables : UsageTables} {turn : Turn} {next : UsageState}
  (hturn : ∀ row, tables.turns.find turn.id = some row →
    row.threadId = turn.threadId ∧ row.createdAt = turn.createdAt)

include hturn

theorem elim_assign :
    (tables.turns.find turn.id).elim (usageRow turn next) (·.assign (usageRow turn next)) = usageRow turn next := by
  cases hfind : tables.turns.find turn.id with
  | none => rfl
  | some row => exact assign_usageRow next (Table.key_of_find hfind) (hturn row hfind)

theorem ofThread_perm : ∃ rest,
    (tables.ofThread turn.threadId).Perm ((tables.turns.find turn.id).toList ++ rest) ∧
      ((updateThreadUsage order tables turn next).ofThread turn.threadId).Perm (usageRow turn next :: rest) := by
  refine ⟨(tables.turns.rows.filter fun row => row.turnId ≠ turn.id).filter (·.threadId = turn.threadId), ?_, ?_⟩
  · have hperm := (tables.turns.rows_perm turn.id).filter (·.threadId = turn.threadId)
    have hof : (tables.turns.find turn.id).toList.filter (·.threadId = turn.threadId) =
        (tables.turns.find turn.id).toList := by
      rw [List.filter_eq_self]
      intro row hrow
      simpa using (hturn row (by simpa using hrow)).1
    rw [List.filter_append, hof] at hperm
    exact hperm
  · have hperm := (tables.turns.rows_upsert_perm (usageRow turn next) (·.assign (usageRow turn next))
      fun _ => rfl).filter (·.threadId = turn.threadId)
    have helim := @elim_assign tables turn next hturn
    rw [show (usageRow turn next).turnId = turn.id from rfl, helim, List.filter_cons_of_pos (by simp [usageRow])]
      at hperm
    exact hperm

theorem ofThread_other {threadId : String} (hne : threadId ≠ turn.threadId) :
    (updateThreadUsage order tables turn next).ofThread threadId = tables.ofThread threadId := by
  refine tables.turns.filter_upsert (usageRow turn next) (·.assign (usageRow turn next)) (fun _ => rfl) ?_ ?_
  · exact decide_eq_false (Ne.symm hne)
  · intro old hold hid
    have hthread := (hturn old (Table.find_eq_some.mpr ⟨hold, hid⟩)).1
    simpa [TurnUsageRow.assign, hthread] using Ne.symm hne

end

variable {tables : UsageTables}

theorem KeepTurns.row (h : KeepTurns (updates ++ [update])) (hcurrent : tables.Current order updates) {row : TurnUsageRow}
    (hrow : tables.turns.find update.turn.id = some row) :
    row.threadId = update.turn.threadId ∧ row.createdAt = update.turn.createdAt := by
  rw [hcurrent.turns] at hrow
  obtain ⟨previous, hlatest, rfl⟩ := Option.map_eq_some_iff.mp hrow
  obtain ⟨hmem, hid⟩ := latest_eq_some hlatest
  exact h previous (List.mem_append_left _ hmem) update (by simp) hid

section

variable (tables : UsageTables) (turn : Turn) (next : UsageState)

def nextAccumulator : UsageAccumulator :=
  replaceContribution (((tables.threads.find turn.threadId).map (·.accumulator)).getD emptyAccumulator)
    ((tables.turns.find turn.id).map (·.usage)) next

theorem find_threads (threadId : String) :
    (updateThreadUsage order tables turn next).threads.find threadId =
      if threadId = turn.threadId then
        some
          { threadId := turn.threadId
            accumulator := nextAccumulator tables turn next
            summary := summaryOf order (nextAccumulator tables turn next)
              ((updateThreadUsage order tables turn next).ofThread turn.threadId) }
      else tables.threads.find threadId := by
  have hupsert (threadId : String) : (tables.threads.upsert (emptyThread turn.threadId) id).find threadId =
      if threadId = turn.threadId then
        some ((tables.threads.find threadId).elim (emptyThread turn.threadId) id)
      else tables.threads.find threadId := tables.threads.find_upsert _ _ _ _
  have hcurrent : (((tables.threads.upsert (emptyThread turn.threadId) id).find turn.threadId).map
      (·.accumulator)).getD emptyAccumulator =
        ((tables.threads.find turn.threadId).map (·.accumulator)).getD emptyAccumulator := by
    rw [hupsert, if_pos rfl]
    cases tables.threads.find turn.threadId <;> rfl
  rw [updateThreadUsage, Table.find_update, hcurrent, hupsert]
  by_cases hthread : threadId = turn.threadId
  · rw [if_pos hthread, if_pos hthread, hthread, Option.map_some]
    cases hfind : tables.threads.find turn.threadId with
    | none =>
      simp only [Option.elim_none, emptyThread, decide_true, if_true, nextAccumulator, hfind]
      rfl
    | some thread =>
      have hkey := Table.key_of_find hfind
      simp only [Option.elim_some, id_eq, hkey, decide_true, if_true, nextAccumulator, hfind]
      rfl
  · rw [if_neg hthread, if_neg hthread]
    cases hfind : tables.threads.find threadId with
    | none => rfl
    | some thread =>
      have hkey := Table.key_of_find hfind
      rw [Option.map_some, if_neg (by simpa [hkey] using hthread)]

end

theorem current_updateThreadUsage (h : tables.Current order updates) (hkeep : KeepTurns (updates ++ [update])) :
    (updateThreadUsage order tables update.turn update.usage).Current order (updates ++ [update]) := by
  have hturn : ∀ row, tables.turns.find update.turn.id = some row →
      row.threadId = update.turn.threadId ∧ row.createdAt = update.turn.createdAt :=
    fun row hrow => hkeep.row h hrow
  constructor
  · intro turnId
    have hfind := tables.turns.find_upsert update.row (·.assign update.row) (fun _ => rfl) turnId
    rw [latest_concat]
    refine hfind.trans ?_
    by_cases hid : update.turn.id = turnId
    · rw [if_pos hid, if_pos (by simp [UsageUpdate.row, usageRow, hid]), ← hid]
      exact congrArg some (elim_assign hturn)
    · rw [if_neg hid, if_neg (by simpa [UsageUpdate.row, usageRow] using Ne.symm hid)]
      exact h.turns turnId
  · intro threadId
    by_cases hthread : threadId = update.turn.threadId
    · subst hthread
      obtain ⟨rest, hbefore, hafter⟩ := @ofThread_perm order tables update.turn update.usage hturn
      have hcurrent : (((tables.threads.find update.turn.threadId).map (·.accumulator)).getD emptyAccumulator) =
          accumulated ((tables.ofThread update.turn.threadId).map (·.usage)) := by
        rw [h.threads]
        split
        · next hnil => rw [hnil]; rfl
        · rfl
      have haccumulator : nextAccumulator tables update.turn update.usage =
          accumulated (((updateThreadUsage order tables update.turn update.usage).ofThread update.turn.threadId).map
            (·.usage)) := by
        have hvalues := hbefore.map (·.usage)
        rw [List.map_append, ← Option.toList_map] at hvalues
        rw [nextAccumulator, hcurrent, accumulated_perm hvalues, replaceContribution_accumulated,
          accumulated_perm (hafter.map (·.usage))]
        rfl
      have hne : (updateThreadUsage order tables update.turn update.usage).ofThread update.turn.threadId ≠ [] :=
        fun hnil => List.cons_ne_nil _ _ (hnil ▸ hafter).nil_eq.symm
      rw [find_threads, if_pos rfl, if_neg hne, haccumulator]
      rfl
    · rw [ofThread_other hturn hthread, ← h.threads threadId, find_threads, if_neg hthread]

theorem KeepTurns.prefix (h : KeepTurns (updates ++ [update])) : KeepTurns updates :=
  fun earlier hearlier other hother =>
    h earlier (List.mem_append_left _ hearlier) other (List.mem_append_left _ hother)

theorem current_run (hkeep : KeepTurns updates) : (run order updates).Current order updates := by
  induction updates using List.reverseRecOn with
  | nil => exact current_empty
  | append_singleton updates update ih =>
    rw [run, List.foldl_append]
    exact current_updateThreadUsage (ih hkeep.prefix) hkeep

instance : Std.TransCmp compareActive :=
  StableSort.compareOn_trans (fun row : TurnUsageRow => row.activeSince.getD 0) (compare : Finite → Finite → Ordering)

instance : Std.TransCmp (compareTurns order) :=
  inferInstanceAs (Std.TransCmp
    (compareLex (fun left right : TurnUsageRow => compare left.createdAt right.createdAt)
      (fun left right => order.compare left.turnId right.turnId)))

section

variable {tables : UsageTables} {updates : List UsageUpdate}

theorem compareTurns_eq {row other : TurnUsageRow} (hrow : row ∈ tables.turns.rows) (hother : other ∈ tables.turns.rows)
    (h : compareTurns order row other = .eq) : row = other :=
  tables.turns.eq_of_key_eq hrow hother (order.eq_of_compare _ _ (Ordering.then_eq_eq.mp h).2)

theorem UsageTables.Current.mem_rows (h : tables.Current order updates) {row : TurnUsageRow} :
    row ∈ tables.turns.rows ↔ ∃ update, latest updates row.turnId = some update ∧ update.row = row := by
  have hfind : row ∈ tables.turns.rows ↔ tables.turns.find row.turnId = some row := by
    rw [Table.find_eq_some]
    simp
  rw [hfind, h.turns, Option.map_eq_some_iff]

theorem map_id_latest (updates : List UsageUpdate) (ids : List String)
    (hids : ∀ turnId ∈ ids, turnId ∈ updates.map (·.turn.id)) :
    (ids.filterMap (latest updates)).map (·.turn.id) = ids := by
  rw [List.map_filterMap]
  induction ids with
  | nil => rfl
  | cons turnId ids ih =>
    obtain ⟨update, hupdate, rfl⟩ := List.mem_map.mp (hids turnId (by simp))
    obtain ⟨last, hlast⟩ := Option.isSome_iff_exists.mp (latest_isSome hupdate)
    rw [List.filterMap_cons, hlast, Option.map_some, ih fun other hother => hids other (by simp [hother])]
    exact congrArg (· :: ids) (latest_eq_some hlast).2

theorem UsageTables.Current.ofThread_perm_latest (h : tables.Current order updates) (threadId : String) :
    (tables.ofThread threadId).Perm
      ((((updates.map (·.turn.id)).dedup.filterMap (latest updates)).filter (·.turn.threadId = threadId)).map
        (·.row)) := by
  have hrows : tables.turns.rows.Perm (((updates.map (·.turn.id)).dedup.filterMap (latest updates)).map (·.row)) := by
    have hnodup : (((updates.map (·.turn.id)).dedup.filterMap (latest updates)).map (·.row)).Nodup := by
      apply List.Nodup.of_map TurnUsageRow.turnId
      have hids := map_id_latest updates (updates.map (·.turn.id)).dedup fun _ => List.mem_dedup.mp
      have hdedup := List.nodup_dedup (updates.map (·.turn.id))
      rw [← hids] at hdedup
      rw [List.map_map]
      exact hdedup
    refine (List.perm_ext_iff_of_nodup (List.Nodup.of_map _ tables.turns.unique) hnodup).mpr fun row => ?_
    simp only [h.mem_rows, List.mem_map, List.mem_filterMap, List.mem_dedup]
    constructor
    · intro ⟨update, hlatest, hrow⟩
      obtain ⟨hmem, hid⟩ := latest_eq_some hlatest
      exact ⟨update, ⟨row.turnId, ⟨update, hmem, hid⟩, hlatest⟩, hrow⟩
    · rintro ⟨update, ⟨turnId, -, hlatest⟩, rfl⟩
      obtain ⟨-, rfl⟩ := latest_eq_some hlatest
      exact ⟨update, hlatest, rfl⟩
  have hthread := hrows.filter (·.threadId = threadId)
  rw [List.filter_map] at hthread
  exact hthread

theorem UsageTables.Current.sorted (h : tables.Current order updates) (threadId : String) :
    toSorted (compareTurns order) (tables.ofThread threadId) = updatedTurns order updates threadId :=
  StableSort.toSorted_eq_of_perm (h.ofThread_perm_latest threadId) fun _ hrow _ hother =>
    compareTurns_eq (List.mem_of_mem_filter hrow) (List.mem_of_mem_filter hother)

end

theorem find?_bind_eq_findSome? {α β : Type*} {p : α → Bool} {f : α → Option β} {xs : List α}
    (h : ∀ x ∈ xs, p x = (f x).isSome) : (xs.find? p).bind f = xs.findSome? f := by
  induction xs with
  | nil => rfl
  | cons x xs ih =>
    rw [List.find?_cons, List.findSome?_cons, h x (by simp)]
    cases hx : f x with
    | none => exact ih fun y hy => h y (by simp [hy])
    | some y => simp [hx]

section

variable {rows : List TurnUsageRow} (heq : ∀ row ∈ rows, ∀ other ∈ rows, compareTurns order row other = .eq → row = other)

include heq

theorem newest_eq : newest order rows = (toSorted (compareTurns order) rows).getLast? := by
  rw [newest, StableSort.toSorted_swap heq, List.head?_reverse]

theorem newest_context (hcontext : ∀ row ∈ rows, row.hasContext = row.usage.context.isSome) :
    ((newest order (rows.filter (·.hasContext))).map (·.usage)).bind (·.context) =
      ((toSorted (compareTurns order) rows).map (·.usage)).reverse.findSome? (·.context) := by
  have hfiltered : ∀ row ∈ rows.filter (·.hasContext), ∀ other ∈ rows.filter (·.hasContext),
      compareTurns order row other = .eq → row = other :=
    fun row hrow other hother => heq row (List.mem_of_mem_filter hrow) other (List.mem_of_mem_filter hother)
  have hmem : ∀ row ∈ (toSorted (compareTurns order) rows).reverse, row.hasContext = row.usage.context.isSome :=
    fun row hrow => hcontext row (by simpa using hrow)
  rw [newest_eq hfiltered, StableSort.toSorted_filter _ heq, ← List.head?_reverse, ← List.filter_reverse,
    List.head?_filter, Option.bind_map, ← List.map_reverse, List.findSome?_map]
  exact find?_bind_eq_findSome? hmem

end

theorem firstActive_since {rows rows' : List TurnUsageRow} (hperm : rows.Perm rows')
    (hactive : ∀ row ∈ rows, row.activeSince = row.usage.active.since) :
    (firstActive rows).bind (·.activeSince) = ((rows'.map (·.usage)).filterMap (·.active.since)).min? := by
  have hmem (since : Finite) : since ∈ (rows'.map (·.usage)).filterMap (·.active.since) ↔
      ∃ row ∈ rows, row.activeSince = some since := by
    rw [List.filterMap_map, List.mem_filterMap]
    constructor
    · intro ⟨row, hrow, hsince⟩
      exact ⟨row, hperm.mem_iff.mpr hrow, (hactive row (hperm.mem_iff.mpr hrow)).trans hsince⟩
    · intro ⟨row, hrow, hsince⟩
      exact ⟨row, hperm.mem_iff.mp hrow, (hactive row hrow).symm.trans hsince⟩
  have hsorted : StableSort.Sorted compareActive (toSorted compareActive (rows.filter (·.activeSince.isSome))) :=
    StableSort.toSorted_sorted _
  have hof (row : TurnUsageRow) : row ∈ toSorted compareActive (rows.filter (·.activeSince.isSome)) ↔
      row ∈ rows ∧ row.activeSince.isSome = true := by
    rw [StableSort.mem_toSorted, List.mem_filter]
  rw [firstActive]
  cases hrows : toSorted compareActive (rows.filter (·.activeSince.isSome)) with
  | nil =>
    have hnil : (rows'.map (·.usage)).filterMap (·.active.since) = [] := by
      rw [List.eq_nil_iff_forall_not_mem]
      intro since hsince
      obtain ⟨row, hrow, hactive⟩ := (hmem since).mp hsince
      have := (hof row).mpr ⟨hrow, by simp [hactive]⟩
      simp [hrows] at this
    rw [hnil]
    rfl
  | cons first rest =>
    rw [hrows] at hsorted
    obtain ⟨hfirst, hsome⟩ := (hof first).mp (by simp [hrows])
    obtain ⟨since, hsince⟩ := Option.isSome_iff_exists.mp hsome
    symm
    rw [List.head?_cons, Option.bind_some, hsince, List.min?_eq_some_iff]
    refine ⟨(hmem since).mpr ⟨first, hfirst, hsince⟩, ?_⟩
    intro other hother
    obtain ⟨row, hrow, hrowSince⟩ := (hmem other).mp hother
    have hin : row ∈ first :: rest := hrows ▸ (hof row).mpr ⟨hrow, by simp [hrowSince]⟩
    rcases List.mem_cons.mp hin with rfl | hrest
    · rw [hsince] at hrowSince
      exact (Option.some_inj.mp hrowSince).le
    · have hle := List.rel_of_pairwise_cons hsorted hrest
      rw [compareActive, hsince, hrowSince] at hle
      simpa [Ordering.isLE_iff_ne_gt, compare_gt_iff_gt] using hle

theorem UsageTables.Current.row_eq (h : tables.Current order updates) {threadId : String} {row : TurnUsageRow}
    (hrow : row ∈ tables.ofThread threadId) :
    ∃ update : UsageUpdate, update.row = row := by
  obtain ⟨update, -, hupdate⟩ := h.mem_rows.mp (List.mem_of_mem_filter hrow)
  exact ⟨update, hupdate⟩

/-- What the store maintains is what a recomputation gives, but for a cache
that no attempt reported. -/
theorem usage_run (hkeep : KeepTurns updates) (threadId : String) :
    ((run order updates).usage threadId).usage =
      { aggregateUsage (latestUsages order updates threadId) with
        cache :=
          if reportsCache (latestUsages order updates threadId) then
            (aggregateUsage (latestUsages order updates threadId)).cache
          else none } := by
  have hcurrent : (run order updates).Current order updates := current_run hkeep
  have hsorted := hcurrent.sorted threadId
  have hthread := hcurrent.threads threadId
  generalize run order updates = tables at hcurrent hsorted hthread ⊢
  have hvalues : (tables.ofThread threadId).Perm (updatedTurns order updates threadId) :=
    hsorted ▸ (StableSort.toSorted_perm _ _).symm
  have heq : ∀ row ∈ tables.ofThread threadId, ∀ other ∈ tables.ofThread threadId,
      compareTurns order row other = .eq → row = other :=
    fun row hrow other hother => compareTurns_eq (List.mem_of_mem_filter hrow) (List.mem_of_mem_filter hother)
  rw [UsageTables.usage, hthread]
  by_cases hnil : tables.ofThread threadId = []
  · have hlatest : latestUsages order updates threadId = [] := by
      rw [latestUsages, ← hsorted, hnil]
      rfl
    rw [if_pos hnil, hlatest]
    rfl
  · have hne : latestUsages order updates threadId ≠ [] := by
      rw [latestUsages, ne_eq, List.map_eq_nil_iff]
      exact fun h => hnil (h ▸ hvalues).eq_nil
    have hcontext : ∀ row ∈ tables.ofThread threadId, row.hasContext = row.usage.context.isSome := by
      intro row hrow
      obtain ⟨update, rfl⟩ := hcurrent.row_eq hrow
      rfl
    have hactive : ∀ row ∈ tables.ofThread threadId, row.activeSince = row.usage.active.since := by
      intro row hrow
      obtain ⟨update, rfl⟩ := hcurrent.row_eq hrow
      rfl
    have hnewestContext := newest_context heq hcontext
    rw [hsorted] at hnewestContext
    rw [if_neg hnil, Option.map_some, Option.getD_some, threadRow, summaryOf]
    dsimp only
    rw [newest_eq heq, hsorted, firstActive_since hvalues hactive, accumulated_perm (hvalues.map (·.usage)),
      ← List.getLast?_map]
    exact summarize_accumulated (latestUsages order updates threadId) hne _ hnewestContext

end

/-- Some attempt reported the cache of these usages, or none has one. -/
def CacheReported (values : List UsageState) : Prop := reportsCache values ∨ ∀ usage ∈ values, usage.cache = none

instance (values : List UsageState) : Decidable (CacheReported values) :=
  inferInstanceAs (Decidable (reportsCache values ∨ ∀ usage ∈ values, usage.cache = none))

/-- The maintained summary of a thread is the recomputed one exactly when a
cache among the latest usages comes with an attempt that reported one. -/
theorem usage_eq_aggregateUsage_iff (updates : List UsageUpdate) (hkeep : KeepTurns updates) (threadId : String) :
    ((run order updates).usage threadId).usage = aggregateUsage (latestUsages order updates threadId) ↔
      CacheReported (latestUsages order updates threadId) := by
  rw [usage_run hkeep threadId, CacheReported, ← aggregateUsage_cache_eq_none]
  by_cases hreports : reportsCache (latestUsages order updates threadId)
  · simp [hreports]
  · rw [if_neg hreports]
    constructor
    · intro h
      exact .inr (congrArg UsageState.cache h).symm
    · rintro (h | h)
      · exact absurd h hreports
      · rw [← h]

def sampleTurn (id : String) (createdAt : Finite) : Turn where
  id := id
  threadId := "thread"
  prompt := "prompt"
  author := .human
  lineage := .original
  createdAt := createdAt
  updatedAt := createdAt
  kind := .agentExecution .running ⟨1000, 100⟩

def unreportedUsage : UsageState := { emptyUsageState with cache := some ⟨0, 0, 0, 0⟩ }

def reportedUsage : UsageState :=
  { emptyUsageState with cache := some ⟨1, 1, 7, 3⟩, costNanoUsd := some 10, pricedAttempts := 1 }

theorem usage_eq_aggregateUsage_iff_sample :
    let updates : List UsageUpdate :=
      [⟨sampleTurn "second" 2, unreportedUsage⟩, ⟨sampleTurn "first" 1, reportedUsage⟩,
        ⟨sampleTurn "second" 2, emptyUsageState⟩]
    CacheReported (latestUsages .codePoint updates "thread") ∧
      ((run .codePoint updates).usage "thread").usage = aggregateUsage (latestUsages .codePoint updates "thread") := by
  intro updates
  have hreported : CacheReported (latestUsages .codePoint updates "thread") := by decide +kernel
  exact ⟨hreported, (usage_eq_aggregateUsage_iff .codePoint updates (by decide +kernel) "thread").mpr hreported⟩

/-- The cache of a turn without a reported attempt is left out of the summary. -/
theorem usage_drops_unreported_cache :
    ((run .codePoint [⟨sampleTurn "turn" 1, unreportedUsage⟩]).usage "thread").usage ≠
      aggregateUsage (latestUsages .codePoint [⟨sampleTurn "turn" 1, unreportedUsage⟩] "thread") := by
  decide +kernel

end Rika.ThreadUsage
