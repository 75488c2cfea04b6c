import Rika.TranscriptCommits

namespace Rika.TranscriptStore

open Selection (projectionVersion)
open ThreadViewFeed (ProjectionChange)
open TranscriptUnit (encodeUnitOrder)

structure Commit where
  change : ProjectionChange
  withinTransaction : WithinTransaction

def reorders (current : Option Memory.Projection) (change : ProjectionChange) : Bool :=
  change.changedUnits.any fun unit =>
    match Memory.kept current change unit.key with
    | some stored => stored.order ≠ unit.order
    | none => false

/-- The values a commit writes are values of their columns, and it gives no
unit that stays a new order. -/
def storable (turnId : String) (current : Option Memory.Projection) (commit : Commit) : Bool :=
  if (Memory.validateUnits turnId commit.change.changedUnits).isOk = false then true
  else if Memory.staleChange current commit.change then Sql.bindsCheckpoint commit.change
  else if commit.withinTransaction.isOk = false then true
  else
    Sql.bindsCheckpoint commit.change &&
      Sql.isInteger (Memory.candidate current commit.change).checkpointGeneration &&
      Sql.bindsUnits commit.change && !reorders current commit.change

structure Stores where
  memory : Option Memory.Projection
  sql : Sql.TurnRows

def Stores.results (turnId : String) (stores : Stores) (commit : Commit) :
    Except String CommitResult × Except String CommitResult :=
  ((Memory.commitProjection turnId stores.memory commit.change commit.withinTransaction).1,
    (Sql.commitProjection turnId stores.sql commit.change commit.withinTransaction).1)

def Stores.commit (turnId : String) (stores : Stores) (commit : Commit) : Stores where
  memory := (Memory.commitProjection turnId stores.memory commit.change commit.withinTransaction).2
  sql := (Sql.commitProjection turnId stores.sql commit.change commit.withinTransaction).2

section

variable {current : Option Memory.Projection} {rows : Sql.TurnRows} {change : ProjectionChange} {turnId : String}

theorem Agree.unique (h : Agree current rows) : ((Memory.units current).map (·.key)).Nodup := by
  have hkeys := h.units.map Sql.UnitRow.unitKey
  rw [List.map_map] at hkeys
  exact hkeys.nodup rows.units.unique

theorem Agree.formed (h : Agree current rows) : Sql.WellFormed rows.units := by
  intro row hrow
  obtain ⟨unit, hunit, rfl⟩ := List.mem_map.mp (h.units.mem_iff.mp hrow)
  exact ⟨rfl, h.intrinsic unit hunit⟩

theorem Agree.find (h : Agree current rows) (unitKey : String) :
    rows.units.find unitKey = (findUnit (Memory.units current) unitKey).map Sql.unitRow :=
  (rows_perm_iff h.unique rows.units).mp h.units unitKey

theorem accepts_checkpointRow (projection : Memory.Projection) (change : ProjectionChange) :
    Sql.accepts projection.checkpointRow change = !Memory.staleChange (some projection) change := by
  cases change with
  | projectionSnapshot baseRevision revision checkpoint units hasOlder state =>
    cases baseRevision with
    | none =>
      change (decide (projection.projectionVersion < projectionVersion) ||
        (decide (projection.projectionVersion = projectionVersion) && decide (projection.revision ≤ revision))) =
          !(decide (projection.projectionVersion > projectionVersion) ||
            (decide (projection.projectionVersion = projectionVersion) && decide (projection.revision > revision)))
      rw [Bool.eq_iff_iff]
      simp only [Bool.or_eq_true, Bool.and_eq_true, decide_eq_true_eq, Bool.not_eq_true', Bool.or_eq_false_iff,
        Bool.and_eq_false_iff, decide_eq_false_iff_not, not_lt, gt_iff_lt]
      grind
    | some base =>
      change (decide (projection.projectionVersion < projectionVersion) ||
        (decide (projection.projectionVersion = projectionVersion) && decide (projection.revision = base))) =
          !(decide (projection.projectionVersion > projectionVersion) ||
            (decide (projection.projectionVersion = projectionVersion) && decide (projection.revision ≠ base)))
      rw [Bool.eq_iff_iff]
      simp only [Bool.or_eq_true, Bool.and_eq_true, decide_eq_true_eq, Bool.not_eq_true', Bool.or_eq_false_iff,
        Bool.and_eq_false_iff, decide_eq_false_iff_not, not_lt, gt_iff_lt, not_not]
      grind
  | projectionPatch baseRevision revision checkpoint upsert remove state =>
    change (decide (projection.revision = baseRevision) && decide (projection.projectionVersion = projectionVersion)) =
      !(decide (some projection.projectionVersion ≠ some projectionVersion) ||
        decide (some projection.revision ≠ some baseRevision))
    rw [Bool.eq_iff_iff]
    simp only [Bool.and_eq_true, decide_eq_true_eq, Bool.not_eq_true', Bool.or_eq_false_iff, decide_eq_false_iff_not,
      not_not, Option.some.injEq]
    exact and_comm

theorem staleChange_none (change : ProjectionChange) : Memory.staleChange none change =
      match change with
      | .projectionSnapshot _ _ _ _ _ _ => false
      | .projectionPatch _ _ _ _ _ _ => true := by
  cases change <;> rfl

theorem writeCheckpoint_eq (change : ProjectionChange) (current : Option Memory.Projection) :
    (Sql.writeCheckpoint (current.map (·.checkpointRow)) change).toOption =
      if Sql.bindsCheckpoint change = false then none
      else if Memory.staleChange current change then some none
      else if Sql.isInteger (Memory.candidate current change).checkpointGeneration then
        some (some (Memory.candidate current change).checkpointRow)
      else none := by
  unfold Sql.writeCheckpoint
  by_cases hbinds : Sql.bindsCheckpoint change = false
  · rw [if_pos hbinds, if_pos (by rw [hbinds]; rfl)]
    rfl
  · rw [if_neg hbinds, if_neg (by simpa using hbinds)]
    cases current with
    | none =>
      rw [staleChange_none]
      cases change with
      | projectionSnapshot baseRevision revision checkpoint units hasOlder state => rfl
      | projectionPatch baseRevision revision checkpoint upsert remove state => rfl
    | some projection =>
      simp only [Option.map_some, accepts_checkpointRow, Bool.not_not]
      by_cases hstale : Memory.staleChange (some projection) change = true
      · rw [if_pos hstale, if_pos hstale]
        rfl
      · rw [if_neg hstale, if_neg hstale]
        have hgeneration : ((Memory.candidate (some projection) change).checkpointGeneration : Finite) =
            projection.checkpointRow.checkpointGeneration + 1 := Nat.cast_succ _
        rw [hgeneration]
        split
        · rfl
        · rfl

theorem reorders_eq_false : reorders current change = false ↔
    ∀ unit ∈ change.changedUnits, ∀ stored, Memory.kept current change unit.key = some stored →
      stored.order = unit.order := by
  rw [reorders, List.any_eq_false]
  refine forall_congr' fun unit => forall_congr' fun _ => ?_
  cases Memory.kept current change unit.key with
  | none => simp
  | some stored => simp

theorem agree_candidate_iff (h : Agree current rows) (hstale : Memory.staleChange current change = false)
    (hintrinsic : ∀ unit ∈ change.changedUnits, hasIntrinsicOrder unit = true)
    (hnodup : (change.changedUnits.map (·.key)).Nodup) {units : Table Sql.UnitRow.unitKey}
    (hfind : ∀ unitKey,
      let before :=
        if shouldDeleteStoredUnits (Memory.replacing current) change || unitKey ∈ removedUnitKeys change then none
        else rows.units.find unitKey
      units.find unitKey =
        match findUnit change.changedUnits unitKey with
        | some unit => some (Sql.upserted before unit)
        | none => before) :
    Agree (some (Memory.materialize (Memory.candidate current change)))
        ⟨some (Memory.candidate current change).checkpointRow, units⟩ ↔
      reorders current change = false := by
  obtain ⟨hunique, hspec⟩ := Memory.projectionUnits_spec hstale h.unique hnodup
  have hperm : (Memory.materialize (Memory.candidate current change)).units.Perm
      (Memory.projectionUnits current change change.changedUnits) := StableSort.toSorted_perm _ _
  have hbefore (unitKey : String) :
      (if shouldDeleteStoredUnits (Memory.replacing current) change || unitKey ∈ removedUnitKeys change then none
        else rows.units.find unitKey) = (Memory.kept current change unitKey).map Sql.unitRow := by
    rw [Memory.kept, h.find]
    split <;> rfl
  have hmemory (unitKey : String) : findUnit (Memory.materialize (Memory.candidate current change)).units unitKey =
      (findUnit change.changedUnits unitKey).or (Memory.kept current change unitKey) := by
    rw [← hspec, findUnit_perm hperm ((hperm.map (·.key)).nodup_iff.mpr hunique)]
  have hrows : units.rows.Perm ((Memory.materialize (Memory.candidate current change)).units.map Sql.unitRow) ↔
      reorders current change = false := by
    rw [rows_perm_iff ((hperm.map (·.key)).nodup_iff.mpr hunique), reorders_eq_false]
    constructor
    · intro hagree unit hunit stored hstored
      have hchanged : findUnit change.changedUnits unit.key = some unit := (findUnit_eq_some hnodup).mpr ⟨hunit, rfl⟩
      have hrow := (hfind unit.key).symm.trans (hagree unit.key)
      simp only [hmemory, hchanged, hbefore, hstored, Option.map_some, Option.some_or, Option.some_inj, Sql.upserted] at hrow
      split at hrow
      · next horder => exact TranscriptUnit.encodeUnitOrder_injective horder
      · exact TranscriptUnit.encodeUnitOrder_injective (congrArg Sql.UnitRow.unitOrderKey hrow)
    · intro hkept unitKey
      rw [hfind, hmemory]
      simp only [hbefore]
      cases hchanged : findUnit change.changedUnits unitKey with
      | none => rfl
      | some unit =>
        obtain ⟨hunit, rfl⟩ := (findUnit_eq_some hnodup).mp hchanged
        cases hstored : Memory.kept current change unit.key with
        | none => rfl
        | some stored =>
          have horder : (Sql.unitRow stored).unitOrderKey = encodeUnitOrder unit.order :=
            congrArg encodeUnitOrder (hkept unit hunit stored hstored)
          exact congrArg some (if_pos horder)
  rw [← hrows]
  constructor
  · intro hagree
    exact hagree.units
  · intro hunits
    refine ⟨rfl, hunits, fun unit hunit => ?_⟩
    have hfound : findUnit (Memory.materialize (Memory.candidate current change)).units unit.key = some unit :=
      (findUnit_eq_some ((hperm.map (·.key)).nodup_iff.mpr hunique)).mpr ⟨hunit, rfl⟩
    rw [hmemory, Option.or_eq_some_iff] at hfound
    rcases hfound with hchanged | ⟨-, hkept⟩
    · exact hintrinsic unit ((findUnit_eq_some hnodup).mp hchanged).1
    · rw [Memory.kept] at hkept
      split at hkept
      · cases hkept
      · exact h.intrinsic unit ((findUnit_eq_some h.unique).mp hkept).1

theorem replacingOlderProjection_eq (h : Agree current rows) :
    Sql.replacingOlderProjection rows.checkpoint = Memory.replacing current := by
  rw [h.checkpoint]
  cases current <;> rfl

theorem toOption_bind {ε α β : Type} (x : Except ε α) (f : α → Except ε β) :
    (x >>= f).toOption = x.toOption.bind fun a => (f a).toOption := by
  cases x <;> rfl

end

/-- A commit returns one result from both stores, and leaves them agreed. -/
def Stores.Alike (turnId : String) (stores : Stores) (commit : Commit) : Prop :=
  (stores.results turnId commit).1.toOption = (stores.results turnId commit).2.toOption ∧
    Agree (stores.commit turnId commit).memory (stores.commit turnId commit).sql

section

variable {turnId : String} {stores : Stores} {commit : Commit}

theorem sql_commit_failed (h : (Sql.transaction stores.sql commit.change commit.withinTransaction).toOption = none) :
    (stores.results turnId commit).2.toOption = none ∧ (stores.commit turnId commit).sql = stores.sql := by
  have hnone : (Sql.validateUnits turnId commit.change.changedUnits >>=
      fun _ => Sql.transaction stores.sql commit.change commit.withinTransaction).toOption = none := by
    rw [toOption_bind, h]
    cases (Sql.validateUnits turnId commit.change.changedUnits).toOption <;> rfl
  simp only [Stores.results, Stores.commit, Sql.commitProjection]
  cases hresult : (Sql.validateUnits turnId commit.change.changedUnits >>=
      fun _ => Sql.transaction stores.sql commit.change commit.withinTransaction) with
  | error message => exact ⟨rfl, rfl⟩
  | ok pair =>
    rw [hresult] at hnone
    cases hnone

variable {seen : Seen} {rows : Sql.TurnRows} {message : String}

theorem sql_commit_ok (hvalid : Memory.validateUnits turnId commit.change.changedUnits = .ok seen) {result : CommitResult}
    (h : (Sql.transaction stores.sql commit.change commit.withinTransaction).toOption = some (result, rows)) :
    (stores.results turnId commit).2.toOption = some result ∧ (stores.commit turnId commit).sql = rows := by
  cases htransaction : Sql.transaction stores.sql commit.change commit.withinTransaction with
  | error message =>
    rw [htransaction] at h
    cases h
  | ok pair =>
    rw [htransaction] at h
    cases h
    simp only [Stores.results, Stores.commit, Sql.commitProjection, validateUnits_iff.mpr hvalid, bind, Except.bind,
      htransaction]
    exact ⟨rfl, trivial⟩

theorem transaction_toOption (rows : Sql.TurnRows) (change : ProjectionChange) (withinTransaction : WithinTransaction) :
    (Sql.transaction rows change withinTransaction).toOption =
      (Sql.writeCheckpoint rows.checkpoint change).toOption.bind fun
        | none => some (.stale, rows)
        | some checkpoint =>
          (Sql.writeUnits rows.units (Sql.replacingOlderProjection rows.checkpoint) change).toOption.bind fun units =>
            withinTransaction.toOption.bind fun _ => some (.committed, ⟨some checkpoint, units⟩) := by
  rw [Sql.transaction, toOption_bind]
  congr 1
  funext written
  cases written with
  | none => rfl
  | some checkpoint =>
    simp only [toOption_bind]
    rfl

theorem alike_eq {result : Except String CommitResult} {memory : Option Memory.Projection}
    (hmemory : Memory.commitProjection turnId stores.memory commit.change commit.withinTransaction = (result, memory))
    {sqlResult : Option CommitResult}
    (hsql : (stores.results turnId commit).2.toOption = sqlResult ∧ (stores.commit turnId commit).sql = rows) :
    stores.Alike turnId commit ↔ result.toOption = sqlResult ∧ Agree memory rows := by
  rw [Stores.Alike, hsql.1, hsql.2, Stores.results, Stores.commit, hmemory]

theorem memory_commit_valid (h : Memory.validateUnits turnId commit.change.changedUnits = .ok seen) :
    Memory.commitProjection turnId stores.memory commit.change commit.withinTransaction =
      if Memory.staleChange stores.memory commit.change then (.ok .stale, stores.memory)
      else
        match commit.withinTransaction with
        | .error message => (.error message, stores.memory)
        | .ok _ => (.ok .committed, some (Memory.materialize (Memory.candidate stores.memory commit.change))) := by
  unfold Memory.commitProjection
  rw [h]
  rfl

section

variable (h : Agree stores.memory stores.sql)

include h

theorem alike_of_invalid
    (hvalid : Memory.validateUnits turnId commit.change.changedUnits = .error message) : stores.Alike turnId commit := by
  have hmemory : Memory.commitProjection turnId stores.memory commit.change commit.withinTransaction =
      (.error message, stores.memory) := by
    unfold Memory.commitProjection
    rw [hvalid]
  have hsql : (stores.results turnId commit).2.toOption = none ∧ (stores.commit turnId commit).sql = stores.sql := by
    cases hvalidSql : Sql.validateUnits turnId commit.change.changedUnits with
    | ok seen =>
      rw [validateUnits_iff.mp hvalidSql] at hvalid
      cases hvalid
    | error message' =>
      simp only [Stores.results, Stores.commit, Sql.commitProjection, hvalidSql, bind, Except.bind]
      exact ⟨rfl, trivial⟩
  exact (alike_eq hmemory hsql).mpr ⟨rfl, h⟩

theorem alike_of_stale (hvalid : Memory.validateUnits turnId commit.change.changedUnits = .ok seen)
    (hstale : Memory.staleChange stores.memory commit.change = true) :
    stores.Alike turnId commit ↔ Sql.bindsCheckpoint commit.change = true := by
  have hmemory : Memory.commitProjection turnId stores.memory commit.change commit.withinTransaction =
      (.ok .stale, stores.memory) := (memory_commit_valid hvalid).trans (if_pos hstale)
  have hcheckpoint := writeCheckpoint_eq commit.change stores.memory
  have htransaction := transaction_toOption stores.sql commit.change commit.withinTransaction
  rw [← h.checkpoint, hstale] at hcheckpoint
  rw [hcheckpoint] at htransaction
  by_cases hbinds : Sql.bindsCheckpoint commit.change = false
  · rw [if_pos hbinds] at htransaction
    rw [alike_eq hmemory (sql_commit_failed htransaction), hbinds]
    exact ⟨by rintro ⟨⟨⟩, -⟩, by rintro ⟨⟩⟩
  · rw [if_neg hbinds] at htransaction
    rw [alike_eq hmemory (sql_commit_ok hvalid htransaction)]
    exact ⟨fun _ => by simpa using hbinds, fun _ => ⟨rfl, h⟩⟩

theorem alike_of_failed (hvalid : Memory.validateUnits turnId commit.change.changedUnits = .ok seen)
    (hstale : Memory.staleChange stores.memory commit.change = false)
    (hwithin : commit.withinTransaction = .error message) : stores.Alike turnId commit := by
  have hmemory : Memory.commitProjection turnId stores.memory commit.change commit.withinTransaction =
      (.error message, stores.memory) := by
    rw [memory_commit_valid hvalid, hstale, hwithin]
    rfl
  have hcheckpoint := writeCheckpoint_eq commit.change stores.memory
  have htransaction := transaction_toOption stores.sql commit.change commit.withinTransaction
  rw [← h.checkpoint, hstale] at hcheckpoint
  rw [hcheckpoint, hwithin] at htransaction
  have hnone : (Sql.transaction stores.sql commit.change commit.withinTransaction).toOption = none := by
    rw [hwithin, htransaction]
    generalize (Sql.writeUnits stores.sql.units _ commit.change).toOption = units
    by_cases hbinds : Sql.bindsCheckpoint commit.change = false
    · rw [if_pos hbinds]
      rfl
    · rw [if_neg hbinds, if_neg Bool.false_ne_true]
      split
      · cases units <;> rfl
      · rfl
  exact (alike_eq hmemory (sql_commit_failed hnone)).mpr ⟨rfl, h⟩

theorem alike_of_accepted (hvalid : Memory.validateUnits turnId commit.change.changedUnits = .ok seen)
    (hstale : Memory.staleChange stores.memory commit.change = false)
    (hwithin : commit.withinTransaction = .ok ⟨⟩) :
    stores.Alike turnId commit ↔
      (Sql.bindsCheckpoint commit.change &&
        Sql.isInteger (Memory.candidate stores.memory commit.change).checkpointGeneration &&
        Sql.bindsUnits commit.change && !reorders stores.memory commit.change) = true := by
  obtain ⟨hintrinsic, hnodup⟩ := valid_of_validateUnits hvalid
  have hmemory : Memory.commitProjection turnId stores.memory commit.change commit.withinTransaction =
      (.ok .committed, some (Memory.materialize (Memory.candidate stores.memory commit.change))) := by
    rw [memory_commit_valid hvalid, hstale, hwithin]
    rfl
  have hcheckpoint := writeCheckpoint_eq commit.change stores.memory
  have htransaction := transaction_toOption stores.sql commit.change commit.withinTransaction
  rw [← h.checkpoint, hstale] at hcheckpoint
  rw [hcheckpoint, hwithin, replacingOlderProjection_eq h] at htransaction
  have hfailed : (Sql.transaction stores.sql commit.change commit.withinTransaction).toOption = none →
      ¬stores.Alike turnId commit := by
    intro hnone halike
    have hresult := ((alike_eq hmemory (sql_commit_failed hnone)).mp halike).1
    cases hresult
  rw [← hwithin] at htransaction
  by_cases hbinds : Sql.bindsCheckpoint commit.change = false
  · rw [if_pos hbinds] at htransaction
    simp [hfailed htransaction, hbinds]
  · rw [if_neg hbinds, if_neg Bool.false_ne_true] at htransaction
    by_cases hinteger : Sql.isInteger (Memory.candidate stores.memory commit.change).checkpointGeneration = true
    · rw [if_pos hinteger] at htransaction
      by_cases hunits : Sql.bindsUnits commit.change = true
      · obtain ⟨units, hwrite, hfind⟩ := @Sql.writeUnits_spec stores.sql.units (Memory.replacing stores.memory)
          commit.change h.formed hunits hintrinsic hnodup
        have hcommitted : (Sql.transaction stores.sql commit.change commit.withinTransaction).toOption =
            some (.committed, ⟨some (Memory.candidate stores.memory commit.change).checkpointRow, units⟩) := by
          rw [htransaction, hwrite, hwithin]
          rfl
        have hok := sql_commit_ok hvalid hcommitted
        rw [alike_eq hmemory hok, agree_candidate_iff h hstale hintrinsic hnodup hfind]
        simp only [Bool.not_eq_false] at hbinds
        simp [hbinds, hinteger, hunits, Except.toOption]
      · obtain ⟨message, hwrite⟩ := @Sql.writeUnits_error stores.sql.units (Memory.replacing stores.memory)
          commit.change (by simpa using hunits)
        have hnone : (Sql.transaction stores.sql commit.change commit.withinTransaction).toOption = none := by
          rw [htransaction, hwrite]
          rfl
        simp [hfailed hnone, hunits]
    · rw [if_neg hinteger] at htransaction
      simp [hfailed htransaction, hinteger]

/-- A commit leaves the stores agreed and its results equal exactly when its
values can be stored and it reorders no unit. -/
theorem alike_iff : stores.Alike turnId commit ↔ storable turnId stores.memory commit = true := by
  rw [storable]
  cases hvalid : Memory.validateUnits turnId commit.change.changedUnits with
  | error message => exact ⟨fun _ => rfl, fun _ => alike_of_invalid h hvalid⟩
  | ok seen =>
    rw [if_neg (by rintro ⟨⟩)]
    by_cases hstale : Memory.staleChange stores.memory commit.change = true
    · rw [if_pos hstale, alike_of_stale h hvalid hstale]
    · rw [if_neg hstale]
      rw [Bool.not_eq_true] at hstale
      cases hwithin : commit.withinTransaction with
      | error message => exact ⟨fun _ => rfl, fun _ => alike_of_failed h hvalid hstale hwithin⟩
      | ok _ => exact (alike_of_accepted h hvalid hstale hwithin).trans (by rw [if_neg (by rintro ⟨⟩)])

end

end

def Stores.empty : Stores := ⟨none, ⟨none, .empty⟩⟩

theorem agree_empty : Agree Stores.empty.memory Stores.empty.sql := ⟨rfl, .nil, fun _ hunit => by cases hunit⟩

/-- Both stores commit alike throughout a run exactly when every commit of it
can be stored and reorders no unit that stays. -/
theorem commits_alike_iff (turnId : String) (stores : Stores) (h : Agree stores.memory stores.sql)
    (commits : List Commit) :
    Fold.Throughout (Stores.commit turnId) (Stores.Alike turnId) stores commits ↔
      Fold.Throughout (Stores.commit turnId) (fun stores commit => storable turnId stores.memory commit = true)
        stores commits := by
  induction commits generalizing stores with
  | nil => exact Iff.rfl
  | cons commit commits ih =>
    constructor
    · intro ⟨halike, hrest⟩
      exact ⟨(alike_iff h).mp halike, (ih _ halike.2).mp hrest⟩
    · intro ⟨hstorable, hrest⟩
      have halike := (alike_iff h).mpr hstorable
      exact ⟨halike, (ih _ halike.2).mpr hrest⟩

theorem sampleKey_ne : "key" ≠ "" := by decide

def sampleOrder (sequence : Int) (h : -1 ≤ sequence ∧ sequence ≤ TranscriptUnit.maxSafeInteger) :
    TranscriptUnit.UnitOrder :=
  ⟨[⟨sequence, 0, "key", h.1, h.2, Nat.zero_le _, sampleKey_ne⟩], List.cons_ne_nil _ _⟩

def sampleUnit (order : TranscriptUnit.UnitOrder) (text : String) : TranscriptUnit.Unit where
  key := "key"
  turnId := "turn"
  parentId := none
  modelResponseId := none
  order := order
  revision := 1
  executionOutcome := none
  content := .entry .assistant text

def sampleState : Selection.ProjectionState := ⟨.running, none, Usage.emptyUsageState, ⟨none, none⟩⟩

def firstCommit : Commit :=
  ⟨.projectionSnapshot none 0 (some ⟨"cursor", "state"⟩) [sampleUnit (sampleOrder 1 (by decide)) "first"] false sampleState,
    .ok ⟨⟩⟩

def movingCommit : Commit :=
  ⟨.projectionPatch 0 1 ⟨"cursor", "state"⟩ [sampleUnit (sampleOrder 2 (by decide)) "second"] [] sampleState, .ok ⟨⟩⟩

/-- The same patch, with the key among those it removes. -/
def replacingCommit : Commit :=
  ⟨.projectionPatch 0 1 ⟨"cursor", "state"⟩ [sampleUnit (sampleOrder 2 (by decide)) "second"] ["key"] sampleState,
    .ok ⟨⟩⟩

theorem commits_alike_iff_sample :
    Fold.Throughout (Stores.commit "turn") (Stores.Alike "turn") .empty [firstCommit, replacingCommit] :=
  (commits_alike_iff "turn" .empty agree_empty [firstCommit, replacingCommit]).mpr (by decide +kernel)

/-- A unit given a new order is stored in memory and not in the database, and
both commits say that they committed. -/
theorem moved_unit_differs :
    let stores := Stores.empty.commit "turn" firstCommit
    (stores.results "turn" movingCommit).1.toOption = some .committed ∧
      (stores.results "turn" movingCommit).2.toOption = some .committed ∧
      ¬Fold.Throughout (Stores.commit "turn") (Stores.Alike "turn") .empty [firstCommit, movingCommit] := by
  have hfirst : Stores.empty.Alike "turn" firstCommit := (alike_iff agree_empty).mpr (by decide +kernel)
  refine ⟨by decide +kernel, by decide +kernel, fun h => ?_⟩
  have hmoving : storable "turn" (Stores.empty.commit "turn" firstCommit).memory movingCommit = true :=
    (alike_iff hfirst.2).mp h.2.1
  exact absurd hmoving (by decide +kernel)

end Rika.TranscriptStore
