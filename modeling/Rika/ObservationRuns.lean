import Rika.ObservationOverlay

namespace Rika.ProcessObservations

open Assignments (AssignmentRow)
open ExecutorOperations (OperationKey OperationRow OperationStore)
open ThreadViewFeed (ProjectionChange)
open TranscriptStore (WithinTransaction)
open TranscriptStore.Sql (TurnRows UnitRow isText replacingOlderProjection writeUnits)

variable {Json : Type} {store store' : Store Json}

variable {observations : List OperationObservation} {stored : UnitRow} {row : OperationObservation}
    {operations : OperationStore Json} {world : World Json} {input : ProcessObservationInput} {result : ObservationResult}

theorem Overlaid.refl (h : observations = []) (row : UnitRow) : Overlaid observations row row := by
  subst h
  exact ⟨rfl, rfl, rfl, rfl, [], fun _ hrow => hrow, fun _ => .nil, rfl⟩

theorem Overlaid.observe {projected : UnitRow} (h : Overlaid observations projected stored) (row : OperationObservation) :
    Overlaid (observations ++ [row]) projected (observeRow row stored) := by
  obtain ⟨order, hmem, hperm, hunit⟩ := h.unit
  refine ⟨h.key, h.orderKey, h.parentId, h.revision, order ++ [row], fun other hother => ?_, fun hrunning => ?_, ?_⟩
  · rcases List.mem_append.mp hother with hother | hother
    · exact List.mem_append_left _ (hmem other hother)
    · exact List.mem_append_right _ hother
  · exact (hperm hrunning).append_right [row]
  · rw [overlay_append, ← hunit]
    rfl

theorem observeRow_of_not_concerns (h : concerns row stored.unit = false) : observeRow row stored = stored := by
  rw [observeRow, applyObservation_of_not_concerns h]

theorem observeTurn_eq_ok {rows rows' : TurnRows} (h : observeTurn rows row = .ok rows') :
    rows'.units.rows = rows.units.rows.map (observeRow row) := by
  rw [observeTurn, Fold.bind_eq_ok] at h
  obtain ⟨checkpoint, -, h⟩ := h
  cases h
  rw [Table.rows_update]
  apply List.map_congr_left
  intro stored _
  split
  · rfl
  · next hconcerns => exact (observeRow_of_not_concerns (by simpa using hconcerns)).symm

theorem OverlaidRows.observe {projected stored stored' : Table UnitRow.unitKey} (h : OverlaidRows observations projected stored)
    (hrows : stored'.rows = stored.rows.map (observeRow row)) :
    OverlaidRows (observations ++ [row]) projected stored' := by
  rw [OverlaidRows, hrows, List.forall₂_map_right_iff]
  exact List.Forall₂.imp (fun _ _ hrow => hrow.observe row) h

section Records

variable {world : World Json} {input : ProcessObservationInput} {result : ObservationResult}

/-- A recording is answered with what it recorded, or leaves everything as it was. -/
inductive Recording (store : Store Json) (world : World Json) (input : ProcessObservationInput) :
    ObservationResult → Store Json → Prop
  | refused (answer : ObservationResult) (h : answer ≠ .recorded) : Recording store world input answer store
  | recorded (operation : OperationRow Json) (observations : Observations) (rows : TurnRows)
      (hoperation : store.operations.operations.find input.operation = some operation)
      (htext : isText input.observation.processId = true ∧ input.observation.processId ≠ "")
      (hobservations : observations.rows =
        store.observations.rows ++ [⟨input.operation, input.observation.processId, input.observation⟩])
      (hrows : rows.units.rows = (store.turns operation.turnId).units.rows.map
        (observeRow ⟨operation.operationKey, operation.toolCallId, input.observation⟩)) :
      Recording store world input .recorded
        ⟨store.operations, observations, Function.update store.turns operation.turnId rows⟩

theorem operationFor_eq_some {operation : OperationRow Json} {assignment : AssignmentRow}
    (h : operationFor store world input = some (operation, assignment)) :
    store.operations.operations.find input.operation = some operation := by
  rw [operationFor, Option.bind_eq_bind, Option.bind_eq_some_iff] at h
  obtain ⟨found, hfound, h⟩ := h
  rw [Option.bind_eq_bind, Option.bind_eq_some_iff] at h
  obtain ⟨other, -, h⟩ := h
  cases h
  exact hfound

theorem recordProcessObservation_recording
    (h : recordProcessObservation store world input = .ok (result, store')) :
    Recording store world input result store' := by
  rw [recordProcessObservation] at h
  split at h
  · cases h
    exact .refused .missing (by decide)
  · next operation assignment hoperation =>
      split at h
      · cases h
        exact .refused .fenced (by decide)
      split at h
      · cases h
      · next htext =>
          split at h
          · cases h
            refine .refused _ ?_
            split
            · decide
            · decide
          · next hfresh =>
              rw [Fold.bind_eq_ok] at h
              obtain ⟨rows, hrows, h⟩ := h
              cases h
              refine .recorded operation _ rows (operationFor_eq_some hoperation) ?_ ?_ (observeTurn_eq_ok hrows)
              · simpa using htext
              · cases hinsert : store.observations.insert
                    ⟨input.operation, input.observation.processId, input.observation⟩ with
                | none => exact absurd hfresh (Table.insert_eq_none.mp hinsert)
                | some observations => exact (Table.insert_eq_some.mp hinsert).2

def admits (store : Store Json) (world : World Json) (input : ProcessObservationInput) : Bool :=
  (operationFor store world input).any fun found => recordable world found.1 found.2 input

theorem recordProcessObservation_stored {row : ObservationRow}
    (hrow : store.observations.find (input.operation, input.observation.processId) = some row)
    (htext : isText row.processId = true ∧ row.processId ≠ "") :
    (admits store world input = true → row.observation = input.observation →
        recordProcessObservation store world input = .ok (.duplicate, store)) ∧
      (admits store world input = false ∨ row.observation ≠ input.observation →
        recordProcessObservation store world input = .ok (.fenced, store) ∨
          recordProcessObservation store world input = .ok (.missing, store)) := by
  have hkey : row.key = (input.operation, input.observation.processId) := Table.key_of_find hrow
  have hprocess : row.processId = input.observation.processId := congrArg Prod.snd hkey
  rw [hprocess] at htext
  rw [admits, recordProcessObservation]
  cases hoperation : operationFor store world input with
  | none =>
    refine ⟨fun hadmits => ?_, fun _ => .inr rfl⟩
    cases hadmits
  | some found =>
    cases hrecordable : recordable world found.1 found.2 input with
    | false => simp [hrecordable]
    | true =>
      by_cases hsame : row.observation = input.observation
      · simp [hrecordable, htext, hrow, hsame]
      · simp [hrecordable, htext, hrow, hsame]

end Records

section Commits

variable {order : RowOrder} {turnId : String} {change : ProjectionChange} {withinTransaction : WithinTransaction}

variable {result : TranscriptStore.CommitResult}

theorem transaction_eq_ok {rows rows' : TurnRows}
    (h : TranscriptStore.Sql.transaction rows change withinTransaction = .ok (result, rows')) :
    (result = .stale ∧ rows' = rows) ∨
      (result = .committed ∧
        writeUnits rows.units (replacingOlderProjection rows.checkpoint) change = .ok rows'.units) := by
  rw [TranscriptStore.Sql.transaction, Fold.bind_eq_ok] at h
  obtain ⟨checkpoint, -, h⟩ := h
  cases checkpoint with
  | none =>
    cases h
    exact .inl ⟨rfl, rfl⟩
  | some checkpoint =>
    rw [Fold.bind_eq_ok] at h
    obtain ⟨units, hunits, h⟩ := h
    rw [Fold.bind_eq_ok] at h
    obtain ⟨_, -, h⟩ := h
    cases h
    exact .inr ⟨rfl, hunits⟩

theorem commitProjection_eq_ok (h : commitProjection store order turnId change withinTransaction = .ok (result, store')) :
    ∃ rows, store' = { store with turns := Function.update store.turns turnId rows } ∧
      ((result = .stale ∧ rows = store.turns turnId) ∨
        (result = .committed ∧
          writeUnits (store.turns turnId).units (replacingOlderProjection (store.turns turnId).checkpoint)
            (withUnits change
              (overlayProcessObservations (order.sort (turnObservations store turnId)) change.changedUnits)) =
            .ok rows.units)) := by
  rw [commitProjection, Fold.bind_eq_ok] at h
  obtain ⟨seen, -, h⟩ := h
  dsimp only at h
  rw [Fold.bind_eq_ok] at h
  obtain ⟨⟨answer, rows⟩, htransaction, h⟩ := h
  cases h
  exact ⟨rows, rfl, transaction_eq_ok htransaction⟩

theorem overlaidUnits {observations sorted : List OperationObservation} (hsorted : sorted.Perm observations)
    (units : List TranscriptUnit.Unit) :
    List.Forall₂ (OverlaidUnit observations) units (overlayProcessObservations sorted units) := by
  rw [overlayProcessObservations]
  split
  · rw [List.forall₂_map_right_iff, List.forall₂_same]
    intro unit _
    exact ⟨sorted, fun row hrow => hsorted.mem_iff.mp hrow, fun _ => hsorted, rfl⟩
  · next hidle =>
      rw [List.forall₂_same]
      intro unit hunit
      refine ⟨[], nofun, fun hrunning => ?_, rfl⟩
      exact absurd (List.any_eq_true.mpr ⟨unit, hunit, hrunning⟩) hidle

end Commits

structure System.Sound (system : System Json) : Prop where
  operations : system.store.operations.Sound
  filed : ∀ row ∈ system.store.observations.rows, system.store.operations.operations.find row.operation ≠ none
  named : ∀ row ∈ system.store.observations.rows, isText row.processId = true ∧ row.processId ≠ ""
  overlaid : ∀ turnId, OverlaidRows (turnObservations system.store turnId) (system.projected turnId)
    (system.store.turns turnId).units

theorem initial_sound (turns : String → TurnRows) : (System.initial turns : System Json).Sound where
  operations := OperationStore.empty_sound
  filed _ hrow := absurd hrow List.not_mem_nil
  named _ hrow := absurd hrow List.not_mem_nil
  overlaid _ := List.forall₂_same.mpr fun row _ => .refl rfl row

theorem find_changes [DecidableEq Json] {call : ExecutorOperations.Call Json} {operations' : OperationStore Json}
    (h : OperationStore.Changes call operations operations') {key : OperationKey} {row : OperationRow Json}
    (hrow : operations.operations.find key = some row) :
    ∃ row', operations'.operations.find key = some row' ∧ row'.toOperationIdentity = row.toOperationIdentity := by
  have hstep := h.step key
  rw [OperationStore.operation, OperationStore.operation, hrow] at hstep
  generalize operations'.operations.find key = found at hstep ⊢
  generalize (operations'.frames.select fun row => row.operation = key).map (·.frame) = log' at hstep
  generalize (operations.frames.select fun row => row.operation = key).map (·.frame) = log at hstep
  cases hstep with
  | same => exact ⟨row, rfl, rfl⟩
  | claimed => exact ⟨_, rfl, rfl⟩
  | renewed => exact ⟨_, rfl, rfl⟩
  | appended => exact ⟨_, rfl, rfl⟩
  | settled => exact ⟨_, rfl, rfl⟩

variable {system : System Json}

theorem turnObservations_operations
    (hfiled : ∀ row ∈ store.observations.rows, store.operations.operations.find row.operation ≠ none)
    (hkept : ∀ key row, store.operations.operations.find key = some row →
      ∃ row', operations.operations.find key = some row' ∧ row'.toOperationIdentity = row.toOperationIdentity)
    (turnId : String) :
    turnObservations { store with operations } turnId = turnObservations store turnId := by
  apply List.filterMap_congr
  intro row hrow
  obtain ⟨operation, hfind⟩ := Option.ne_none_iff_exists'.mp (hfiled row hrow)
  obtain ⟨operation', hfind', hidentity⟩ := hkept row.operation operation hfind
  dsimp only
  rw [hfind, hfind']
  have hturn : operation'.turnId = operation.turnId := congrArg (·.turnId) hidentity
  have hkey : operation'.operationKey = operation.operationKey := congrArg (·.operationKey) hidentity
  have hcall : operation'.toolCallId = operation.toolCallId := congrArg (·.toolCallId) hidentity
  simp only [Option.filter_some, hturn]
  split
  · simp [hkey, hcall]
  · rfl

theorem System.Sound.operation [DecidableEq Json] (h : system.Sound) (request : ExecutorOperations.Request Json) :
    (system.step (.operation request)).Sound := by
  have hchanges := OperationStore.next_changes h.operations request
  refine ⟨hchanges.sound h.operations, fun row hrow => ?_, h.named, fun turnId => ?_⟩
  · obtain ⟨operation, hfind⟩ := Option.ne_none_iff_exists'.mp (h.filed row hrow)
    obtain ⟨operation', hfind', -⟩ := find_changes hchanges hfind
    change (system.store.operations.next request).operations.find row.operation ≠ none
    rw [hfind']
    exact Option.some_ne_none operation'
  · have hobservations := turnObservations_operations h.filed (fun key row => find_changes hchanges) turnId
    have hoverlaid := h.overlaid turnId
    rw [← hobservations] at hoverlaid
    exact hoverlaid

theorem turnObservations_recorded {observations : Observations} {turns : String → TurnRows} {row : ObservationRow}
    {operation : OperationRow Json} (hoperation : store.operations.operations.find row.operation = some operation)
    (hobservations : observations.rows = store.observations.rows ++ [row]) (turnId : String) :
    turnObservations ⟨store.operations, observations, turns⟩ turnId =
      if turnId = operation.turnId then
        turnObservations store turnId ++ [⟨operation.operationKey, operation.toolCallId, row.observation⟩]
      else turnObservations store turnId := by
  rw [turnObservations, hobservations, List.filterMap_append]
  change turnObservations store turnId ++ _ = _
  by_cases hturn : turnId = operation.turnId
  · subst hturn
    simp [hoperation, Option.filter_some]
  · simp [hoperation, Option.filter_some, hturn, Ne.symm hturn]

theorem System.Sound.recording (h : system.Sound) (hrecording : Recording system.store world input result store') :
    (System.mk store' system.projected).Sound := by
  cases hrecording with
  | refused => exact h
  | recorded operation observations rows hoperation htext hobservations hrows =>
    refine ⟨h.operations, fun row hrow => ?_, fun row hrow => ?_, fun turnId => ?_⟩
    · rw [hobservations, List.mem_append, List.mem_singleton] at hrow
      rcases hrow with hrow | rfl
      · exact h.filed row hrow
      · change system.store.operations.operations.find input.operation ≠ none
        rw [hoperation]
        exact Option.some_ne_none operation
    · rw [hobservations, List.mem_append, List.mem_singleton] at hrow
      rcases hrow with hrow | rfl
      · exact h.named row hrow
      · exact htext
    · dsimp only
      rw [turnObservations_recorded hoperation hobservations]
      split
      · next hturn =>
          subst hturn
          rw [Function.update_self]
          exact (h.overlaid operation.turnId).observe hrows
      · next hturn =>
          rw [Function.update_of_ne hturn]
          exact h.overlaid turnId

theorem System.Sound.commit (h : system.Sound) {order : RowOrder} {turnId : String} {change : ProjectionChange}
    {withinTransaction : WithinTransaction} [DecidableEq Json] :
    (system.step (.commitProjection order turnId change withinTransaction)).Sound := by
  rw [System.step, Store.step, projectedBy]
  cases hcommit : commitProjection system.store order turnId change withinTransaction with
  | error message => exact h
  | ok answer =>
    obtain ⟨result, store'⟩ := answer
    obtain ⟨rows, rfl, ⟨rfl, rfl⟩ | ⟨rfl, hwrite⟩⟩ := commitProjection_eq_ok hcommit
    · dsimp only
      rw [Function.update_eq_self]
      exact h
    · obtain ⟨projected', hprojected, hrows⟩ :=
        (h.overlaid turnId).writeUnits (overlaidUnits (order.perm _) change.changedUnits) hwrite
      dsimp only
      rw [hprojected]
      refine ⟨h.operations, h.filed, h.named, fun other => ?_⟩
      by_cases hother : other = turnId
      · subst hother
        dsimp only
        rw [Function.update_self, Function.update_self]
        exact hrows
      · dsimp only
        rw [Function.update_of_ne hother, Function.update_of_ne hother]
        exact h.overlaid other

theorem eq_of_not_recorded
    (h : recordProcessObservation store world input = .ok (result, store')) (hresult : result ≠ .recorded) :
    store' = store := by
  cases recordProcessObservation_recording h with
  | refused => rfl
  | recorded => exact absurd rfl hresult

section Runs

variable [DecidableEq Json]

theorem System.Sound.step (h : system.Sound) (event : Event Json) : (system.step event).Sound := by
  cases event with
  | commitProjection order turnId change withinTransaction => exact h.commit
  | recordProcessObservation world input =>
    rw [System.step, Store.step]
    split
    · exact h
    · next result store' hrecord => exact h.recording (recordProcessObservation_recording hrecord)
  | operation request => exact h.operation request

theorem System.Sound.run (h : system.Sound) (events : List (Event Json)) : (system.run events).Sound := by
  induction events generalizing system with
  | nil => exact h
  | cons event events ih => exact ih (h.step event)

variable {row : ObservationRow}

theorem mem_step (event : Event Json) (h : row ∈ system.store.observations.rows) :
    row ∈ (system.step event).store.observations.rows := by
  cases event with
  | commitProjection order turnId change withinTransaction =>
    rw [System.step, Store.step]
    split
    · exact h
    · next result store' hcommit =>
        obtain ⟨rows, rfl, -⟩ := commitProjection_eq_ok hcommit
        exact h
  | recordProcessObservation world input =>
    rw [System.step, Store.step]
    split
    · exact h
    · next result store' hrecord =>
        cases recordProcessObservation_recording hrecord with
        | refused => exact h
        | recorded operation observations rows hoperation htext hobservations hrows =>
          rw [hobservations]
          exact List.mem_append_left _ h
  | operation request => exact h

theorem mem_run (events : List (Event Json)) (h : row ∈ system.store.observations.rows) :
    row ∈ (system.run events).store.observations.rows := by
  induction events generalizing system with
  | nil => exact h
  | cons event events ih => exact ih (mem_step event h)

/-- In every run the stored units are the last projections with the recorded observations laid over them. -/
theorem observations_overlaid (turns : String → TurnRows) (events later : List (Event Json)) :
    let system := (System.initial turns : System Json).run events
    (∀ turnId, OverlaidRows (turnObservations system.store turnId) (system.projected turnId)
      (system.store.turns turnId).units) ∧
      (∀ row ∈ system.store.observations.rows, ∀ row' ∈ system.store.observations.rows,
        row.operation = row'.operation → row.processId = row'.processId → row = row') ∧
      (∀ row ∈ system.store.observations.rows, row ∈ (system.run later).store.observations.rows) ∧
      (∀ world input result store', recordProcessObservation system.store world input = .ok (result, store') →
        result ≠ .recorded → store' = system.store) ∧
      ∀ world input row, system.store.observations.find (input.operation, input.observation.processId) = some row →
        (admits system.store world input = true → row.observation = input.observation →
            recordProcessObservation system.store world input = .ok (.duplicate, system.store)) ∧
          (admits system.store world input = false ∨ row.observation ≠ input.observation →
            recordProcessObservation system.store world input = .ok (.fenced, system.store) ∨
              recordProcessObservation system.store world input = .ok (.missing, system.store)) := by
  have hsound := (initial_sound turns).run events
  refine ⟨hsound.overlaid, fun row hrow row' hrow' hoperation hprocess => ?_, fun row => mem_run later,
    fun world input result store' => eq_of_not_recorded, fun world input row hrow => ?_⟩
  · exact Table.eq_of_key_eq _ hrow hrow' (Prod.ext hoperation hprocess)
  · exact recordProcessObservation_stored hrow (hsound.named row (Table.mem_of_find hrow))

end Runs

section Sample

def sampleWorld : World String := ⟨OperationStore.sampleAround, fun _ => true, some⟩

def sampleObservation : ProcessTerminalObservation := ⟨"process", 0, 1000, false⟩

def sampleInput : ProcessObservationInput :=
  ⟨OperationStore.sampleIdentity.key, 1, 1, "executor", "process", sampleObservation⟩

def sampleRow : OperationObservation := ⟨"operation", "call", sampleObservation⟩

theorem sampleSequence_bounds : (-1 : Int) ≤ 1 ∧ (1 : Int) ≤ TranscriptUnit.maxSafeInteger := by decide

def sampleUnit : TranscriptUnit.Unit :=
  { TranscriptStore.sampleUnit (TranscriptStore.sampleOrder 1 sampleSequence_bounds) "" with
    content := .block <| .toolCall <|
      ⟨"tool", .complete, some "operation", some "call",
        some ⟨some false, some "process", some 0, some 900, some false, "stdout"⟩, "bash"⟩ }

def sampleChange : ProjectionChange :=
  .projectionSnapshot none 0 (some ⟨"cursor", "state"⟩) [sampleUnit] false TranscriptStore.sampleState

def sampleEvents : List (Event String) :=
  (OperationStore.sampleRequests.take 2).map .operation ++
    [.recordProcessObservation sampleWorld sampleInput, .commitProjection ⟨id, fun _ => .refl _⟩ "turn" sampleChange (.ok ⟨⟩)]

/-- A projection is stored as it is when no process of it runs; and an observation is no duplicate once the lease is
over. -/
theorem ended_process_not_overlaid :
    let system := (System.initial fun _ => ⟨none, .empty⟩).run sampleEvents
    let lapsed : World String :=
      { sampleWorld with around := { OperationStore.sampleAround with clock := 2000 } }
    turnObservations system.store "turn" = [sampleRow] ∧ concerns sampleRow sampleUnit = true ∧
      (system.projected "turn").rows.map (·.unit) = [sampleUnit] ∧
      (system.store.turns "turn").units.rows.map (·.unit) = [sampleUnit] ∧
      overlay [sampleRow] sampleUnit ≠ sampleUnit ∧
      (recordProcessObservation system.store sampleWorld sampleInput).toOption.map Prod.fst = some .duplicate ∧
      (recordProcessObservation system.store lapsed sampleInput).toOption.map Prod.fst = some .fenced := by
  decide +kernel

end Sample

end Rika.ProcessObservations
