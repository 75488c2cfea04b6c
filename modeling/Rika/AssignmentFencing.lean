import Rika.AssignmentChanges
import Rika.LeaseFencing
import Mathlib

namespace Rika.Assignments

structure Holder where
  providerInstanceId : Option String
  executorInstanceId : Option String
  processIncarnation : Option String
  sessionDigest : Option String

def Access.holder (access : Access) : Holder :=
  ⟨some access.providerInstanceId, some access.executorInstanceId, some access.processIncarnation,
    some access.presentedSessionCredentialDigest⟩

def Access.position (access : Access) : Nat ×ₗ Nat := toLex (access.assignmentGeneration, access.leaseEpoch)

namespace AssignmentRow

section

variable (row : AssignmentRow)

/-- The generation and the last lease epoch, which is that of the lease while
one is held. -/
def position : Nat ×ₗ Nat := toLex (row.generation, row.lastLeaseEpoch)

def holder : Option Holder :=
  if row.lifecycle = .active then
    some ⟨row.providerInstanceId, row.executorInstanceId, row.processIncarnation, row.sessionDigest⟩
  else none

def lease : Lease (Nat ×ₗ Nat) Holder Millis := ⟨row.position, row.holder, row.leaseExpiresAt⟩

/-- Every lease field is set, the epoch to the last one handed out. -/
def Held : Prop :=
  row.executorInstanceId.isSome ∧ row.processIncarnation.isSome ∧ row.sessionDigest.isSome ∧
    row.leaseEpoch = some row.lastLeaseEpoch ∧ row.leaseExpiresAt.isSome

def Free : Prop :=
  row.executorInstanceId = none ∧ row.processIncarnation = none ∧ row.sessionDigest = none ∧ row.leaseEpoch = none ∧
    row.leaseExpiresAt = none

end

structure WellFormed (row : AssignmentRow) : Prop where
  held : row.lifecycle = .active → row.Held
  free : row.lifecycle ≠ .active → row.Free
  cursor : Double.reprint row.cursor.sequence = row.cursor.sequence

theorem withoutExecutor_free (row : AssignmentRow) : row.withoutExecutor.Free := ⟨rfl, rfl, rfl, rfl, rfl⟩

end AssignmentRow

variable {now : Clock} {row row' : AssignmentRow}

theorem Rewrite.wellFormed (h : Rewrite now row row') (hrow : row.WellFormed) : row'.WellFormed := by
  cases h with
  | retired | provisioned | replaced => exact ⟨nofun, fun _ => row.withoutExecutor_free, hrow.cursor⟩
  | bound input hprovisioning => exact ⟨nofun, fun _ => hrow.free (by rw [hprovisioning]; decide), hrow.cursor⟩
  | opened => exact ⟨fun _ => ⟨rfl, rfl, rfl, rfl, rfl⟩, fun h => absurd rfl h, hrow.cursor⟩
  | capable => exact ⟨hrow.held, hrow.free, hrow.cursor⟩
  | reconnected input hactive =>
    obtain ⟨hexecutor, hprocess, hdigest, -, -⟩ := hrow.held hactive
    exact ⟨fun _ => ⟨hexecutor, hprocess, hdigest, rfl, rfl⟩, fun h => absurd hactive h, hrow.cursor⟩
  | beaten input hactive =>
    obtain ⟨hexecutor, hprocess, hdigest, hepoch, -⟩ := hrow.held hactive
    exact ⟨fun _ => ⟨hexecutor, hprocess, hdigest, hepoch, rfl⟩, fun h => absurd hactive h, Double.reprint_reprint _⟩
  | paused | terminated => exact ⟨nofun, fun _ => row.withoutExecutor_free, hrow.cursor⟩
  | resumed input hpaused => exact ⟨nofun, fun _ => hrow.free (by rw [hpaused]; decide), hrow.cursor⟩
  | checkpointed | rotated => exact ⟨hrow.held, hrow.free, hrow.cursor⟩
  | revoked => exact ⟨nofun, fun _ => row.withoutExecutor_free, hrow.cursor⟩

theorem position_lt_of_generation {generation generation' epoch epoch' : Nat} (h : generation < generation') :
    toLex (generation, epoch) < toLex (generation', epoch') := Prod.Lex.toLex_lt_toLex.mpr (.inl h)

theorem position_lt_of_epoch {generation epoch epoch' : Nat} (h : epoch < epoch') :
    toLex (generation, epoch) < toLex (generation, epoch') := Prod.Lex.toLex_lt_toLex.mpr (.inr ⟨rfl, h⟩)

theorem lease_of_free (h : row.lifecycle ≠ .active) (hrow : row.WellFormed) :
    row.lease = ⟨row.position, none, none⟩ := by
  rw [AssignmentRow.lease, AssignmentRow.holder, if_neg h, (hrow.free h).2.2.2.2]

theorem lease_of_held (h : row.lifecycle = .active) :
    row.lease = ⟨row.position, some ⟨row.providerInstanceId, row.executorInstanceId, row.processIncarnation,
      row.sessionDigest⟩, row.leaseExpiresAt⟩ := by
  rw [AssignmentRow.lease, AssignmentRow.holder, if_pos h]

theorem Rewrite.lease (h : Rewrite now row row') (hrow : row.WellFormed) :
    Lease.Step now.clock row.lease row'.lease := by
  have hnext := h.wellFormed hrow
  cases h with
  | retired => exact .retire _ _ (position_lt_of_generation (Nat.lt_succ_self _)).le
  | provisioned => exact .retire _ _ (le_refl _)
  | replaced => exact .retire _ _ (position_lt_of_generation (Nat.lt_succ_self _)).le
  | bound input hprovisioning =>
    rw [@lease_of_free (row.bound now input) nofun hnext]
    exact .retire _ _ (le_refl _)
  | opened => exact .grant _ _ _ _ (position_lt_of_epoch (Nat.lt_succ_self _))
  | capable => exact .keep _
  | reconnected input hactive =>
    rw [@lease_of_held (row.reconnected now input) hactive]
    exact .grant _ _ _ _ (position_lt_of_epoch (Nat.lt_succ_self _))
  | beaten input hactive hlive =>
    obtain ⟨-, -, -, -, hexpires⟩ := hrow.held hactive
    obtain ⟨expires, hexpires⟩ := Option.isSome_iff_exists.mp hexpires
    rw [live, hexpires] at hlive
    rw [AssignmentRow.lease, hexpires]
    exact .renew _ _ _ _ (of_decide_eq_true hlive)
  | paused | terminated => exact .retire _ _ (le_refl _)
  | resumed input hpaused =>
    rw [@lease_of_free (row.resumed now input) nofun hnext]
    exact .retire _ _ (le_refl _)
  | checkpointed => exact .keep _
  | rotated =>
    have hlt : row.position < (row.rotated now).position := position_lt_of_generation (Nat.lt_succ_self _)
    by_cases hactive : row.lifecycle = .active
    · rw [@lease_of_held (row.rotated now) hactive]
      exact .grant _ _ _ _ hlt
    · rw [@lease_of_free (row.rotated now) hactive hnext]
      exact .retire _ _ hlt.le
  | revoked => exact .retire _ _ (position_lt_of_generation (Nat.lt_succ_self _)).le

theorem Rewrite.stays_terminated (h : Rewrite now row row') (hrow : row.lifecycle = .terminated) :
    row'.lifecycle = .terminated := by
  cases h with
  | retired _ hterminated | provisioned _ _ hterminated | replaced _ hterminated => exact absurd hrow hterminated
  | bound _ hprovisioning => exact absurd (hprovisioning.symm.trans hrow) (by decide)
  | opened _ hawaiting => exact absurd (hawaiting.symm.trans hrow) (by decide)
  | capable => exact hrow
  | reconnected => exact hrow
  | beaten => exact hrow
  | paused _ hactive => exact absurd (hactive.symm.trans hrow) (by decide)
  | terminated => rfl
  | resumed _ hpaused => exact absurd (hpaused.symm.trans hrow) (by decide)
  | checkpointed => exact hrow
  | rotated hterminated => exact absurd hrow hterminated
  | revoked => rfl

theorem Rewrite.cursor_le (h : Rewrite now row row') (hrow : row.WellFormed) :
    row.cursor.sequence ≤ row'.cursor.sequence := by
  cases h with
  | beaten input _ _ hcursor => exact Double.le_reprint hrow.cursor hcursor
  | _ => exact le_refl _

section

variable (h : RowStep now row row')

include h

theorem RowStep.wellFormed (hrow : row.WellFormed) : row'.WellFormed := by
  cases h with
  | same => exact hrow
  | @rewritten row'' hrewrite =>
    have hwell := hrewrite.wellFormed hrow
    rcases clearStale_cases row row'' with hclear | hclear
    · rw [hclear]
      exact ⟨hwell.held, hwell.free, hwell.cursor⟩
    · rw [hclear]
      exact ⟨hwell.held, hwell.free, hwell.cursor⟩

theorem RowStep.lease (hrow : row.WellFormed) : Lease.Step now.clock row.lease row'.lease := by
  cases h with
  | same => exact .keep _
  | @rewritten row'' hrewrite =>
    rcases clearStale_cases row row'' with hclear | hclear
    · rw [hclear]
      exact hrewrite.lease hrow
    · rw [hclear]
      exact hrewrite.lease hrow

theorem RowStep.stays_terminated (hrow : row.lifecycle = .terminated) :
    row'.lifecycle = .terminated := by
  cases h with
  | same => exact hrow
  | @rewritten row'' hrewrite =>
    rcases clearStale_cases row row'' with hclear | hclear
    · rw [hclear]
      exact hrewrite.stays_terminated hrow
    · rw [hclear]
      exact hrewrite.stays_terminated hrow

theorem RowStep.cursor_le (hrow : row.WellFormed) : row.cursor.sequence ≤ row'.cursor.sequence := by
  cases h with
  | same => exact le_refl _
  | @rewritten row'' hrewrite =>
    rcases clearStale_cases row row'' with hclear | hclear
    · rw [hclear]
      exact hrewrite.cursor_le hrow
    · rw [hclear]
      exact hrewrite.cursor_le hrow

end

theorem createdRow_wellFormed (input : CreateInput) : (createdRow now input).WellFormed :=
  ⟨nofun, fun _ => ⟨rfl, rfl, rfl, rfl, rfl⟩, Double.reprint_zero⟩

/-- The invariant of a run: rows are well formed, and the checkpoint that one
names is there, taken at a cursor that is not ahead. -/
structure Sound (store : AssignmentStore) : Prop where
  wellFormed {id row} (h : store.assignments.find id = some row) : row.WellFormed
  latest {id row checkpointId} (h : store.assignments.find id = some row)
    (hlatest : row.latestCheckpointId = some checkpointId) :
    ∃ checkpoint, store.checkpoints.find checkpointId = some checkpoint ∧
      checkpoint.cursor.sequence ≤ row.cursor.sequence

variable {store store' : AssignmentStore}

theorem Changes.sound (h : Changes now store store') (hsound : Sound store) : Sound store' := by
  constructor
  · intro id row' hrow'
    cases hrow : store.assignments.find id with
    | none =>
      obtain ⟨input, rfl⟩ := h.created hrow hrow'
      exact createdRow_wellFormed input
    | some row =>
      obtain ⟨found, hfound, hstep, -⟩ := h.kept hrow
      obtain rfl := Option.some_inj.mp (hfound.symm.trans hrow')
      exact hstep.wellFormed (hsound.wellFormed hrow)
  · intro id row' checkpointId hrow' hlatest
    cases hrow : store.assignments.find id with
    | none =>
      obtain ⟨input, rfl⟩ := h.created hrow hrow'
      cases hlatest
    | some row =>
      obtain ⟨found, hfound, hstep, hkept⟩ := h.kept hrow
      obtain rfl := Option.some_inj.mp (hfound.symm.trans hrow')
      have hwell := hsound.wellFormed hrow
      have hcursor := hstep.cursor_le hwell
      rcases hkept with hsame | ⟨takenId, checkpoint, htaken, hcheckpoint, hat⟩
      · obtain ⟨checkpoint, hcheckpoint, hle⟩ := hsound.latest hrow (hsame ▸ hlatest)
        exact ⟨checkpoint, h.checkpoints hcheckpoint, hle.trans hcursor⟩
      · obtain rfl := Option.some_inj.mp (htaken.symm.trans hlatest)
        exact ⟨checkpoint, hcheckpoint, (hat.trans hwell.cursor).le.trans hcursor⟩

theorem latestCheckpoint_eq_some {id : String} {checkpoint : CheckpointRow} :
    latestCheckpoint store id = some checkpoint ↔
      ∃ row checkpointId, store.assignments.find id = some row ∧ row.latestCheckpointId = some checkpointId ∧
        store.checkpoints.find checkpointId = some checkpoint := by
  simp [latestCheckpoint, Option.bind_eq_some_iff]

theorem Changes.latestCheckpoint_le (h : Changes now store store') (hsound : Sound store) {id : String}
    {checkpoint : CheckpointRow} (hlatest : latestCheckpoint store id = some checkpoint) :
    ∃ checkpoint', latestCheckpoint store' id = some checkpoint' ∧
      checkpoint.cursor.sequence ≤ checkpoint'.cursor.sequence := by
  obtain ⟨row, checkpointId, hrow, hnamed, hcheckpoint⟩ := latestCheckpoint_eq_some.mp hlatest
  obtain ⟨row', hrow', -, hkept⟩ := h.kept hrow
  rcases hkept with hsame | ⟨takenId, checkpoint', htaken, hcheckpoint', hat⟩
  · exact ⟨checkpoint, latestCheckpoint_eq_some.mpr ⟨row', checkpointId, hrow', hsame.trans hnamed,
      h.checkpoints hcheckpoint⟩, le_refl _⟩
  · obtain ⟨found, hfound, hle⟩ := hsound.latest hrow hnamed
    obtain rfl := Option.some_inj.mp (hcheckpoint.symm.trans hfound)
    exact ⟨checkpoint', latestCheckpoint_eq_some.mpr ⟨row', takenId, hrow', htaken, hcheckpoint'⟩,
      hle.trans (hat.trans (hsound.wellFormed hrow).cursor).ge⟩

namespace State

theorem next_changes (state : State) (request : Request) :
    Changes (state.clock request) state.store (state.next request).store := by
  rw [next]
  cases h : state.serve request with
  | ok store => exact serve_changes h
  | error refusal => exact .refl

variable {state : State}

theorem run_sound (h : Sound state.store) (requests : List Request) : Sound (run requests state).store := by
  induction requests generalizing state with
  | nil => exact h
  | cons request requests ih => exact ih ((state.next_changes request).sound h)

theorem start_sound (collation : Collation) (threads : List HostedThread) (now : Millis) :
    Sound (start collation threads now).store := ⟨nofun, nofun⟩

theorem clock_le (state : State) (request : Request) : state.now ≤ (state.clock request).clock :=
  Int.le_add_of_nonneg_right (Int.natCast_nonneg _)

/-- What a run makes of a row: it is one of the lease, it does not leave the
terminated, and its cursor does not go back. -/
theorem run_row (hsound : Sound state.store) (requests : List Request) {id : String}
    {row : AssignmentRow} (h : state.store.assignments.find id = some row) :
    ∃ row', (run requests state).store.assignments.find id = some row' ∧
      Lease.Run (state.now, row.lease) ((run requests state).now, row'.lease) ∧
      (row.lifecycle = .terminated → row'.lifecycle = .terminated) ∧ row.cursor.sequence ≤ row'.cursor.sequence := by
  induction requests generalizing state row with
  | nil => exact ⟨row, h, .refl, fun h => h, le_refl _⟩
  | cons request requests ih =>
    have hchanges := state.next_changes request
    obtain ⟨row₁, hrow₁, hstep, -⟩ := hchanges.kept h
    have hwell := hsound.wellFormed h
    obtain ⟨row', hrow', hlease, hterminated, hcursor⟩ := ih (hchanges.sound hsound) hrow₁
    have hnext : Lease.Next (state.now, row.lease) ((state.next request).now, row₁.lease) :=
      ⟨state.clock_le request, hstep.lease hwell⟩
    exact ⟨row', hrow', .head hnext hlease, fun h => hterminated (hstep.stays_terminated h),
      (hstep.cursor_le hwell).trans hcursor⟩

theorem run_latestCheckpoint (hsound : Sound state.store) (requests : List Request) {id : String}
    {checkpoint : CheckpointRow} (h : latestCheckpoint state.store id = some checkpoint) :
    ∃ checkpoint', latestCheckpoint (run requests state).store id = some checkpoint' ∧
      checkpoint.cursor.sequence ≤ checkpoint'.cursor.sequence := by
  induction requests generalizing state checkpoint with
  | nil => exact ⟨checkpoint, h, le_refl _⟩
  | cons request requests ih =>
    have hchanges := state.next_changes request
    obtain ⟨checkpoint₁, hcheckpoint₁, hle⟩ := hchanges.latestCheckpoint_le hsound h
    obtain ⟨checkpoint', hcheckpoint', hle'⟩ := ih (hchanges.sound hsound) hcheckpoint₁
    exact ⟨checkpoint', hcheckpoint', hle.trans hle'⟩

end State

end Rika.Assignments
