import Rika.AssignmentFencing

namespace Rika.Assignments

open Fold (bind_eq_ok)

def Call.access : Call → Option Access
  | .updateCapabilities input => some input.access
  | .reconnect input => some input.access
  | .heartbeat input => some input.access
  | .authenticate input => some input
  | .release input => some input
  | .commitCheckpoint input => some input.access
  | _ => none

def Call.requiresLiveLease : Call → Bool
  | .reconnect _ | .release _ => false
  | _ => true

def Admits (store : AssignmentStore) (now : Clock) (access : Access) (requireLiveLease : Bool) : Prop :=
  ∃ row, store.assignments.find access.assignmentId = some row ∧ checkAccess now row access requireLiveLease = .ok ()

def State.refusedAsFenced (state : State) (request : Request) : Bool :=
  match state.serve request with
  | .error (.assignment error) => error.reason = .staleFence
  | _ => false

def State.refused (state : State) (request : Request) : Bool := (state.serve request).toOption.isNone

variable {now : Clock} {store store' : AssignmentStore} {row : AssignmentRow} {access : Access}

theorem live_iff {expires : Option Millis} : live expires now = true ↔ ∃ time, expires = some time ∧ now.clock < time := by
  cases expires <;> simp [live]

variable {requireLiveLease : Bool} {α : Type} {f : AssignmentRow → Except AssignmentError α} {call : Call}

theorem checkAccess_iff (h : row.WellFormed) :
    checkAccess now row access requireLiveLease = .ok () ↔
      row.lease.Admits access.position access.holder ∧ (requireLiveLease = true → row.lease.Live now.clock) := by
  have hlive : live row.leaseExpiresAt now = true ↔ row.lease.Live now.clock := live_iff
  rw [checkAccess_eq_ok, hlive]
  constructor
  · intro ⟨⟨hactive, hgeneration, hepoch⟩, ⟨hprovider, hexecutor, hprocess, hlease⟩, hdigest⟩
    refine ⟨⟨?_, ?_⟩, hlease⟩
    · rw [lease_of_held hactive, hprovider, hexecutor, hprocess, hdigest]
      rfl
    · have hlast := Option.some_inj.mp ((h.held hactive).2.2.2.1.symm.trans hepoch)
      exact congrArg toLex (Prod.ext hgeneration hlast)
  · intro ⟨⟨hholder, hposition⟩, hlease⟩
    by_cases hactive : row.lifecycle = .active
    · rw [lease_of_held hactive, Access.holder] at hholder
      have hfields := Holder.mk.inj (Option.some_inj.mp hholder)
      have hpair := Prod.ext_iff.mp (toLex.injective hposition)
      refine ⟨⟨hactive, hpair.1, ?_⟩, ⟨hfields.1, hfields.2.1, hfields.2.2.1, hlease⟩, hfields.2.2.2⟩
      rw [(h.held hactive).2.2.2.1]
      exact congrArg some hpair.2
    · rw [lease_of_free hactive h] at hholder
      cases hholder

def Unfenced {α : Type} (x : Except AssignmentError α) : Prop := ∀ message, x ≠ .error ⟨.staleFence, message⟩

namespace Unfenced

variable {α β : Type}

theorem ok (a : α) : Unfenced (.ok a) := nofun

theorem failure {reason : AssignmentFailureReason} (message : String) (h : reason ≠ .staleFence) :
    Unfenced (Assignments.failure reason message : Except AssignmentError α) := by
  intro _ heq
  cases heq
  exact h rfl

theorem bind {x : Except AssignmentError α} {f : α → Except AssignmentError β} (hx : Unfenced x)
    (hf : ∀ a, Unfenced (f a)) : Unfenced (x >>= f) := by
  cases x with
  | ok a => exact hf a
  | error error =>
    intro message heq
    cases heq
    exact hx message rfl

theorem locked (id : String) : Unfenced (locked store id) := by
  rw [Assignments.locked]
  split
  · exact failure _ (by decide)
  · exact ok _

theorem decodeAssignment (row : AssignmentRow) : Unfenced (decodeAssignment row) := by
  rw [Assignments.decodeAssignment]
  split
  · exact failure _ (by decide)
  · split
    · exact failure _ (by decide)
    · exact ok _

section

variable (id : String) (p : AssignmentRow → Bool) (values : AssignmentRow → AssignmentRow)

theorem updateAssignment : Unfenced (updateAssignment store id p values) := by
  rw [Assignments.updateAssignment]
  split
  · exact failure _ (by decide)
  · split
    · exact failure _ (by decide)
    · exact ok _

theorem updated : Unfenced (updated store id p values) :=
  (updateAssignment id p values).bind fun _ => (locked id).bind fun row => (decodeAssignment row).bind fun _ => ok _

end

end Unfenced

def withAccess {α : Type} (store : AssignmentStore) (now : Clock) (access : Access) (requireLiveLease : Bool)
    (f : AssignmentRow → Except AssignmentError α) : Except AssignmentError α := do
  let row ← locked store access.assignmentId
  checkAccess now row access requireLiveLease
  f row

theorem withAccess_eq_ok {a : α}
    (h : withAccess store now access requireLiveLease f = .ok a) : Admits store now access requireLiveLease := by
  obtain ⟨row, hrow, h⟩ := bind_eq_ok.mp h
  obtain ⟨_, haccess, -⟩ := bind_eq_ok.mp h
  exact ⟨row, locked_eq_ok.mp hrow, haccess⟩

theorem withAccess_fenced
    {message : String} (hf : ∀ row, row.lifecycle = .active → store.assignments.find access.assignmentId = some row →
      Unfenced (f row)) (h : withAccess store now access requireLiveLease f = .error ⟨.staleFence, message⟩) :
    (∃ row, store.assignments.find access.assignmentId = some row) ∧ ¬Admits store now access requireLiveLease := by
  cases hrow : store.assignments.find access.assignmentId with
  | none =>
    rw [withAccess, locked, hrow] at h
    cases h
  | some row =>
    refine ⟨⟨row, rfl⟩, ?_⟩
    rintro ⟨found, hfound, haccess⟩
    obtain rfl := Option.some_inj.mp (hrow.symm.trans hfound)
    rw [withAccess, locked_eq_ok.mpr hrow] at h
    change (checkAccess now row access requireLiveLease >>= fun _ => f row) = _ at h
    rw [haccess] at h
    exact hf row (checkAccess_eq_ok.mp haccess).1.1 hrow message h

theorem commitCheckpoint_unfenced (now : Clock) (hsound : Sound store) {input : CommitCheckpointInput} :
    ∃ f : AssignmentRow → Except AssignmentError (AssignmentStore × CheckpointRow),
      commitCheckpoint store now input = withAccess store now input.access true f ∧
        ∀ row, row.lifecycle = .active → store.assignments.find input.access.assignmentId = some row →
          Unfenced (f row) := by
  refine ⟨_, rfl, fun row hactive hrow => ?_⟩
  have hheld := (hsound.wellFormed hrow).held hactive
  split
  · exact .failure _ (by decide)
  · split
    · split
      · exact .ok _
      · exact .failure _ (by decide)
    · split
      · simp only
        split
        · exact .failure _ (by decide)
        · split
          · exact .failure _ (by decide)
          · exact (Unfenced.updateAssignment _ _ _).bind fun _ => .ok _
      · next hnone =>
          obtain ⟨executorInstanceId, hexecutor⟩ := Option.isSome_iff_exists.mp hheld.1
          exact (hnone _ _ hexecutor hheld.2.2.2.1).elim

theorem serve_withAccess (now : Clock) (hsound : Sound store) (hcall : call.access = some access) :
    ∃ (α : Type) (f : AssignmentRow → Except AssignmentError (AssignmentStore × α)),
      serve store now call = ofAssignments (withAccess store now access call.requiresLiveLease f) ∧
        ∀ row, row.lifecycle = .active → store.assignments.find access.assignmentId = some row → Unfenced (f row) := by
  cases call with
  | updateCapabilities input | reconnect input =>
    cases hcall
    exact ⟨_, _, rfl, fun row _ _ => Unfenced.updated _ _ _⟩
  | heartbeat input =>
    cases hcall
    refine ⟨_, _, rfl, fun row _ _ => ?_⟩
    split
    · exact .failure _ (by decide)
    · split
      · exact .failure _ (by decide)
      · exact Unfenced.updated _ _ _
  | authenticate access =>
    cases hcall
    refine ⟨_, fun row => (decodeAssignment row).map fun assignment => (store, assignment), ?_, fun row _ _ => ?_⟩
    · change ofAssignments ((authenticate store now access).map _) = _
      rw [authenticate, withAccess]
      cases locked store access.assignmentId with
      | error error => rfl
      | ok row =>
        change ofAssignments ((checkAccess now row access true >>= fun _ => decodeAssignment row).map _) =
          ofAssignments (checkAccess now row access true >>= fun _ => (decodeAssignment row).map _)
        cases checkAccess now row access true with
        | error error => rfl
        | ok _ => rfl
    · intro message heq
      have hdecode := Unfenced.decodeAssignment row message
      change (decodeAssignment row).map _ = _ at heq
      cases hrow : decodeAssignment row with
      | error error =>
        rw [hrow] at heq hdecode
        cases heq
        exact hdecode rfl
      | ok assignment =>
        rw [hrow] at heq
        cases heq
  | release input =>
    cases hcall
    exact ⟨_, _, rfl, fun row _ _ => Unfenced.updated _ _ _⟩
  | commitCheckpoint input =>
    cases hcall
    obtain ⟨f, hf, hunfenced⟩ := commitCheckpoint_unfenced now hsound
    exact ⟨_, f, congrArg ofAssignments hf, hunfenced⟩
  | _ => cases hcall

theorem serve_admits (hsound : Sound store) (hcall : call.access = some access)
    (h : serve store now call = .ok store') : Admits store now access call.requiresLiveLease := by
  obtain ⟨α, f, hf, -⟩ := serve_withAccess now hsound hcall
  rw [hf] at h
  exact (ofAssignments_eq_ok h).elim fun _ h => withAccess_eq_ok h

namespace State

variable {state : State} {request : Request}

theorem refusedAsFenced_row (hsound : Sound state.store)
    (hcall : request.call.access = some access) (h : state.refusedAsFenced request = true) :
    ∃ row, state.store.assignments.find access.assignmentId = some row ∧
      ¬(row.lease.Admits access.position access.holder ∧
        (request.call.requiresLiveLease = true → row.lease.Live (state.clock request).clock)) := by
  obtain ⟨α, f, hf, hunfenced⟩ := serve_withAccess (state.clock request) hsound hcall
  rw [refusedAsFenced, serve, hf] at h
  cases haccess : withAccess state.store (state.clock request) access request.call.requiresLiveLease f with
  | ok pair =>
    rw [haccess] at h
    cases h
  | error error =>
    rw [haccess] at h
    obtain ⟨reason, message⟩ := error
    obtain rfl : reason = .staleFence := of_decide_eq_true h
    obtain ⟨⟨row, hrow⟩, hnot⟩ := withAccess_fenced hunfenced haccess
    refine ⟨row, hrow, fun hlease => hnot ⟨row, hrow, ?_⟩⟩
    exact (checkAccess_iff (hsound.wellFormed hrow)).mpr hlease

theorem next_grants (hsound : Sound state.store) {requireLiveLease : Bool}
    (hnot : ¬Admits state.store (state.clock request) access requireLiveLease)
    (hadmits : Admits (state.next request).store (state.clock request) access requireLiveLease) :
    ∃ row row', state.store.assignments.find access.assignmentId = some row ∧
      (state.next request).store.assignments.find access.assignmentId = some row' ∧ row.position < row'.position := by
  have hchanges := state.next_changes request
  obtain ⟨row', hrow', haccess'⟩ := hadmits
  have hwell' := (hchanges.sound hsound).wellFormed hrow'
  cases hrow : state.store.assignments.find access.assignmentId with
  | none =>
    obtain ⟨input, rfl⟩ := hchanges.created hrow hrow'
    cases (checkAccess_eq_ok.mp haccess').1.1
  | some row =>
    obtain ⟨found, hfound, hstep, -⟩ := hchanges.kept hrow
    obtain rfl := Option.some_inj.mp (hfound.symm.trans hrow')
    have hwell := hsound.wellFormed hrow
    have hlease := hstep.lease hwell
    refine ⟨row, found, rfl, hrow', ?_⟩
    have hnot' : ¬(row.lease.Admits access.position access.holder ∧
        (requireLiveLease = true → row.lease.Live (state.clock request).clock)) :=
      fun h => hnot ⟨row, hrow, (checkAccess_iff hwell).mpr h⟩
    obtain ⟨hadmits, hlive⟩ := (checkAccess_iff hwell').mp haccess'
    cases requireLiveLease with
    | false => exact hlease.fence_lt hadmits fun h => hnot' ⟨h, nofun⟩
    | true => exact hlease.fence_lt_of_live ⟨hadmits, hlive rfl⟩ fun h => hnot' ⟨h.1, fun _ => h.2⟩

theorem run_refused (hsound : Sound state.store) {request' : Request} (after : List Request)
    (hcall : request.call.access = some access) (hcall' : request'.call.access = some access)
    (hfenced : state.refusedAsFenced request = true)
    (hissued : ∀ row, state.store.assignments.find access.assignmentId = some row → access.position ≤ row.position) :
    (run after (state.next request)).refused request' = true ∨
      request'.call.requiresLiveLease = false ∧ Admits state.store (state.clock request) access false := by
  obtain ⟨row, hrow, hnot⟩ := refusedAsFenced_row hsound hcall hfenced
  have hle := hissued row hrow
  have hwell := hsound.wellFormed hrow
  rw [refused, Option.isNone_iff_eq_none]
  cases hserve : (run after (state.next request)).serve request' with
  | error refusal => exact .inl rfl
  | ok store' =>
    right
    have hchanges := state.next_changes request
    obtain ⟨row₁, hrow₁, hstep, -⟩ := hchanges.kept hrow
    have hlease := hstep.lease hwell
    have hsound₁ := hchanges.sound hsound
    obtain ⟨row', hrow', hrun, -⟩ := run_row hsound₁ after hrow₁
    obtain ⟨found, hfound, haccess⟩ := serve_admits (run_sound hsound₁ after) hcall' hserve
    obtain rfl := Option.some_inj.mp (hrow'.symm.trans hfound)
    obtain ⟨hadmits, hlive⟩ := (checkAccess_iff ((run_sound hsound₁ after).wellFormed hrow')).mp haccess
    have hheld : row.lease.Admits access.position access.holder := by
      by_contra hkept
      exact Lease.Run.not_admits hrun (hle.trans hlease.fence_le) (hlease.not_admits hle hkept) hadmits
    have hdead : ¬(row.lease.Admits access.position access.holder ∧ row.lease.Live (state.clock request).clock) :=
      fun h => hnot ⟨h.1, fun _ => h.2⟩
    constructor
    · by_contra hrequires
      have hlater := (hlive (Bool.eq_true_of_not_eq_false hrequires)).of_le (clock_le _ _)
      exact Lease.Run.not_live hrun (hle.trans hlease.fence_le) (hlease.not_live hle hdead) ⟨hadmits, hlater⟩
    · exact ⟨row, hrow, (checkAccess_iff hwell).mpr ⟨hheld, nofun⟩⟩

/-- In every run a lease has its fields while the assignment is active, positions do not go back, and an access once
fenced stays refused. -/
theorem assignments_fenced (collation : Collation) (threads : List HostedThread) (now : Millis)
    (before after : List Request) :
    let state := run before (start collation threads now)
    let later := run after state
    (∀ id row, state.store.assignments.find id = some row →
      ((row.lifecycle = .active → row.Held) ∧ (row.lifecycle ≠ .active → row.Free)) ∧
        ∃ row', later.store.assignments.find id = some row' ∧ row.position ≤ row'.position ∧
          (row.lifecycle = .terminated → row'.lifecycle = .terminated) ∧ row.cursor.sequence ≤ row'.cursor.sequence) ∧
      (∀ id checkpoint, latestCheckpoint state.store id = some checkpoint →
        ∃ checkpoint', latestCheckpoint later.store id = some checkpoint' ∧
          checkpoint.cursor.sequence ≤ checkpoint'.cursor.sequence) ∧
      (∀ request access requireLiveLease, ¬Admits state.store (state.clock request) access requireLiveLease →
        Admits (state.next request).store (state.clock request) access requireLiveLease →
        ∃ row row', state.store.assignments.find access.assignmentId = some row ∧
          (state.next request).store.assignments.find access.assignmentId = some row' ∧ row.position < row'.position) ∧
      ∀ request request' access, request.call.access = some access → request'.call.access = some access →
        state.refusedAsFenced request = true →
        (∀ row, state.store.assignments.find access.assignmentId = some row → access.position ≤ row.position) →
        (run after (state.next request)).refused request' = true ∨
          request'.call.requiresLiveLease = false ∧ Admits state.store (state.clock request) access false := by
  intro state later
  have hsound : Sound state.store := run_sound (start_sound collation threads now) before
  refine ⟨fun id row hrow => ?_, fun id checkpoint => run_latestCheckpoint hsound after,
    fun request access requireLiveLease => next_grants hsound,
    fun request request' access => run_refused hsound after⟩
  have hwell := hsound.wellFormed hrow
  obtain ⟨row', hrow', hlease, hterminated, hcursor⟩ := run_row hsound after hrow
  exact ⟨⟨hwell.held, hwell.free⟩, row', hrow', Lease.Run.fence_le hlease, hterminated, hcursor⟩

def sampleThread : HostedThread := ⟨"thread", "owner", "workspace", .orb, none⟩

def sampleRequests : List Request :=
  [⟨0, 0, .create ⟨"assignment", "owner", "thread", "workspace", .orbPlacement ⟨"template", "scope", none⟩, none, none⟩⟩,
    ⟨0, 0, .beginProvisioning ⟨⟨"assignment", 1, 0⟩, "bootstrap", 60000⟩⟩,
    ⟨0, 0, .bindProviderInstance ⟨⟨"assignment", 1, 1⟩, "sandbox"⟩⟩,
    ⟨0, 0, .openSession ⟨⟨"assignment", 1, 2⟩, "sandbox", "executor", "process", "capabilities", "bootstrap", "session", 1000⟩⟩]

def sampleAccess : Access := ⟨⟨"assignment", 1, 1⟩, "sandbox", "executor", "process", "session"⟩

/-- An access that is refused as fenced when its lease has expired, and is let
in to reconnect. -/
theorem expired_access_reconnects :
    let state := run sampleRequests (start Collation.codePoint [sampleThread] 0)
    state.refusedAsFenced ⟨2000, 0, .authenticate sampleAccess⟩ = true ∧
      (state.next ⟨2000, 0, .authenticate sampleAccess⟩).refused ⟨0, 0, .reconnect ⟨sampleAccess, 60000⟩⟩ = false := by
  decide +kernel

end State

end Rika.Assignments
