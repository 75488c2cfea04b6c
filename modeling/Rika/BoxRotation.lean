import Rika.AssignmentFencing
import Rika.BoxAssignmentIdentities

namespace Rika.Assignments

open Fold (bind_eq_ok ite_else_error_eq_ok ite_error_eq_ok)

variable {now : Clock} {store store' : AssignmentStore} {row row' : AssignmentRow}

def KeepsBindings {α : Type} (store : AssignmentStore) (x : Except AssignmentError (AssignmentStore × α)) : Prop :=
  ∀ store' a, x = .ok (store', a) → store'.bindings = store.bindings

namespace KeepsBindings

variable {α β : Type}

theorem ok (a : α) : KeepsBindings store (.ok (store, a)) := by
  intro store' a' h
  cases h
  rfl

theorem failure {reason : AssignmentFailureReason} (message : String) :
    KeepsBindings store (Assignments.failure reason message : Except AssignmentError (AssignmentStore × α)) := nofun

theorem bind {x : Except AssignmentError β} {f : β → Except AssignmentError (AssignmentStore × α)}
    (hf : ∀ b, KeepsBindings store (f b)) : KeepsBindings store (x >>= f) := by
  intro store' a h
  obtain ⟨b, -, h⟩ := bind_eq_ok.mp h
  exact hf b store' a h

theorem updateAssignment {before : AssignmentStore} (hbefore : before.bindings = store.bindings) {id : String}
    {p : AssignmentRow → Bool} {values : AssignmentRow → AssignmentRow} (a : α) :
    KeepsBindings store (Assignments.updateAssignment before id p values >>= fun store => .ok (store, a)) := by
  intro store' a' h
  obtain ⟨updatedStore, hupdate, h⟩ := bind_eq_ok.mp h
  obtain ⟨row, -, -, rfl⟩ := updateAssignment_eq_ok hupdate
  cases h
  exact hbefore

theorem updated (id : String) (p : AssignmentRow → Bool) (values : AssignmentRow → AssignmentRow) :
    KeepsBindings store (updated store id p values) := by
  intro store' a h
  obtain ⟨updatedStore, hupdate, h⟩ := bind_eq_ok.mp h
  obtain ⟨row, -, -, rfl⟩ := updateAssignment_eq_ok hupdate
  obtain ⟨found, -, h⟩ := bind_eq_ok.mp h
  obtain ⟨decoded, -, h⟩ := bind_eq_ok.mp h
  cases h
  rfl

theorem create (input : CreateInput) : KeepsBindings store (create store now input) := by
  rw [Assignments.create]
  split
  · exact failure _
  · split
    · exact failure _
    · split
      · exact failure _
      · split
        · exact failure _
        · split
          · exact failure _
          · exact bind fun _ => fun _ _ h => by cases h; rfl

theorem claimOrphan (input : ClaimOrphanInput) : KeepsBindings store (claimOrphan store now input) := by
  rw [Assignments.claimOrphan]
  split
  · exact ok _
  · exact ok _
  · exact updateAssignment rfl _

theorem beginProvisioning (input : BeginProvisioningInput) : KeepsBindings store (beginProvisioning store now input) := by
  refine bind fun row => bind fun _ => ?_
  split
  · exact failure _
  · exact updated _ _ _

theorem beginReplacement (input : BeginReplacementInput) : KeepsBindings store (beginReplacement store now input) := by
  refine bind fun row => bind fun _ => ?_
  split
  · exact failure _
  · refine bind fun _ => ?_
    split
    · exact failure _
    · exact updated _ _ _

theorem bindProviderInstance (input : BindProviderInstanceInput) :
    KeepsBindings store (bindProviderInstance store now input) := by
  refine bind fun row => bind fun _ => ?_
  split
  · exact failure _
  · split
    · exact failure _
    · exact updated _ _ _

theorem openSession (input : OpenSessionInput) : KeepsBindings store (openSession store now input) := by
  refine bind fun row => bind fun _ => ?_
  split
  · exact failure _
  · split
    · exact failure _
    · split
      · exact failure _
      · exact updated _ _ _

theorem heartbeat (input : HeartbeatInput) : KeepsBindings store (heartbeat store now input) := by
  refine bind fun row => bind fun _ => ?_
  split
  · exact failure _
  · split
    · exact failure _
    · exact updated _ _ _

theorem pause (input : Version) : KeepsBindings store (pause store now input) := by
  refine bind fun row => bind fun _ => ?_
  split
  · exact failure _
  · exact updated _ _ _

theorem resume (input : ResumeInput) : KeepsBindings store (resume store now input) := by
  refine bind fun row => bind fun _ => ?_
  split
  · exact failure _
  · exact updated _ _ _

theorem commitCheckpoint (input : CommitCheckpointInput) : KeepsBindings store (commitCheckpoint store now input) := by
  refine bind fun row => bind fun _ => ?_
  split
  · exact failure _
  · split
    · split
      · exact ok _
      · exact failure _
    · split
      · simp only
        split
        · intro _ _ h
          cases h
        · split
          · exact failure _
          · exact updateAssignment rfl _
      · exact failure _

end KeepsBindings

def Extends (store store' : AssignmentStore) : Prop :=
  ∀ key binding, store.bindings.find key = some binding → store'.bindings.find key = some binding

theorem Extends.refl : Extends store store := fun _ _ h => h

theorem Extends.trans {store'' : AssignmentStore} (h : Extends store store') (h' : Extends store' store'') :
    Extends store store'' := fun key binding hfind => h' key binding (h key binding hfind)

theorem Extends.of_eq (h : store'.bindings = store.bindings) : Extends store store' := by
  intro key binding hfind
  rw [h]
  exact hfind

theorem Extends.of_insert {binding : BoxBinding} (h : store.bindings.insert binding = some store'.bindings) :
    Extends store store' := by
  intro key found hfind
  rw [Table.find_insert h, if_neg]
  · exact hfind
  · intro hkey
    rw [hkey, (Table.insert_eq_some.mp h).1] at hfind
    cases hfind

variable {id : String} {input : BindBoxAssignmentInput} {projection expected current : BoxAssignmentProjection}
    {boundBox : Option String}

theorem Extends.boxOf (h : Extends store store') {generation : Nat} {box : String}
    (hbox : boxOf store id generation = some box) : boxOf store' id generation = some box := by
  obtain ⟨binding, hfind, rfl⟩ := Option.map_eq_some_iff.mp hbox
  exact Option.map_eq_some_iff.mpr ⟨binding, h _ _ hfind, rfl⟩

theorem bind_extends (h : bind store input = .ok (store', projection)) : Extends store store' := by
  rcases bind_inserts h with rfl | ⟨_, _, hinsert, rfl⟩
  · exact .refl
  · exact .of_insert hinsert

theorem rotationBoxId_eq {row : AssignmentRow} (hdecode : decodeProjection row boundBox = .ok current)
    (h : current.providerInstanceId = some (rotationBoxId expected)) :
    expected.providerInstanceId = some (rotationBoxId expected) := by
  cases hexpected : expected.providerInstanceId with
  | some box =>
    rw [rotationBoxId, hexpected]
    rfl
  | none =>
    rw [decodeProjection] at hdecode
    obtain ⟨hrow, hdecode⟩ := ite_else_error_eq_ok.mp hdecode
    cases hdecode
    simp only [Bool.and_eq_true] at hrow
    have hbox := hrow.1.1.1.2
    change boundBox = _ at h
    rw [h, rotationBoxId, hexpected] at hbox
    exact absurd hbox (by decide)

/-- What a rotation has checked of the row before it tells the two cases apart. -/
structure Rotatable (store : AssignmentStore) (expected : BoxAssignmentProjection) (row : AssignmentRow)
    (current : BoxAssignmentProjection) : Prop where
  input : (canonical expected.assignmentId && orbPolicy expected.placement && expected.providerInstanceId.all boxId) = true
  fence : expected.assignmentId.generation = expected.generation
  selected : selectAssignment store expected.assignmentId.rawAssignmentId = .ok row
  decoded : decodeProjection row (boxOf store expected.assignmentId.rawAssignmentId row.generation) = .ok current
  metadata : sameRotationMetadata current expected = true
  lifecycle : ¬(current.lifecycle = .paused || current.lifecycle = .terminated) = true
  binding : sameRotationBinding current (rotationBoxId expected)
    (boxOf store expected.assignmentId.rawAssignmentId expected.generation) = true

theorem rotate_cases (h : rotate store now expected = .ok (store', projection)) :
    ∃ row current, Rotatable store expected row current ∧
      (row.generation = expected.generation + 1 ∧ store' = store ∧ projection = current ∨
        row.generation = expected.generation ∧
          ∃ updatedStore bindings,
            updateAssignment store expected.assignmentId.rawAssignmentId
                (fun row => row.generation = expected.generation) (·.rotated now) = .ok updatedStore ∧
              updatedStore.bindings.insert
                  ⟨expected.assignmentId.rawAssignmentId, row.generation + 1, rotationBoxId expected⟩ = some bindings ∧
              store' = { updatedStore with bindings } ∧
              decodeProjection (row.rotated now) (some (rotationBoxId expected)) = .ok projection) := by
  rw [rotate] at h
  obtain ⟨hinput, h⟩ := ite_error_eq_ok.mp h
  obtain ⟨hfence, h⟩ := ite_error_eq_ok.mp h
  obtain ⟨row, hselected, h⟩ := bind_eq_ok.mp h
  obtain ⟨hgeneration, h⟩ := ite_error_eq_ok.mp h
  obtain ⟨current, hcurrent, h⟩ := bind_eq_ok.mp h
  obtain ⟨hmetadata, h⟩ := ite_error_eq_ok.mp h
  obtain ⟨hlifecycle, h⟩ := ite_error_eq_ok.mp h
  obtain ⟨hbinding, h⟩ := ite_error_eq_ok.mp h
  refine ⟨row, current, ⟨by simpa using hinput, not_not.mp hfence, hselected, hcurrent,
    by simpa using hmetadata, hlifecycle, by simpa using hbinding⟩, ?_⟩
  split at h
  · next hrotated =>
      cases h
      exact .inl ⟨hrotated, rfl, rfl⟩
  · next hrotated =>
      obtain ⟨-, h⟩ := ite_error_eq_ok.mp h
      obtain ⟨-, h⟩ := ite_error_eq_ok.mp h
      obtain ⟨updatedStore, hupdate, h⟩ := bind_eq_ok.mp h
      split at h
      · cases h
      · next bindings hinsert =>
          obtain ⟨rotated, hdecode, h⟩ := bind_eq_ok.mp h
          cases h
          simp only [Bool.and_eq_true, decide_eq_true_eq, not_and, not_not] at hgeneration
          have hsame : row.generation = expected.generation := by
            by_contra hne
            exact hrotated (hgeneration hne)
          exact .inr ⟨hsame, updatedStore, bindings, boxUpdate_eq_ok hupdate, hinsert, rfl, hdecode⟩

theorem Rotatable.rotate_again (h : Rotatable store expected row current)
    (hrotated : row.generation = expected.generation + 1) : rotate store now expected = .ok (store, current) := by
  rw [rotate, if_neg (by rw [h.input]; decide), if_neg (not_not.mpr h.fence)]
  refine bind_eq_ok.mpr ⟨row, h.selected, ?_⟩
  rw [if_neg (by simp [hrotated])]
  refine bind_eq_ok.mpr ⟨current, h.decoded, ?_⟩
  rw [if_neg (by rw [h.metadata]; decide), if_neg h.lifecycle, if_neg (by rw [h.binding]; decide), if_pos hrotated]
  rfl

theorem decodeProjection_eq_ok (h : decodeProjection row boundBox = .ok projection) : projection =
      { assignmentId := ⟨row.id, row.generation⟩
        ownerId := row.ownerId
        threadId := row.threadId
        workspaceId := row.workspaceId
        generation := row.generation
        placement := row.placement
        providerInstanceId := boundBox
        lifecycle := row.lifecycle
        checkout := row.checkout
        workspaceSeed := row.workspaceSeed } := by
  rw [decodeProjection] at h
  obtain ⟨-, h⟩ := ite_else_error_eq_ok.mp h
  exact (Except.ok.inj h).symm

theorem decodeProjection_clearStale (row row' : AssignmentRow) (boundBox : Option String) :
    decodeProjection { clearStaleAssignmentCapabilities row row' with id := row'.id } boundBox =
      decodeProjection row' boundBox := by
  rcases clearStale_cases row row' with h | h
  · rw [h]
  · rw [h]
    rfl

namespace Rotatable

variable {expected current : BoxAssignmentProjection}

section

variable (h : Rotatable store expected row current)

include h

theorem boxes :
    boxOf store expected.assignmentId.rawAssignmentId expected.generation = some (rotationBoxId expected) ∧
      boxOf store expected.assignmentId.rawAssignmentId row.generation = some (rotationBoxId expected) ∧
      current.providerInstanceId = some (rotationBoxId expected) := by
  have hbinding := h.binding
  simp only [sameRotationBinding, Bool.and_eq_true, decide_eq_true_eq] at hbinding
  refine ⟨hbinding.1, ?_, hbinding.2⟩
  rw [← hbinding.2, decodeProjection_eq_ok h.decoded]

theorem providerInstanceId :
    expected.providerInstanceId = some (rotationBoxId expected) := rotationBoxId_eq h.decoded h.boxes.2.2

theorem find :
    store.assignments.find expected.assignmentId.rawAssignmentId = some row := selectAssignment_eq_ok h.selected

theorem later (hextends : Extends store store')
    (hrow : store'.assignments.find expected.assignmentId.rawAssignmentId = some row) :
    Rotatable store' expected row current where
  input := h.input
  fence := h.fence
  selected := by
    have hselected := h.selected
    rw [selectAssignment, h.find] at hselected
    rw [selectAssignment, hrow]
    exact hselected
  decoded := by
    rw [hextends.boxOf h.boxes.2.1, ← h.boxes.2.1]
    exact h.decoded
  metadata := h.metadata
  lifecycle := h.lifecycle
  binding := by
    rw [hextends.boxOf h.boxes.1, ← h.boxes.1]
    exact h.binding

end

end Rotatable

theorem rotate_extends (h : rotate store now expected = .ok (store', projection)) : Extends store store' := by
  obtain ⟨row, current, -, h⟩ := rotate_cases h
  rcases h with ⟨-, rfl, -⟩ | ⟨-, updatedStore, bindings, hupdate, hinsert, rfl, -⟩
  · exact .refl
  · obtain ⟨found, -, -, rfl⟩ := updateAssignment_eq_ok hupdate
    exact .of_insert hinsert

theorem selectAssignment_rotated (now : Clock) (h : selectAssignment store id = .ok row)
    (hfind : store.assignments.find id = some row) (bindings : Table BoxBinding.key) :
    selectAssignment
        { store with
          assignments :=
            store.assignments.update (fun row => row.id = id)
              fun row => { clearStaleAssignmentCapabilities row (row.rotated now) with id := row.id }
          bindings } id =
      .ok { clearStaleAssignmentCapabilities row (row.rotated now) with id := row.id } := by
  have hkind : (clearStaleAssignmentCapabilities row (row.rotated now)).executorKind = row.executorKind := by
    rcases clearStale_cases row (row.rotated now) with hclear | hclear
    · rw [hclear]
      rfl
    · rw [hclear]
      rfl
  have horb : row.executorKind = .orb := by
    rw [selectAssignment, hfind, Option.filter_some] at h
    by_contra hne
    rw [if_neg (by simpa using hne)] at h
    cases h
  have hupdated : (store.assignments.update (fun row => row.id = id)
      fun row => { clearStaleAssignmentCapabilities row (row.rotated now) with id := row.id }).find id =
      some { clearStaleAssignmentCapabilities row (row.rotated now) with id := row.id } := by
    rw [Table.find_update, hfind, Option.map_some, if_pos]
    exact decide_eq_true (Table.key_of_find hfind)
  rw [selectAssignment, hupdated, Option.filter_some, if_pos]
  exact decide_eq_true (hkind.trans horb)

theorem rotate_rotatable (h : rotate store now expected = .ok (store', projection)) :
    ∃ row, Rotatable store' expected row projection ∧ row.generation = expected.generation + 1 := by
  have hextends := rotate_extends h
  obtain ⟨row, current, hrotatable, h⟩ := rotate_cases h
  rcases h with ⟨hrotated, rfl, rfl⟩ | ⟨hsame, updatedStore, bindings, hupdate, hinsert, rfl, hdecode⟩
  · exact ⟨row, hrotatable, hrotated⟩
  · obtain ⟨found, hfound, -, rfl⟩ := updateAssignment_eq_ok hupdate
    obtain rfl := Option.some_inj.mp (hrotatable.find.symm.trans hfound)
    have hprojection := decodeProjection_eq_ok hdecode
    have hcurrent := decodeProjection_eq_ok hrotatable.decoded
    have hid : row.id = expected.assignmentId.rawAssignmentId := Table.key_of_find hfound
    let row' : AssignmentRow := { clearStaleAssignmentCapabilities row (row.rotated now) with id := row.id }
    have hgeneration : row'.generation = expected.generation + 1 := by
      rw [← hsame]
      rcases clearStale_cases row (row.rotated now) with hclear | hclear
      · simp only [row', hclear]
        rfl
      · simp only [row', hclear]
        rfl
    have hrow' := selectAssignment_rotated now hrotatable.selected hfound bindings
    have hbox : bindings.find (expected.assignmentId.rawAssignmentId, expected.generation + 1) =
        some ⟨expected.assignmentId.rawAssignmentId, row.generation + 1, rotationBoxId expected⟩ := by
      rw [Table.find_insert hinsert, if_pos]
      exact Prod.ext rfl (congrArg (· + 1) hsame.symm)
    refine ⟨row', ⟨hrotatable.input, hrotatable.fence, hrow', ?_, ?_, ?_, ?_⟩, hgeneration⟩
    · rw [hgeneration, boxOf]
      simp only
      rw [hbox, Option.map_some]
      exact (decodeProjection_clearStale row (row.rotated now) _).trans hdecode
    · have hmetadata := hrotatable.metadata
      rw [hcurrent] at hmetadata
      rw [hprojection]
      exact hmetadata
    · have hlifecycle := hrotatable.lifecycle
      rw [hcurrent] at hlifecycle
      rw [hprojection]
      exact hlifecycle
    · rw [sameRotationBinding, hextends.boxOf hrotatable.boxes.1, hprojection]
      simp

theorem KeepsBindings.extends {α : Type} {x : Except AssignmentError (AssignmentStore × α)} (hx : KeepsBindings store x)
    (h : ofAssignments x = .ok store') : Extends store store' := by
  obtain ⟨a, h⟩ := ofAssignments_eq_ok h
  exact .of_eq (hx store' a h)

theorem serve_extends {call : Call} (h : serve store now call = .ok store') : Extends store store' := by
  cases call with
  | create input => exact (KeepsBindings.create input).extends h
  | inspectOrphan input => exact (KeepsBindings.ok (Assignments.inspectOrphan store now input)).extends h
  | claimOrphan input => exact (KeepsBindings.claimOrphan input).extends h
  | beginProvisioning input => exact (KeepsBindings.beginProvisioning input).extends h
  | beginReplacement input => exact (KeepsBindings.beginReplacement input).extends h
  | bindProviderInstance input => exact (KeepsBindings.bindProviderInstance input).extends h
  | openSession input => exact (KeepsBindings.openSession input).extends h
  | isBootstrapLive input => exact ofAssignments_map_eq_ok h ▸ .refl
  | updateCapabilities input | reconnect input =>
    exact (KeepsBindings.bind fun _ => .bind fun _ => .updated _ _ _).extends h
  | heartbeat input => exact (KeepsBindings.heartbeat input).extends h
  | authenticate input => exact ofAssignments_map_eq_ok h ▸ .refl
  | release input => exact (KeepsBindings.bind fun _ => .bind fun _ => .updated _ _ _).extends h
  | validateFence input => exact ofAssignments_map_eq_ok h ▸ .refl
  | pause input => exact (KeepsBindings.pause input).extends h
  | resume input => exact (KeepsBindings.resume input).extends h
  | terminate input => exact (KeepsBindings.bind fun _ => .bind fun _ => .updated _ _ _).extends h
  | commitCheckpoint input => exact (KeepsBindings.commitCheckpoint input).extends h
  | bind input =>
    obtain ⟨projection, h⟩ := ofBoxes_eq_ok h
    exact bind_extends h
  | rotate expected =>
    obtain ⟨projection, h⟩ := ofBoxes_eq_ok h
    exact rotate_extends h
  | revokeDevices ownerId deviceIds =>
    cases h
    exact .refl

theorem Rewrite.executorKind (h : Rewrite now row row') : row'.executorKind = row.executorKind := by
  cases h with
  | _ => rfl

theorem RowStep.executorKind (h : RowStep now row row') : row'.executorKind = row.executorKind := by
  cases h with
  | same => rfl
  | @rewritten row'' hrewrite =>
    rcases clearStale_cases row row'' with hclear | hclear
    · rw [hclear]
      exact hrewrite.executorKind
    · rw [hclear]
      exact hrewrite.executorKind

namespace State

theorem run_extends (state : State) (requests : List Request) : Extends state.store (run requests state).store := by
  induction requests generalizing state with
  | nil => exact .refl
  | cons request requests ih =>
    refine Extends.trans ?_ (ih (state.next request))
    rw [next]
    cases h : state.serve request with
    | ok store => exact serve_extends h
    | error refusal => exact .refl

theorem run_generation {state : State} (hsound : Sound state.store) (requests : List Request) {id : String}
    {row : AssignmentRow} (h : state.store.assignments.find id = some row) :
    ∃ row', (run requests state).store.assignments.find id = some row' ∧ row'.executorKind = row.executorKind ∧
      row.generation ≤ row'.generation := by
  induction requests generalizing state row with
  | nil => exact ⟨row, h, rfl, Nat.le_refl _⟩
  | cons request requests ih =>
    have hchanges := state.next_changes request
    obtain ⟨row₁, hrow₁, hstep, -⟩ := hchanges.kept h
    have hle := (hstep.lease (hsound.wellFormed h)).fence_le
    have hgeneration : row.generation ≤ row₁.generation := by
      rcases Prod.Lex.toLex_le_toLex.mp hle with hlt | heq
      · exact Nat.le_of_lt hlt
      · exact Nat.le_of_eq heq.1
    obtain ⟨row', hrow', hkind, hgeneration'⟩ := ih (hchanges.sound hsound) hrow₁
    exact ⟨row', hrow', hkind.trans hstep.executorKind, hgeneration.trans hgeneration'⟩

end State

def Fenced {α : Type} (x : Except BoxAssignmentError α) : Prop :=
  ∃ error, x = .error error ∧ (error.reason = .staleFence ∨ error.reason = .invalid)

theorem get_fenced {identity : BoxAssignmentIdentity} (hrow : store.assignments.find identity.rawAssignmentId = some row)
    (horb : row.executorKind = .orb) (hlt : identity.generation < row.generation) : Fenced (get store identity) := by
  rw [get]
  split
  · exact ⟨_, rfl, .inr rfl⟩
  · rw [hrow, Option.filter_some, if_pos (decide_eq_true horb)]
    simp only
    rw [if_pos (Nat.ne_of_gt hlt)]
    exact ⟨_, rfl, .inl rfl⟩

theorem bind_fenced
    (hrow : store.assignments.find input.assignmentId.rawAssignmentId = some row) (horb : row.executorKind = .orb)
    (hlt : input.assignmentId.generation < row.generation) : Fenced (bind store input) := by
  rw [bind]
  split
  · exact ⟨_, rfl, .inr rfl⟩
  · split
    · exact ⟨_, rfl, .inl rfl⟩
    · have hselected : selectAssignment store input.assignmentId.rawAssignmentId = .ok row := by
        rw [selectAssignment, hrow, Option.filter_some, if_pos (decide_eq_true horb)]
      rw [hselected]
      change Fenced (decodeProjection row (boxOf store row.id row.generation) >>= _)
      cases hdecode : decodeProjection row (boxOf store row.id row.generation) with
      | error error =>
        refine ⟨error, rfl, .inr ?_⟩
        rw [decodeProjection] at hdecode
        split at hdecode
        · cases hdecode
        · cases hdecode
          rfl
      | ok current =>
        have hcurrent := decodeProjection_eq_ok hdecode
        have hne : current.assignmentId ≠ input.assignmentId := by
          intro heq
          rw [hcurrent] at heq
          exact Nat.ne_of_gt hlt (congrArg BoxAssignmentIdentity.generation heq)
        change Fenced (ite _ _ _)
        rw [if_pos (by simp [hne])]
        exact ⟨_, rfl, .inl rfl⟩

def BindingsKept (store later : AssignmentStore) : Prop :=
  ∀ binding ∈ store.bindings.rows, binding ∈ later.bindings.rows ∧
    ∀ other ∈ later.bindings.rows, other.key = binding.key → other = binding

/-- The assignment is a generation on, bound to the same box, and while its row stays a rotation answers the same again.
-/
def Rotated (store : AssignmentStore) (expected projection : BoxAssignmentProjection) : Prop :=
  ∃ row box, store.assignments.find expected.assignmentId.rawAssignmentId = some row ∧
    row.generation = expected.generation + 1 ∧ projection.generation = expected.generation + 1 ∧
    expected.providerInstanceId = some box ∧ projection.providerInstanceId = some box ∧
    boxOf store expected.assignmentId.rawAssignmentId expected.generation = some box ∧
    boxOf store expected.assignmentId.rawAssignmentId (expected.generation + 1) = some box ∧
    ∀ time now requests, (State.run requests ⟨store, time⟩).store.assignments.find expected.assignmentId.rawAssignmentId = some row →
      rotate (State.run requests ⟨store, time⟩).store now expected = .ok ((State.run requests ⟨store, time⟩).store, projection)

theorem Extends.bindingsKept (h : Extends store store') : BindingsKept store store' := by
  intro binding hbinding
  have hfind := h _ _ (Table.find_key hbinding)
  have hmem := Table.mem_of_find hfind
  exact ⟨hmem, fun other hother hkey => Table.eq_of_key_eq _ hother hmem hkey⟩

theorem rotate_rotated (h : rotate store now expected = .ok (store', projection)) : Rotated store' expected projection := by
  obtain ⟨row, hrotatable, hgeneration⟩ := rotate_rotatable h
  obtain ⟨hbefore, hafter, hprojection⟩ := hrotatable.boxes
  rw [hgeneration] at hafter
  refine ⟨row, rotationBoxId expected, hrotatable.find, hgeneration, ?_, hrotatable.providerInstanceId, hprojection,
    hbefore, hafter, ?_⟩
  · rw [decodeProjection_eq_ok hrotatable.decoded]
    exact hgeneration
  · intro time now requests hrow
    exact (hrotatable.later (State.run_extends ⟨store', time⟩ requests) hrow).rotate_again hgeneration

namespace State

/-- Over every run a generation keeps its one box, a rotation is answered again, and an identity that has passed is
refused. -/
theorem rotation_fences (collation : Collation) (threads : List HostedThread) (started : Millis)
    (before after : List Request) :
    BindingsKept (run before (start collation threads started)).store
        (run (before ++ after) (start collation threads started)).store ∧
      (∀ now expected store' projection,
        rotate (run before (start collation threads started)).store now expected = .ok (store', projection) →
          Rotated store' expected projection) ∧
      (∀ identity row,
        (run before (start collation threads started)).store.assignments.find identity.rawAssignmentId = some row →
          row.executorKind = .orb → identity.generation < row.generation →
            Fenced (get (run (before ++ after) (start collation threads started)).store identity) ∧
              ∀ input, input.assignmentId = identity →
                Fenced (bind (run (before ++ after) (start collation threads started)).store input)) ∧
      (∀ request refusal, (run before (start collation threads started)).serve request = .error refusal →
        ((run before (start collation threads started)).next request).store =
          (run before (start collation threads started)).store) ∧
      (∀ identity, (encodeBoxAssignmentIdentity identity).isSome = canonical identity) ∧
      ∀ identity text, decodeBoxAssignmentIdentity text = some identity ↔ encodeBoxAssignmentIdentity identity = some text := by
  have hrun : run (before ++ after) (start collation threads started) =
      run after (run before (start collation threads started)) := List.foldl_append
  rw [hrun]
  refine ⟨(run_extends _ after).bindingsKept, fun _ _ _ _ h => rotate_rotated h, ?_, ?_,
    encodeBoxAssignmentIdentity_isSome, fun _ _ => decodeBoxAssignmentIdentity_eq_some⟩
  · intro identity row hrow horb hlt
    have hsound := run_sound (start_sound collation threads started) before
    obtain ⟨row', hrow', hkind, hle⟩ := run_generation hsound after hrow
    have hlater := Nat.lt_of_lt_of_le hlt hle
    refine ⟨get_fenced hrow' (hkind.trans horb) hlater, ?_⟩
    intro input hinput
    obtain rfl := hinput
    exact bind_fenced hrow' (hkind.trans horb) hlater
  · intro request refusal h
    rw [next, h]
    rfl

end State

end Rika.Assignments
