import Rika.AssignmentRuns

namespace Rika.Assignments

open Fold (bind_eq_ok ite_else_error_eq_ok ite_error_eq_ok)

variable {now : Clock} {store store' : AssignmentStore}

variable {id : String} {row : AssignmentRow} {p : AssignmentRow → Bool} {values : AssignmentRow → AssignmentRow}
    {assignment : ExecutorAssignment} {u : Unit} {input : Version} {projection : BoxAssignmentProjection} {α : Type}
    {x : Except AssignmentError α}

theorem locked_eq_ok : locked store id = .ok row ↔ store.assignments.find id = some row := by
  rw [locked]
  split
  · next h => simp [h, failure]
  · next h => simp [h]

theorem clearStale_cases (row row' : AssignmentRow) :
    clearStaleAssignmentCapabilities row row' = row' ∨
      clearStaleAssignmentCapabilities row row' = { row' with capabilityGeneration := none, capabilitySnapshot := none } := by
  rw [clearStaleAssignmentCapabilities]
  split
  · exact .inr rfl
  · exact .inl rfl

theorem latest_clearStale (row row' : AssignmentRow) :
    (clearStaleAssignmentCapabilities row row').latestCheckpointId = row'.latestCheckpointId := by
  rcases clearStale_cases row row' with h | h <;> rw [h]

namespace Changes

theorem refl : Changes now store store where
  kept h := ⟨_, h, .same, .inl rfl⟩
  created h h' := absurd (h.symm.trans h') (Option.some_ne_none _).symm
  checkpoints h := h

theorem of_eq (hassignments : store'.assignments = store.assignments) (hcheckpoints : store'.checkpoints = store.checkpoints) :
    Changes now store store' where
  kept h := ⟨_, by rw [hassignments]; exact h, .same, .inl rfl⟩
  created h h' := by
    rw [hassignments, h] at h'
    cases h'
  checkpoints h := by rw [hcheckpoints]; exact h

theorem of_checkpoints {checkpoints : Table CheckpointRow.id} (h : Changes now { store with checkpoints } store')
    (hcheckpoints : ∀ {id checkpoint}, store.checkpoints.find id = some checkpoint → checkpoints.find id = some checkpoint) :
    Changes now store store' where
  kept := h.kept
  created := h.created
  checkpoints hfind := h.checkpoints (hcheckpoints hfind)

theorem of_update {p : AssignmentRow → Bool} {values : AssignmentRow → AssignmentRow}
    (hassignments : store'.assignments =
      store.assignments.update p fun row => { clearStaleAssignmentCapabilities row (values row) with id := row.id })
    (hcheckpoints : store'.checkpoints = store.checkpoints)
    (hrewrite : ∀ {id row}, store.assignments.find id = some row → p row = true →
      Rewrite now row (values row) ∧ LatestKept store row (values row)) : Changes now store store' where
  kept {id row} h := by
    by_cases hp : p row = true
    · obtain ⟨hrewrite, hlatest⟩ := hrewrite h hp
      refine ⟨_, by rw [hassignments, Table.find_update, h, Option.map_some, if_pos hp], .rewritten hrewrite, ?_⟩
      rw [LatestKept, hcheckpoints, latest_clearStale]
      exact hlatest
    · exact ⟨row, by rw [hassignments, Table.find_update, h, Option.map_some, if_neg hp], .same, .inl rfl⟩
  created h h' := by
    rw [hassignments, Table.find_update, h] at h'
    cases h'
  checkpoints h := by rw [hcheckpoints]; exact h

end Changes

theorem updateAssignment_eq_ok (h : updateAssignment store id p values = .ok store') :
    ∃ row, store.assignments.find id = some row ∧ p row = true ∧
      store' =
        { store with
          assignments :=
            store.assignments.update (fun row => row.id = id)
              fun row => { clearStaleAssignmentCapabilities row (values row) with id := row.id } } := by
  rw [updateAssignment] at h
  split at h
  · cases h
  · next row hfind =>
      obtain ⟨hrow, hp⟩ := Option.filter_eq_some_iff.mp hfind
      split at h
      · cases h
      · cases h
        exact ⟨row, hrow, hp, rfl⟩

theorem updateAssignment_changes (h : updateAssignment store id p values = .ok store')
    (hrewrite : ∀ {row}, store.assignments.find id = some row → p row = true →
      Rewrite now row (values row) ∧ LatestKept store row (values row)) : Changes now store store' := by
  obtain ⟨row, hrow, hp, rfl⟩ := updateAssignment_eq_ok h
  refine Changes.of_update rfl rfl ?_
  intro id' row' hrow' hid
  obtain rfl : id' = id := (Table.key_of_find hrow').symm.trans (of_decide_eq_true hid)
  obtain rfl := Option.some_inj.mp (hrow.symm.trans hrow')
  exact hrewrite hrow hp

theorem updated_changes (hrow : locked store id = .ok row)
    (h : updated store id p values = .ok (store', assignment)) (hrewrite : Rewrite now row (values row))
    (hlatest : (values row).latestCheckpointId = row.latestCheckpointId) : Changes now store store' := by
  rw [updated] at h
  obtain ⟨updatedStore, hupdate, h⟩ := bind_eq_ok.mp h
  obtain ⟨found, -, h⟩ := bind_eq_ok.mp h
  obtain ⟨decoded, -, h⟩ := bind_eq_ok.mp h
  cases h
  refine updateAssignment_changes hupdate fun hcurrent _ => ?_
  obtain rfl := Option.some_inj.mp ((locked_eq_ok.mp hrow).symm.trans hcurrent)
  exact ⟨hrewrite, .inl hlatest⟩

theorem checkFence_eq_ok {input : Fence} : checkFence row input = .ok u ↔
      row.lifecycle = .active ∧ row.generation = input.assignmentGeneration ∧ row.leaseEpoch = some input.leaseEpoch := by
  rw [checkFence]
  split
  · next h => simpa [and_assoc] using h
  · next h => simpa [failure] using h

theorem checkAccess_eq_ok {input : Access} {requireLiveLease : Bool} :
    checkAccess now row input requireLiveLease = .ok u ↔
      (row.lifecycle = .active ∧ row.generation = input.assignmentGeneration ∧ row.leaseEpoch = some input.leaseEpoch) ∧
        (row.providerInstanceId = some input.providerInstanceId ∧ row.executorInstanceId = some input.executorInstanceId ∧
          row.processIncarnation = some input.processIncarnation ∧
          (requireLiveLease = true → live row.leaseExpiresAt now = true)) ∧
        row.sessionDigest = some input.presentedSessionCredentialDigest := by
  rw [checkAccess, bind_eq_ok]
  simp only [checkFence_eq_ok, exists_const, and_congr_right_iff]
  intro _
  split
  · next h =>
      simp only [Bool.or_eq_true, decide_eq_true_eq, Bool.and_eq_true, Bool.not_eq_true'] at h
      simp only [failure, reduceCtorEq, false_iff]
      intro ⟨⟨hprovider, hexecutor, hprocess, hlive⟩, _⟩
      rcases h with ((h | h) | h) | h
      · exact h hprovider
      · exact h hexecutor
      · exact h hprocess
      · simp [hlive h.1] at h
  · next h =>
      simp only [Bool.or_eq_true, decide_eq_true_eq, Bool.and_eq_true, Bool.not_eq_true', not_or, not_not, not_and,
        Bool.not_eq_false] at h
      split
      · next hdigest => simp [failure, hdigest]
      · next hdigest => simpa [h.1.1.1, h.1.1.2, h.1.2] using ⟨h.2, not_not.mp hdigest⟩

theorem lockOrphanAuthority_retire {input : ClaimOrphanInput}
    (h : lockOrphanAuthority store now input = (.candidate, some row)) :
    store.assignments.find row.id = some row ∧ row.lifecycle ≠ .active ∧ row.lifecycle ≠ .terminated := by
  simp only [lockOrphanAuthority] at h
  split at h
  · split at h <;> cases h
  · next found hfound =>
      have hmem : found ∈ store.assignments.rows := by
        rcases Option.or_eq_some_iff.mp hfound with hbound | ⟨-, hmatched⟩
        · exact (Table.mem_select.mp ((StableSort.mem_toSorted _).mp (List.mem_of_find?_eq_some hbound))).1
        · have hidentified := (Option.filter_eq_some_iff.mp hmatched).1
          exact (Table.mem_select.mp ((StableSort.mem_toSorted _).mp (List.mem_of_find?_eq_some hidentified))).1
      split at h
      · split at h <;> cases h
      · split at h <;> cases h
      · cases h
      · next hlifecycle =>
          split at h
          · split at h <;> cases h
          · cases h
            exact ⟨Table.find_key hmem, by rw [hlifecycle]; decide, by rw [hlifecycle]; decide⟩
      · next hlifecycle =>
          split at h
          · split at h <;> cases h
          · cases h
            exact ⟨Table.find_key hmem, by rw [hlifecycle]; decide, by rw [hlifecycle]; decide⟩
      · next hlifecycle =>
          cases h
          exact ⟨Table.find_key hmem, by rw [hlifecycle]; decide, by rw [hlifecycle]; decide⟩

theorem claimOrphan_changes {input : ClaimOrphanInput} {claim : OrphanClaim}
    (h : claimOrphan store now input = .ok (store', claim)) : Changes now store store' := by
  rw [claimOrphan] at h
  split at h
  · cases h
    exact .refl
  · cases h
    exact .refl
  · next row hauthority =>
      obtain ⟨updatedStore, hupdate, h⟩ := bind_eq_ok.mp h
      cases h
      obtain ⟨hrow, hactive, hterminated⟩ := lockOrphanAuthority_retire hauthority
      refine updateAssignment_changes hupdate fun {current} hcurrent _ => ?_
      obtain rfl := Option.some_inj.mp (hrow.symm.trans hcurrent)
      exact ⟨.retired hactive hterminated, .inl rfl⟩

theorem create_changes {input : CreateInput}
    (h : create store now input = .ok (store', assignment)) : Changes now store store' := by
  rw [create] at h
  split at h
  · cases h
  · split at h
    · cases h
    · split at h
      · cases h
      · split at h
        · cases h
        · split at h
          · cases h
          · next assignments hinsert =>
              obtain ⟨decoded, -, h⟩ := bind_eq_ok.mp h
              cases h
              have hfind := Table.find_insert hinsert
              have hnew : store.assignments.find (createdRow now input).id = none := (Table.insert_eq_some.mp hinsert).1
              refine ⟨fun {id row} hrow => ⟨row, ?_, .same, .inl rfl⟩, fun {id row'} hrow hrow' => ?_, fun h => h⟩
              · rw [hfind, if_neg]
                · exact hrow
                · intro hid
                  rw [hid, hnew] at hrow
                  cases hrow
              · change assignments.find id = some row' at hrow'
                rw [hfind] at hrow'
                split at hrow'
                · cases hrow'
                  exact ⟨input, rfl⟩
                · rw [hrow] at hrow'
                  cases hrow'

theorem beginProvisioning_changes {input : BeginProvisioningInput}
    (h : beginProvisioning store now input = .ok (store', assignment)) : Changes now store store' := by
  obtain ⟨row, hrow, h⟩ := bind_eq_ok.mp h
  obtain ⟨-, -, h⟩ := bind_eq_ok.mp h
  obtain ⟨hlifecycle, h⟩ := ite_error_eq_ok.mp h
  simp only [Bool.or_eq_true, decide_eq_true_eq, not_or] at hlifecycle
  exact updated_changes hrow h (.provisioned input hlifecycle.1 hlifecycle.2) rfl

theorem beginReplacement_changes {input : BeginReplacementInput}
    (h : beginReplacement store now input = .ok (store', assignment)) : Changes now store store' := by
  obtain ⟨row, hrow, h⟩ := bind_eq_ok.mp h
  obtain ⟨-, -, h⟩ := bind_eq_ok.mp h
  obtain ⟨hterminated, h⟩ := ite_error_eq_ok.mp h
  obtain ⟨decoded, -, h⟩ := bind_eq_ok.mp h
  split at h
  · cases h
  · exact updated_changes hrow h (.replaced input hterminated) rfl

theorem bindProviderInstance_changes {input : BindProviderInstanceInput}
    (h : bindProviderInstance store now input = .ok (store', assignment)) : Changes now store store' := by
  obtain ⟨row, hrow, h⟩ := bind_eq_ok.mp h
  obtain ⟨-, -, h⟩ := bind_eq_ok.mp h
  obtain ⟨hprovisioning, h⟩ := ite_error_eq_ok.mp h
  obtain ⟨-, h⟩ := ite_error_eq_ok.mp h
  exact updated_changes hrow h (.bound input (not_not.mp hprovisioning)) rfl

theorem openSession_changes {input : OpenSessionInput}
    (h : openSession store now input = .ok (store', assignment)) : Changes now store store' := by
  obtain ⟨row, hrow, h⟩ := bind_eq_ok.mp h
  obtain ⟨-, -, h⟩ := bind_eq_ok.mp h
  obtain ⟨hawaiting, h⟩ := ite_error_eq_ok.mp h
  simp only [Bool.or_eq_true, decide_eq_true_eq, not_or, not_not] at hawaiting
  obtain ⟨-, h⟩ := ite_error_eq_ok.mp h
  obtain ⟨-, h⟩ := ite_error_eq_ok.mp h
  exact updated_changes hrow h (.opened input hawaiting.1) rfl

theorem updateCapabilities_changes {input : UpdateCapabilitiesInput}
    (h : updateCapabilities store now input = .ok (store', assignment)) : Changes now store store' := by
  obtain ⟨row, hrow, h⟩ := bind_eq_ok.mp h
  obtain ⟨-, -, h⟩ := bind_eq_ok.mp h
  exact updated_changes hrow h (.capable input) rfl

theorem reconnect_changes {input : ReconnectInput}
    (h : reconnect store now input = .ok (store', assignment)) : Changes now store store' := by
  obtain ⟨row, hrow, h⟩ := bind_eq_ok.mp h
  obtain ⟨_, haccess, h⟩ := bind_eq_ok.mp h
  exact updated_changes hrow h (.reconnected input (checkAccess_eq_ok.mp haccess).1.1) rfl

theorem heartbeat_changes {input : HeartbeatInput}
    (h : heartbeat store now input = .ok (store', assignment)) : Changes now store store' := by
  obtain ⟨row, hrow, h⟩ := bind_eq_ok.mp h
  obtain ⟨_, haccess, h⟩ := bind_eq_ok.mp h
  obtain ⟨hfence, hholder, -⟩ := checkAccess_eq_ok.mp haccess
  obtain ⟨hcursor, h⟩ := ite_error_eq_ok.mp h
  obtain ⟨-, h⟩ := ite_error_eq_ok.mp h
  exact updated_changes hrow h (.beaten input hfence.1 (hholder.2.2.2 rfl) (Nat.le_of_not_lt hcursor)) rfl

theorem release_changes {input : Access}
    (h : release store now input = .ok (store', assignment)) : Changes now store store' := by
  obtain ⟨row, hrow, h⟩ := bind_eq_ok.mp h
  obtain ⟨_, haccess, h⟩ := bind_eq_ok.mp h
  exact updated_changes hrow h (.paused now.clock (checkAccess_eq_ok.mp haccess).1.1) rfl

theorem pause_changes (h : pause store now input = .ok (store', assignment)) : Changes now store store' := by
  obtain ⟨row, hrow, h⟩ := bind_eq_ok.mp h
  obtain ⟨-, -, h⟩ := bind_eq_ok.mp h
  obtain ⟨hactive, h⟩ := ite_error_eq_ok.mp h
  exact updated_changes hrow h (.paused now.transaction (not_not.mp hactive)) rfl

theorem resume_changes {input : ResumeInput}
    (h : resume store now input = .ok (store', assignment)) : Changes now store store' := by
  obtain ⟨row, hrow, h⟩ := bind_eq_ok.mp h
  obtain ⟨-, -, h⟩ := bind_eq_ok.mp h
  obtain ⟨hpaused, h⟩ := ite_error_eq_ok.mp h
  exact updated_changes hrow h (.resumed input (not_not.mp hpaused)) rfl

theorem terminate_changes (h : terminate store now input = .ok (store', assignment)) : Changes now store store' := by
  obtain ⟨row, hrow, h⟩ := bind_eq_ok.mp h
  obtain ⟨-, -, h⟩ := bind_eq_ok.mp h
  exact updated_changes hrow h (.terminated now.transaction) rfl

theorem commitCheckpoint_changes {input : CommitCheckpointInput} {checkpoint : CheckpointRow}
    (h : commitCheckpoint store now input = .ok (store', checkpoint)) : Changes now store store' := by
  obtain ⟨row, hrow, h⟩ := bind_eq_ok.mp h
  obtain ⟨-, -, h⟩ := bind_eq_ok.mp h
  obtain ⟨hcursor, h⟩ := ite_error_eq_ok.mp h
  split at h
  · obtain ⟨-, h⟩ := ite_else_error_eq_ok.mp h
    cases h
    exact .refl
  · split at h
    · simp only at h
      split at h
      · cases h
      · split at h
        · cases h
        · next checkpoints hinsert =>
            obtain ⟨updatedStore, hupdate, h⟩ := bind_eq_ok.mp h
            cases h
            have hfind := Table.find_insert hinsert
            have hrow := locked_eq_ok.mp hrow
            refine Changes.of_checkpoints (updateAssignment_changes hupdate fun {current} hcurrent _ => ?_) ?_
            · have hid := Table.key_of_find hrow
              obtain rfl := Option.some_inj.mp (hrow.symm.trans (hid ▸ hcurrent))
              have hfound := (hfind input.id).trans (if_pos rfl)
              refine ⟨.checkpointed input.id, .inr ⟨input.id, _, rfl, hfound, ?_⟩⟩
              rw [not_not.mp hcursor]
            · intro id found hfound
              rw [hfind, if_neg]
              · exact hfound
              · intro hid
                rw [hid, (Table.insert_eq_some.mp hinsert).1] at hfound
                cases hfound
    · cases h

theorem selectAssignment_eq_ok (h : selectAssignment store id = .ok row) : store.assignments.find id = some row := by
  rw [selectAssignment] at h
  split at h
  · cases h
  · next hfind =>
      cases h
      exact (Option.filter_eq_some_iff.mp hfind).1

theorem bind_inserts {input : BindBoxAssignmentInput} (h : bind store input = .ok (store', projection)) :
    store' = store ∨ ∃ binding bindings, store.bindings.insert binding = some bindings ∧ store' = { store with bindings } := by
  rw [bind] at h
  obtain ⟨-, h⟩ := ite_error_eq_ok.mp h
  obtain ⟨-, h⟩ := ite_error_eq_ok.mp h
  obtain ⟨selected, -, h⟩ := bind_eq_ok.mp h
  obtain ⟨current, -, h⟩ := bind_eq_ok.mp h
  obtain ⟨-, h⟩ := ite_error_eq_ok.mp h
  obtain ⟨-, h⟩ := ite_error_eq_ok.mp h
  split at h
  · obtain ⟨-, h⟩ := ite_else_error_eq_ok.mp h
    cases h
    exact .inl rfl
  · split at h
    · cases h
    · next bindings hinsert =>
        cases h
        exact .inr ⟨_, _, hinsert, rfl⟩

theorem boxUpdate_eq_ok {a : α} (h : boxUpdate x = .ok a) : x = .ok a := by
  cases x with
  | ok _ =>
    cases h
    rfl
  | error error =>
    rw [boxUpdate] at h
    split at h <;> cases h

theorem lifecycle_decodeProjection {boundBox : Option String} (h : decodeProjection row boundBox = .ok projection) :
    projection.lifecycle = row.lifecycle := by
  rw [decodeProjection] at h
  obtain ⟨-, h⟩ := ite_else_error_eq_ok.mp h
  cases h
  rfl

theorem rotate_changes {expected : BoxAssignmentProjection}
    (h : rotate store now expected = .ok (store', projection)) : Changes now store store' := by
  rw [rotate] at h
  obtain ⟨-, h⟩ := ite_error_eq_ok.mp h
  obtain ⟨-, h⟩ := ite_error_eq_ok.mp h
  obtain ⟨selected, hselected, h⟩ := bind_eq_ok.mp h
  obtain ⟨-, h⟩ := ite_error_eq_ok.mp h
  obtain ⟨current, hcurrent, h⟩ := bind_eq_ok.mp h
  obtain ⟨-, h⟩ := ite_error_eq_ok.mp h
  obtain ⟨hlifecycle, h⟩ := ite_error_eq_ok.mp h
  obtain ⟨-, h⟩ := ite_error_eq_ok.mp h
  split at h
  · cases h
    exact .refl
  · obtain ⟨-, h⟩ := ite_error_eq_ok.mp h
    obtain ⟨-, h⟩ := ite_error_eq_ok.mp h
    obtain ⟨updatedStore, hupdate, h⟩ := bind_eq_ok.mp h
    split at h
    · cases h
    · obtain ⟨rotated, -, h⟩ := bind_eq_ok.mp h
      cases h
      simp only [Bool.or_eq_true, decide_eq_true_eq, not_or] at hlifecycle
      rw [lifecycle_decodeProjection hcurrent] at hlifecycle
      have hrow := selectAssignment_eq_ok hselected
      obtain ⟨row, hfind, -, rfl⟩ := updateAssignment_eq_ok (boxUpdate_eq_ok hupdate)
      refine Changes.of_update rfl rfl fun {id found} hfound hid => ?_
      obtain rfl := (Table.key_of_find hfound).symm.trans (of_decide_eq_true hid)
      obtain rfl := Option.some_inj.mp (hrow.symm.trans hfound)
      exact ⟨.rotated hlifecycle.2, .inl rfl⟩

theorem revokeDevices_changes (ownerId : Option String) (deviceIds : List String) :
    Changes now store (revokeDevices store now ownerId deviceIds) :=
  Changes.of_update rfl rfl fun _ _ => ⟨.revoked, .inl rfl⟩

theorem ofAssignments_eq_ok {x : Except AssignmentError (AssignmentStore × α)}
    (h : ofAssignments x = .ok store') : ∃ a, x = .ok (store', a) := by
  cases x with
  | ok pair =>
    cases h
    exact ⟨pair.2, rfl⟩
  | error _ => cases h

theorem ofBoxes_eq_ok {x : Except BoxAssignmentError (AssignmentStore × α)}
    (h : ofBoxes x = .ok store') : ∃ a, x = .ok (store', a) := by
  cases x with
  | ok pair =>
    cases h
    exact ⟨pair.2, rfl⟩
  | error _ => cases h

theorem ofAssignments_map_eq_ok (h : ofAssignments (x.map fun a => (store, a)) = .ok store') : store' = store := by
  cases x with
  | ok a =>
    cases h
    rfl
  | error _ => cases h

theorem serve_changes {call : Call} (h : serve store now call = .ok store') : Changes now store store' := by
  cases call with
  | create input => exact (ofAssignments_eq_ok h).elim fun _ => create_changes
  | inspectOrphan input =>
    cases h
    exact .refl
  | claimOrphan input => exact (ofAssignments_eq_ok h).elim fun _ => claimOrphan_changes
  | beginProvisioning input => exact (ofAssignments_eq_ok h).elim fun _ => beginProvisioning_changes
  | beginReplacement input => exact (ofAssignments_eq_ok h).elim fun _ => beginReplacement_changes
  | bindProviderInstance input => exact (ofAssignments_eq_ok h).elim fun _ => bindProviderInstance_changes
  | openSession input => exact (ofAssignments_eq_ok h).elim fun _ => openSession_changes
  | isBootstrapLive input => exact ofAssignments_map_eq_ok h ▸ .refl
  | updateCapabilities input => exact (ofAssignments_eq_ok h).elim fun _ => updateCapabilities_changes
  | reconnect input => exact (ofAssignments_eq_ok h).elim fun _ => reconnect_changes
  | heartbeat input => exact (ofAssignments_eq_ok h).elim fun _ => heartbeat_changes
  | authenticate input => exact ofAssignments_map_eq_ok h ▸ .refl
  | release input => exact (ofAssignments_eq_ok h).elim fun _ => release_changes
  | validateFence input => exact ofAssignments_map_eq_ok h ▸ .refl
  | pause input => exact (ofAssignments_eq_ok h).elim fun _ => pause_changes
  | resume input => exact (ofAssignments_eq_ok h).elim fun _ => resume_changes
  | terminate input => exact (ofAssignments_eq_ok h).elim fun _ => terminate_changes
  | commitCheckpoint input => exact (ofAssignments_eq_ok h).elim fun _ => commitCheckpoint_changes
  | bind input =>
    obtain ⟨_, hbind⟩ := ofBoxes_eq_ok h
    rcases bind_inserts hbind with rfl | ⟨_, _, -, rfl⟩
    · exact .refl
    · exact .of_eq rfl rfl
  | rotate expected => exact (ofBoxes_eq_ok h).elim fun _ => rotate_changes
  | revokeDevices ownerId deviceIds =>
    cases h
    exact revokeDevices_changes ownerId deviceIds

end Rika.Assignments
