import Rika.RepositoryPublications

namespace Rika.RepositoryPublications

open Assignments (AssignmentRow live)
open WorkspacePreparations (WorkspacePreparation)

inductive Moves : PublicationState → PublicationState → Prop
  | claimed : Moves .approved .pushing
  | recorded (state : PushState) : Moves .pushing state.state
  | finished (succeeded : Bool) : Moves .pushed (pullRequestState succeeded)

/-- What is said of a publication when it is approved stays as it is. -/
def SameApproval (row row' : PublicationRow) : Prop :=
  row'.toApproval = row.toApproval ∧ row'.idempotencyKey = row.idempotencyKey ∧ row'.actor = row.actor ∧
    row'.approvedAt = row.approvedAt

/-- What a transaction does: nothing, or one thing to one publication with one row of audit. -/
inductive Transition (store store' : Store) : Prop
  | unchanged (h : store' = store)
  | created (row : PublicationRow) (entry : AuditRow) (hfresh : store.publications.find row.id = none)
      (hstate : row.state = .approved) (hcredential : row.credentialAuthorizedAt = none)
      (hfind : ∀ id, store'.publications.find id = if id = row.id then some row else store.publications.find id)
      (haudit : store'.audit = store.audit ++ [entry]) (hentry : entry.publicationId = row.id)
  | moved (row row' : PublicationRow) (entry : AuditRow) (hrow : store.publications.find row.id = some row)
      (hmoves : Moves row.state row'.state) (happroval : SameApproval row row')
      (hfind : ∀ id, store'.publications.find id = if id = row.id then some row' else store.publications.find id)
      (haudit : store'.audit = store.audit ++ [entry]) (hentry : entry.publicationId = row.id)

/-- What the push of a publication is authorized by: its row, its assignment and the
assignment's preparation. -/
structure Authorized (store : Store) (world : World) (input : PushClaim) (row : PublicationRow)
    (assignment : AssignmentRow) (preparation : WorkspacePreparation) : Prop where
  stored : store.publications.find input.publicationId = some row
  approved : row.state = .approved
  unused : row.credentialAuthorizedAt = none
  branch : input.branch = row.sourceBranch
  ref : input.ref = row.sourceRef
  commit : input.commitSha = row.sourceCommitSha
  assigned : assignment ∈ world.assignments.rows
  own : assignment.id = row.assignmentId
  active : assignment.lifecycle = .active
  generation : assignment.generation = row.assignmentGeneration
  accessGeneration : input.access.assignmentGeneration = row.assignmentGeneration
  leaseEpoch : assignment.leaseEpoch = some row.leaseEpoch
  accessLeaseEpoch : input.access.leaseEpoch = row.leaseEpoch
  unexpired : live assignment.leaseExpiresAt world.clock = true
  prepared : preparation ∈ world.preparations.rows
  ownPreparation : preparation.assignmentId = assignment.id
  ready : preparation.state = .ready
  preparedGeneration : preparation.generation = assignment.generation
  preparedLeaseEpoch : some preparation.leaseEpoch = assignment.leaseEpoch

variable {store store' : Store} {world : World}

variable {message id stale action : String} {guard : PublicationRow → Bool} {set : PublicationRow → PublicationRow}
    {hset : ∀ row, (set row).key = row.key} {row' row : PublicationRow} {result authority fence auditResult : JsonObject}
    {publication : Publication} {input : PushClaim} {transition : PublicationTransition} {call : Call}

theorem insertAudit_eq_ok {entry : AuditRow} (h : insertAudit store world message entry = .ok store') :
    store'.publications = store.publications ∧ store'.audit = store.audit ++ [entry] := by
  rw [insertAudit] at h
  split at h
  · cases h
    exact ⟨rfl, rfl⟩
  · cases h

theorem updateRow_eq_ok (h : updateRow store world message id guard set hset = .ok (some (row', store'))) :
    ∃ row, store.publications.find id = some row ∧ guard row = true ∧ row' = set row ∧
      store'.audit = store.audit ∧
        ∀ other, store'.publications.find other = if other = id then some row' else store.publications.find other := by
  rw [updateRow] at h
  split at h
  · cases h
  · next row hfilter =>
      obtain ⟨hfind, hguard⟩ := Option.filter_eq_some_iff.mp hfilter
      have hkey : row.key = id := Table.key_of_find hfind
      split at h
      · cases h
        refine ⟨row, hfind, hguard, rfl, rfl, fun other => ?_⟩
        rw [Table.find_update]
        by_cases hother : other = id
        · subst hother
          simp [hfind, hkey]
        · cases hfound : store.publications.find other with
          | none => simp [hother]
          | some found => simp [hother, Table.key_of_find hfound]
      · cases h

theorem updateAudited_eq_ok
    (h : updateAudited store world stale message id guard set hset action result = .ok (publication, store')) :
    ∃ row, store.publications.find id = some row ∧ guard row = true ∧ publication = (set row).toPublication ∧
      store'.audit = store.audit ++ [auditRow world publication action result] ∧
        ∀ other, store'.publications.find other =
          if other = id then some (set row) else store.publications.find other := by
  rw [updateAudited] at h
  split at h
  · cases h
  · cases h
  · next row' middle hupdate =>
      obtain ⟨row, hfind, hguard, rfl, haudit, hfinds⟩ := updateRow_eq_ok hupdate
      split at h
      · cases h
      · next final hinsert =>
          cases h
          obtain ⟨hpublications, hentries⟩ := insertAudit_eq_ok hinsert
          refine ⟨row, hfind, hguard, rfl, by rw [hentries, haudit], fun other => ?_⟩
          rw [hpublications]
          exact hfinds other

theorem transition_of_updateAudited
    (h : updateAudited store world stale message id guard set hset action result = .ok (publication, store'))
    (hmoves : ∀ row, guard row = true → Moves row.state (set row).state)
    (happroval : ∀ row, SameApproval row (set row)) : Transition store store' := by
  obtain ⟨row, hfind, hguard, hpublication, haudit, hfinds⟩ := updateAudited_eq_ok h
  have hid : row.key = id := Table.key_of_find hfind
  subst hid hpublication
  exact .moved row (set row) _ hfind (hmoves row hguard) (happroval row) hfinds haudit (hset row)

theorem createPublication_eq_ok {input : Publication}
    (h : createPublication store world input authority fence auditResult = .ok (publication, store')) :
    publication = (approvedRow world input).toPublication ∧ store.publications.find input.id = none ∧
      store'.audit = store.audit ++ [approvalRow world publication authority fence auditResult] ∧
        ∀ id, store'.publications.find id =
          if id = input.id then some (approvedRow world input) else store.publications.find id := by
  rw [createPublication] at h
  split at h
  · cases h
  split at h
  · cases h
  split at h
  · cases h
  split at h
  · cases h
  · next publications hinsert =>
      split at h
      · cases h
      · next final haudit =>
          cases h
          obtain ⟨hpublications, hentries⟩ := insertAudit_eq_ok haudit
          refine ⟨rfl, (Table.insert_eq_some.mp hinsert).1, hentries, fun id => ?_⟩
          rw [hpublications]
          exact Table.find_insert hinsert id

theorem transition_createPublication {input : Publication}
    (h : createPublication store world input authority fence auditResult = .ok (publication, store')) :
    Transition store store' := by
  obtain ⟨rfl, hfresh, haudit, hfind⟩ := createPublication_eq_ok h
  exact .created (approvedRow world input) _ hfresh rfl rfl hfind haudit rfl

theorem claimable_iff : claimable world input row = true ↔
      row.state = .approved ∧ row.credentialAuthorizedAt = none ∧ row.ownerId = input.ownerId ∧
        row.repositoryId = input.repositoryId ∧ row.workspaceId = input.workspaceId ∧
          row.sourceBranch = input.branch ∧ row.sourceRef = input.ref ∧ row.sourceCommitSha = input.commitSha ∧
            ∃ assignment ∈ world.assignments.rows, validAssignment world input row assignment = true := by
  simp [claimable, and_assoc]

theorem prepared_iff {assignment : AssignmentRow} : prepared world assignment = true ↔
      ∃ preparation ∈ world.preparations.rows, preparation.assignmentId = assignment.id ∧
        preparation.ownerId = assignment.ownerId ∧ preparation.generation = assignment.generation ∧
          preparation.workspaceId = assignment.workspaceId ∧ some preparation.leaseEpoch = assignment.leaseEpoch ∧
            preparation.state = .ready := by
  simp [prepared, and_assoc]

theorem claimPush_authorized (h : claimPush store world input = .ok (publication, store')) :
    ∃ row assignment preparation, Authorized store world input row assignment preparation := by
  obtain ⟨row, hfind, hguard, -⟩ := updateAudited_eq_ok h
  obtain ⟨hstate, hunused, -, -, -, hbranch, href, hcommit, assignment, hassigned, hvalid⟩ := claimable_iff.mp hguard
  simp only [validAssignment, Bool.and_eq_true, decide_eq_true_eq] at hvalid
  obtain ⟨⟨⟨⟨⟨⟨⟨⟨⟨⟨⟨⟨⟨⟨⟨hprepared, hid⟩, -⟩, -⟩, -⟩, hgeneration⟩, hrow⟩, hactive⟩, -⟩, -⟩, -⟩, hepoch⟩, hrowEpoch⟩,
    hlive⟩, -⟩, -⟩ := hvalid
  obtain ⟨preparation, hmem, hpreparation, -, hgen, -, hlease, hready⟩ := prepared_iff.mp hprepared
  have haccess : some input.access.leaseEpoch = some row.leaseEpoch := hepoch.symm.trans hrowEpoch
  exact ⟨row, assignment, preparation,
    { stored := hfind
      approved := hstate
      unused := hunused
      branch := hbranch.symm
      ref := href.symm
      commit := hcommit.symm
      assigned := hassigned
      own := hid
      active := hactive
      generation := hrow
      accessGeneration := hgeneration.symm.trans hrow
      leaseEpoch := hrowEpoch
      accessLeaseEpoch := Option.some.inj haccess
      unexpired := hlive
      prepared := hmem
      ownPreparation := hpreparation
      ready := hready
      preparedGeneration := hgen
      preparedLeaseEpoch := hlease }⟩

theorem transition_claimPush (h : claimPush store world input = .ok (publication, store')) : Transition store store' := by
  apply transition_of_updateAudited h
  · intro row hguard
    obtain ⟨hstate, -⟩ := claimable_iff.mp hguard
    rw [hstate]
    exact .claimed
  · intro row
    exact ⟨rfl, rfl, rfl, rfl⟩

theorem transition_failCredential (h : failCredential store world publication = .ok store') : Transition store store' := by
  rw [failCredential] at h
  split at h
  · cases h
  · cases h
    exact .unchanged rfl
  · next row' middle hupdate =>
      obtain ⟨row, hfind, hguard, rfl, haudit, hfinds⟩ := updateRow_eq_ok hupdate
      obtain ⟨hpublications, hentries⟩ := insertAudit_eq_ok h
      have hid : row.key = publication.id := Table.key_of_find hfind
      have hstate : row.state = .pushing := by
        rw [Bool.and_eq_true] at hguard
        exact of_decide_eq_true hguard.1
      have hmoves : Moves row.state (row.moved world .failed).state := by
        rw [hstate]
        exact .recorded .failed
      refine .moved row (row.moved world .failed) _ (by rw [← hfind, ← hid]; rfl) hmoves ⟨rfl, rfl, rfl, rfl⟩ (fun id => ?_)
        (by rw [hentries, haudit]) hid.symm
      have hother := hfinds id
      rw [← hid] at hother
      rw [hpublications]
      exact hother

theorem transition_recordPush {state : PushState}
    (h : recordPush store world transition result state = .ok (publication, store')) :
    Transition store store' := by
  apply transition_of_updateAudited h
  · intro row hguard
    have hstate : row.state = .pushing := by
      simp only [pushRecordable, Bool.and_eq_true, decide_eq_true_eq, and_assoc] at hguard
      exact hguard.1
    rw [hstate]
    exact .recorded state
  · intro row
    exact ⟨rfl, rfl, rfl, rfl⟩

theorem transition_recordPullRequest {succeeded : Bool}
    (h : recordPullRequest store world transition result succeeded = .ok (publication, store')) :
    Transition store store' := by
  apply transition_of_updateAudited h
  · intro row hguard
    have hstate : row.state = .pushed := by
      simp only [pullRequestRecordable, Bool.and_eq_true, decide_eq_true_eq, and_assoc] at hguard
      exact hguard.1
    rw [hstate]
    exact .finished succeeded
  · intro row
    exact ⟨rfl, rfl, rfl, rfl⟩

theorem after_of_error {error : RepositoryStoreError} (h : call.transaction store world = .error error) :
    call.after store world = store := by
  rw [Call.after, h]

theorem map_eq_ok {ε α β : Type} {answer : Except ε α} {f : α → β} {b : β} (h : answer.map f = .ok b) :
    ∃ a, answer = .ok a ∧ f a = b := by
  cases answer with
  | error error => cases h
  | ok a => exact ⟨a, rfl, Except.ok.inj h⟩

theorem transition_after (store : Store) (world : World) (call : Call) : Transition store (call.after store world) := by
  rw [Call.after]
  split
  · exact .unchanged rfl
  · next answer store' h =>
      cases call with
      | createPublication input authority fence auditResult =>
        obtain ⟨committed, hcall, heq⟩ := map_eq_ok h
        cases heq
        exact transition_createPublication hcall
      | claimPush input =>
        obtain ⟨committed, hcall, heq⟩ := map_eq_ok h
        cases heq
        exact transition_claimPush hcall
      | failCredential publication =>
        obtain ⟨committed, hcall, heq⟩ := map_eq_ok h
        cases heq
        exact transition_failCredential hcall
      | recordPush publication result state =>
        obtain ⟨committed, hcall, heq⟩ := map_eq_ok h
        cases heq
        exact transition_recordPush hcall
      | recordPullRequest publication result succeeded =>
        obtain ⟨committed, hcall, heq⟩ := map_eq_ok h
        cases heq
        exact transition_recordPullRequest hcall

theorem SameApproval.refl (row : PublicationRow) : SameApproval row row := ⟨rfl, rfl, rfl, rfl⟩

theorem SameApproval.trans {row'' : PublicationRow} (h : SameApproval row row') (h' : SameApproval row' row'') :
    SameApproval row row'' :=
  ⟨h'.1.trans h.1, h'.2.1.trans h.2.1, h'.2.2.1.trans h.2.2.1, h'.2.2.2.trans h.2.2.2⟩

theorem Transition.find (h : Transition store store') (hrow : store.publications.find id = some row) :
    ∃ row', store'.publications.find id = some row' ∧ SameApproval row row' ∧
      Relation.ReflTransGen Moves row.state row'.state := by
  cases h with
  | unchanged h =>
    subst h
    exact ⟨row, hrow, .refl row, .refl⟩
  | created fresh entry hfresh hstate hcredential hfind haudit hentry =>
    have hid : id ≠ fresh.id := by
      rintro rfl
      rw [hfresh] at hrow
      cases hrow
    exact ⟨row, by rw [hfind, if_neg hid, hrow], .refl row, .refl⟩
  | moved old new entry hold hmoves happroval hfind haudit hentry =>
    by_cases hid : id = old.id
    · subst hid
      have heq : old = row := Option.some.inj (hold.symm.trans hrow)
      subst heq
      exact ⟨new, by rw [hfind, if_pos rfl], happroval, .single hmoves⟩
    · exact ⟨row, by rw [hfind, if_neg hid, hrow], .refl row, .refl⟩

theorem find_run (calls : List (World × Call)) {store : Store} (hrow : store.publications.find id = some row) :
    ∃ row', (run store calls).publications.find id = some row' ∧ SameApproval row row' ∧
      Relation.ReflTransGen Moves row.state row'.state := by
  induction calls generalizing store row with
  | nil => exact ⟨row, hrow, .refl row, .refl⟩
  | cons call calls ih =>
    obtain ⟨middle, hmiddle, hsame, hmoves⟩ := (transition_after store call.1 call.2).find hrow
    obtain ⟨row', hrow', hsame', hmoves'⟩ := ih hmiddle
    exact ⟨row', hrow', hsame.trans hsame', hmoves.trans hmoves'⟩

theorem ne_approved_of_moves {state state' : PublicationState} (h : Relation.ReflTransGen Moves state state')
    (hstate : state ≠ .approved) : state' ≠ .approved := by
  induction h with
  | refl => exact hstate
  | tail _ hmoves _ =>
    cases hmoves with
    | claimed => decide
    | recorded state => cases state <;> decide
    | finished succeeded => cases succeeded <;> decide

theorem authorizes_eq_true (h : call.authorizes store world id = true) :
    ∃ input publication store', call = .claimPush input ∧ input.publicationId = id ∧
      claimPush store world input = .ok (publication, store') := by
  cases call with
  | claimPush input =>
    simp only [Call.authorizes, Bool.and_eq_true, decide_eq_true_eq] at h
    cases hclaim : claimPush store world input with
    | error error =>
      rw [hclaim] at h
      cases h.2
    | ok committed => exact ⟨input, committed.1, committed.2, rfl, h.1, hclaim⟩
  | createPublication | failCredential | recordPush | recordPullRequest => cases h

theorem authorizes_eq_false (hrow : store.publications.find id = some row) (hstate : row.state ≠ .approved) :
    call.authorizes store world id = false := by
  rw [Bool.eq_false_iff]
  intro h
  obtain ⟨input, publication, store', rfl, rfl, hclaim⟩ := authorizes_eq_true h
  obtain ⟨approved, assignment, preparation, hauthorized⟩ := claimPush_authorized hclaim
  have heq : approved = row := Option.some.inj (hauthorized.stored.symm.trans hrow)
  exact hstate (heq ▸ hauthorized.approved)

theorem authorizations_eq_zero (calls : List (World × Call)) {store : Store}
    (hrow : store.publications.find id = some row) (hstate : row.state ≠ .approved) :
    authorizations id store calls = 0 := by
  induction calls generalizing store row with
  | nil => rfl
  | cons call calls ih =>
    obtain ⟨row', hrow', -, hmoves⟩ := (transition_after store call.1 call.2).find hrow
    rw [authorizations, authorizes_eq_false hrow hstate, ih hrow' (ne_approved_of_moves hmoves hstate)]
    rfl

theorem authorizations_le_one (store : Store) (calls : List (World × Call)) : authorizations id store calls ≤ 1 := by
  induction calls generalizing store with
  | nil => exact Nat.zero_le 1
  | cons call calls ih =>
    rw [authorizations]
    by_cases h : call.2.authorizes store call.1 id = true
    · -- the claim leaves the publication being pushed
      obtain ⟨input, publication, store', hcall, rfl, hclaim⟩ := authorizes_eq_true h
      have hafter : call.2.after store call.1 = store' := by
        rw [hcall, Call.after, Call.transaction, hclaim]
        rfl
      obtain ⟨row, -, -, -, -, hfind⟩ := updateAudited_eq_ok hclaim
      have hrow : store'.publications.find input.publicationId = some (row.claimed call.1) := by
        rw [hfind, if_pos rfl]
      have hpushing : (row.claimed call.1).state ≠ .approved := by
        intro hstate
        cases hstate
      rw [if_pos h, hafter, authorizations_eq_zero calls hrow hpushing]
    · rw [if_neg h, Nat.zero_add]
      exact ih _

theorem authorized_as_created {created : World} {input claimed : Publication} {middle final : Store}
    {calls : List (World × Call)} {claim : PushClaim}
    (hcreate : createPublication store created input authority fence auditResult = .ok (publication, middle))
    (hclaim : claimPush (run middle calls) world claim = .ok (claimed, final)) (hid : claim.publicationId = input.id) :
    claim.branch = input.sourceBranch ∧ claim.ref = input.sourceRef ∧ claim.commitSha = input.sourceCommitSha ∧
      claim.access.assignmentGeneration = input.assignmentGeneration ∧ claim.access.leaseEpoch = input.leaseEpoch := by
  obtain ⟨-, -, -, hfind⟩ := createPublication_eq_ok hcreate
  have hstored : middle.publications.find input.id = some (approvedRow created input) := by
    rw [hfind, if_pos rfl]
  obtain ⟨row, hrow, ⟨happroval, -⟩, -⟩ := find_run calls hstored
  obtain ⟨row', assignment, preparation, h⟩ := claimPush_authorized hclaim
  have heq : row' = row := by
    have hstored' := h.stored
    rw [hid, hrow] at hstored'
    exact (Option.some.inj hstored').symm
  subst heq
  rw [h.branch, h.ref, h.commit, h.accessGeneration, h.accessLeaseEpoch, happroval]
  exact ⟨rfl, rfl, rfl, rfl, rfl⟩

/-- Every call makes at most one transition, and a push is authorized once, for what was approved. -/
theorem pushed_at_most_once :
    (∀ (store : Store) (world : World) (call : Call), Transition store (call.after store world)) ∧
      (∀ (store : Store) (world : World) (call : Call) error, call.transaction store world = .error error → call.after store world = store) ∧
      (∀ store world input publication store', claimPush store world input = .ok (publication, store') →
        ∃ row assignment preparation, Authorized store world input row assignment preparation) ∧
      (∀ id store calls, authorizations id store calls ≤ 1) ∧
      (∀ store calls id row, store.publications.find id = some row →
        ∃ row', (run store calls).publications.find id = some row' ∧ SameApproval row row' ∧
          Relation.ReflTransGen Moves row.state row'.state) ∧
      (∀ store created input authority fence auditResult publication middle calls world claim claimed final,
        createPublication store created input authority fence auditResult = .ok (publication, middle) →
          claimPush (run middle calls) world claim = .ok (claimed, final) → claim.publicationId = input.id →
            claim.branch = input.sourceBranch ∧ claim.ref = input.sourceRef ∧
              claim.commitSha = input.sourceCommitSha ∧
                claim.access.assignmentGeneration = input.assignmentGeneration ∧
                  claim.access.leaseEpoch = input.leaseEpoch) :=
  ⟨transition_after, fun _ _ _ _ => after_of_error, fun _ _ _ _ _ => claimPush_authorized,
    fun _ => authorizations_le_one, fun _ calls _ _ => find_run calls,
    fun _ _ _ _ _ _ _ _ _ _ _ _ _ => authorized_as_created⟩

end Rika.RepositoryPublications
