import Rika.CreateConnection

namespace Rika.ThreadCreation

open Fold (bind_eq_ok ite_else_error_eq_ok ite_error_eq_ok)

variable {fails : Failures} {store store' : Store} {input : CreateConnectionInput}

section Agreement

def agrees (created later : ExistingConnectionInput) : Bool :=
  created.authority.ownerId = later.authority.ownerId && created.authority.userId = later.authority.userId &&
    created.projectId = later.projectId && created.executorKind = later.executorKind &&
    created.archiveThreadId = later.archiveThreadId && created.runnerTarget = later.runnerTarget &&
    created.workspaceSeedId = later.workspaceSeedId

def verdict (created later : ExistingConnectionInput) : CreateConnectionResult :=
  if agrees created later then .existing else .incompatible

def Placed (input : ExistingConnectionInput) : Prop :=
  (input.executorKind = .runner ↔ input.runnerTarget.isSome = true) ∧
    (input.executorKind = .runner → input.workspaceSeedId = none)

/-- The rows of a thread are those of the request that created it. -/
structure Records (existing : Connection) (created : ExistingConnectionInput) : Prop where
  placed : Placed created
  archive : existing.archiveSourceThreadId = created.archiveThreadId
  owner : existing.ownerId = created.authority.ownerId
  project : existing.projectId = created.projectId
  user : existing.createdByUserId = created.authority.userId
  kind : existing.executorKind = created.executorKind
  placement : decodeRunnerPlacement existing.placement = created.runnerTarget
  seed : (existing.workspaceSeed.bind decodeWorkspaceSeed).map (·.id) = created.workspaceSeedId
  stored : existing.workspaceSeed.isSome = created.workspaceSeedId.isSome

theorem compatibleAgain_eq (existing : Connection) (later : ExistingConnectionInput) :
    compatibleAgain existing later = compatible existing later := by
  unfold compatibleAgain compatible
  cases later.runnerTarget with
  | none => simp [every, Bool.and_assoc]
  | some target =>
    cases decodeRunnerPlacement existing.placement with
    | none => simp [every]
    | some placement => simp [every, Bool.and_assoc]

variable {existing : Connection} {created : ExistingConnectionInput}

theorem Records.seedCompatible (h : Records existing created) (workspaceSeedId : Option String) :
    seedCompatible existing.workspaceSeed workspaceSeedId = decide (created.workspaceSeedId = workspaceSeedId) := by
  cases workspaceSeedId with
  | none =>
    have hstored := h.stored
    cases hseed : existing.workspaceSeed with
    | none =>
      rw [hseed] at hstored
      have hnone : created.workspaceSeedId = none := by simpa using hstored.symm
      simp [ThreadCreation.seedCompatible, hnone]
    | some seed =>
      rw [hseed] at hstored
      obtain ⟨id, hid⟩ := Option.isSome_iff_exists.mp hstored.symm
      simp [ThreadCreation.seedCompatible, hid]
  | some id =>
    rw [← h.seed, ThreadCreation.seedCompatible]
    cases existing.workspaceSeed.bind decodeWorkspaceSeed with
    | none => simp
    | some seed => simp

theorem Records.compatible {later : ExistingConnectionInput}
    (h : Records existing created) (hlater : Placed later) : compatible existing later = agrees created later := by
  have htarget : ∀ target, created.runnerTarget = target ∨ created.executorKind ≠ later.executorKind →
      later.runnerTarget = none → target = none ∨ created.executorKind ≠ later.executorKind := by
    intro target hcase hnone
    rcases hcase with rfl | hkind
    · by_cases hkind : created.executorKind = later.executorKind
      · left
        have hrunner : ¬later.executorKind = .runner := fun hrunner => by
          have hsome := hlater.1.mp hrunner
          rw [hnone] at hsome
          cases hsome
        rw [← hkind, h.placed.1] at hrunner
        simpa using hrunner
      · exact .inr hkind
    · exact .inr hkind
  rw [ThreadCreation.compatible, agrees, h.archive, h.owner, h.project, h.user, h.kind, h.placement,
    h.seedCompatible]
  cases hrunner : later.runnerTarget with
  | none =>
    have hcreated := htarget created.runnerTarget (.inl rfl) hrunner
    rcases hcreated with hcreated | hkind
    · rw [hcreated]
      simp only [decide_true, Bool.and_true]
      ac_rfl
    · simp [hkind]
  | some target =>
    cases hcreated : created.runnerTarget with
    | none =>
      simp
    | some placement =>
      have heq : (decide (placement.deviceId = target.deviceId) &&
          decide (placement.checkoutFingerprint = target.checkoutFingerprint)) =
            decide (some placement = some target) := by
        obtain ⟨deviceId, checkoutFingerprint⟩ := placement
        obtain ⟨targetDevice, targetFingerprint⟩ := target
        simp
      dsimp only
      rw [heq]
      ac_rfl

end Agreement

section Transaction

/-- A seed is staged by the owner, user, device and client of a request. -/
def Owns (staged : StagedSeed) (input : CreateConnectionInput) : Prop :=
  staged.ownerId = input.authority.ownerId ∧ staged.createdByUserId = input.authority.userId ∧
    staged.createdByDeviceId = input.requestingDeviceId ∧ staged.createdByClientId = input.requestingClientId

structure Claimable (store : Store) (input : CreateConnectionInput) (staged : StagedSeed) : Prop where
  stored : staged ∈ store.seeds.rows
  named : input.workspaceSeedId = some staged.id
  owned : Owns staged input
  live : input.now < staged.expiresAt
  free : staged.claimedAssignmentId = none ∨ staged.claimedAssignmentId = some input.assignmentId
  accepted : staged.manifest.accepted = true

def Seeded (store : Store) (input : CreateConnectionInput) (seed : Option WorkspaceSeed) : Prop :=
  (input.workspaceSeedId = none ∧ seed = none) ∨ ∃ staged, Claimable store input staged ∧ seed = some staged.manifest

section

variable (input : CreateConnectionInput)

def archives (thread : ProductThread) : Bool :=
  input.archiveThreadId = some thread.id && thread.ownerId = input.authority.ownerId

def replaced (thread : ProductThread) : ProductThread :=
  if archives input thread then { thread with archived := true, updatedAt := input.now } else thread

def claimedBy (staged : StagedSeed) : StagedSeed :=
  if input.workspaceSeedId = some staged.id then { staged with claimedAssignmentId := some input.assignmentId } else staged

end

structure Writes (store : Store) (input : CreateConnectionInput) (workspaceId : String) (seed : Option WorkspaceSeed)
    (store' : Store) : Prop where
  hostedFresh : store.hostedThreads.find input.threadId = none
  threadFresh : store.threads.find input.threadId = none
  assignmentFresh : store.assignments.find input.assignmentId = none
  unassigned : ∀ assignment ∈ store.assignments.rows, assignment.threadId ≠ input.threadId
  hostedThreads : store'.hostedThreads.rows = store.hostedThreads.rows ++ [hostedThreadOf input workspaceId]
  threads : store'.threads.rows = (store.threads.rows ++ [threadOf input workspaceId]).map (replaced input)
  assignments : store'.assignments.rows = store.assignments.rows ++ [assignmentOf input workspaceId seed]
  seeds : store'.seeds.rows = store.seeds.rows.map (claimedBy input)

structure Creates (store : Store) (input : CreateConnectionInput) (store' : Store) : Prop where
  missing : connection store input.threadId = none
  other : input.archiveThreadId ≠ some input.threadId
  source : ∀ source, input.archiveThreadId = some source →
    ∃ thread ∈ store.threads.rows, thread.id = source ∧ thread.ownerId = input.authority.ownerId
  written : ∃ workspaceId seed, Seeded store input seed ∧ Writes store input workspaceId seed store'

theorem inserted_eq_ok {ρ κ : Type} [DecidableEq κ] {key : ρ → κ} {table table' : Table key} {row : ρ}
    (h : inserted table row = .ok table') : table.find (key row) = none ∧ table'.rows = table.rows ++ [row] := by
  rw [inserted] at h
  split at h
  · cases h
  · next hinsert =>
      cases h
      exact Table.insert_eq_some.mp hinsert

theorem checkSource_eq_ok (h : checkSource fails store input = .ok ()) (source : String)
    (hsource : input.archiveThreadId = some source) :
    ∃ thread ∈ store.threads.rows, thread.id = source ∧ thread.ownerId = input.authority.ownerId := by
  rw [checkSource, hsource] at h
  obtain ⟨_, _, h⟩ := bind_eq_ok.mp h
  obtain ⟨hthread, h⟩ := ite_else_error_eq_ok.mp h
  cases hfind : store.threads.find source with
  | none =>
    rw [hfind] at hthread
    cases hthread
  | some thread =>
    rw [hfind] at hthread
    exact ⟨thread, Table.mem_of_find hfind, Table.key_of_find hfind, of_decide_eq_true hthread⟩

theorem seeded_of_loadWorkspaceSeed {seed : Option WorkspaceSeed} (h : loadWorkspaceSeed fails store input = .ok seed) :
    Seeded store input seed := by
  rw [loadWorkspaceSeed] at h
  split at h
  · next hnone =>
      cases h
      exact .inl ⟨hnone, rfl⟩
  next seedId hsome =>
    split at h
    · cases h
    obtain ⟨_, _, hread⟩ := bind_eq_ok.mp h
    split at hread
    · cases hread
    next staged hstaged =>
      obtain ⟨hfind, hlive⟩ := Option.filter_eq_some_iff.mp hstaged
      obtain ⟨hmem, rfl⟩ := Table.find_eq_some.mp hfind
      split at hread
      · cases hread
      next howned =>
        split at hread
        · cases hread
        next hfree =>
          split at hread
          · cases hread
          next seed' hdecode =>
            rw [decodeWorkspaceSeed] at hdecode
            obtain ⟨haccepted, hdecode⟩ := Option.ite_none_right_eq_some.mp hdecode
            cases hdecode
            have hclaimable : Claimable store input staged := by
              refine ⟨hmem, hsome, ?_, of_decide_eq_true hlive, ?_, haccepted⟩
              · simpa [every, Owns] using howned
              · cases hclaimed : staged.claimedAssignmentId with
                | none => exact .inl rfl
                | some assignmentId =>
                  rw [hclaimed] at hfree
                  exact .inr (by simpa [every] using hfree)
            refine .inr ⟨staged, hclaimable, ?_⟩
            split at hread
            · cases hread
              rfl
            · split at hread
              · cases hread
              obtain ⟨-, hread⟩ := ite_error_eq_ok.mp hread
              cases hread
              rfl

variable {workspaceId : String} {result : CreateConnectionResult}

theorem insertThreads_eq_ok (h : insertThreads fails store input workspaceId = .ok store') :
    store.hostedThreads.find input.threadId = none ∧ store.threads.find input.threadId = none ∧
      store'.hostedThreads.rows = store.hostedThreads.rows ++ [hostedThreadOf input workspaceId] ∧
      store'.threads.rows = store.threads.rows ++ [threadOf input workspaceId] ∧
      store'.assignments = store.assignments ∧ store'.seeds = store.seeds := by
  unfold insertThreads at h
  obtain ⟨_, _, h⟩ := bind_eq_ok.mp h
  obtain ⟨_, _, h⟩ := bind_eq_ok.mp h
  obtain ⟨_, _, h⟩ := bind_eq_ok.mp h
  obtain ⟨hostedThreads, hhosted, h⟩ := bind_eq_ok.mp h
  obtain ⟨_, _, h⟩ := bind_eq_ok.mp h
  obtain ⟨threads, hthreads, h⟩ := bind_eq_ok.mp h
  cases h
  obtain ⟨hhostedFresh, hhostedRows⟩ := inserted_eq_ok hhosted
  obtain ⟨hthreadFresh, hthreadRows⟩ := inserted_eq_ok hthreads
  exact ⟨hhostedFresh, hthreadFresh, hhostedRows, hthreadRows, rfl, rfl⟩

theorem insertGrant_eq_ok (h : insertGrant fails store input = .ok store') :
    store'.hostedThreads = store.hostedThreads ∧ store'.threads = store.threads ∧
      store'.assignments = store.assignments ∧ store'.seeds = store.seeds := by
  unfold insertGrant at h
  split at h
  · obtain ⟨_, _, h⟩ := bind_eq_ok.mp h
    obtain ⟨_, _, h⟩ := bind_eq_ok.mp h
    cases h
    exact ⟨rfl, rfl, rfl, rfl⟩
  · cases h
    exact ⟨rfl, rfl, rfl, rfl⟩

theorem insertAssignment_eq_ok {assignment : ExecutorAssignment}
    (h : insertAssignment fails store assignment = .ok store') :
    store.assignments.find assignment.id = none ∧
      (∀ other ∈ store.assignments.rows, other.threadId ≠ assignment.threadId) ∧
      store'.assignments.rows = store.assignments.rows ++ [assignment] ∧ store'.hostedThreads = store.hostedThreads ∧
      store'.threads = store.threads ∧ store'.seeds = store.seeds := by
  unfold insertAssignment at h
  obtain ⟨_, _, h⟩ := bind_eq_ok.mp h
  split at h
  · cases h
  next hunassigned =>
    obtain ⟨assignments, hassignments, h⟩ := bind_eq_ok.mp h
    cases h
    obtain ⟨hfresh, hrows⟩ := inserted_eq_ok hassignments
    refine ⟨hfresh, fun other hmem heq => hunassigned ?_, hrows, rfl, rfl, rfl⟩
    exact List.any_eq_true.mpr ⟨other, hmem, decide_eq_true heq⟩

theorem archiveSource_eq_ok (h : archiveSource fails store input = .ok store') :
    store'.threads.rows = store.threads.rows.map (replaced input) ∧ store'.hostedThreads = store.hostedThreads ∧
      store'.assignments = store.assignments ∧ store'.seeds = store.seeds := by
  unfold archiveSource at h
  split at h
  · next hnone =>
      cases h
      have hsame : replaced input = id := by
        funext thread
        rw [replaced, archives, hnone]
        rfl
      rw [hsame, List.map_id]
      exact ⟨rfl, rfl, rfl, rfl⟩
  · next source hsome =>
      obtain ⟨_, _, h⟩ := bind_eq_ok.mp h
      cases h
      refine ⟨?_, rfl, rfl, rfl⟩
      rw [Table.rows_update]
      refine List.map_congr_left fun thread _ => ?_
      rw [replaced, archives, hsome]
      simp only [Option.some.injEq, eq_comm]

theorem claimWorkspaceSeed_eq_ok (h : claimWorkspaceSeed fails store input = .ok store') :
    store'.seeds.rows = store.seeds.rows.map (claimedBy input) ∧ store'.hostedThreads = store.hostedThreads ∧
      store'.assignments = store.assignments ∧ store'.threads = store.threads := by
  unfold claimWorkspaceSeed at h
  split at h
  · next hnone =>
      cases h
      have hsame : claimedBy input = id := by
        funext staged
        rw [claimedBy, hnone]
        rfl
      rw [hsame, List.map_id]
      exact ⟨rfl, rfl, rfl, rfl⟩
  · next seedId hsome =>
      obtain ⟨_, _, h⟩ := bind_eq_ok.mp h
      split at h
      · cases h
      split at h
      · cases h
      cases h
      refine ⟨?_, rfl, rfl, rfl⟩
      rw [Table.rows_update]
      refine List.map_congr_left fun staged _ => ?_
      rw [claimedBy, hsome]
      simp [eq_comm]

theorem writes_of_insertConnection (h : insertConnection fails store input workspaceId = .ok store') :
    ∃ seed, Seeded store input seed ∧ Writes store input workspaceId seed store' := by
  unfold insertConnection at h
  obtain ⟨seed, hseed, h⟩ := bind_eq_ok.mp h
  obtain ⟨threaded, hthreads, h⟩ := bind_eq_ok.mp h
  obtain ⟨granted, hgrant, h⟩ := bind_eq_ok.mp h
  obtain ⟨assigned, hassignment, h⟩ := bind_eq_ok.mp h
  obtain ⟨archived, harchive, h⟩ := bind_eq_ok.mp h
  obtain ⟨seeded, hclaim, h⟩ := bind_eq_ok.mp h
  obtain ⟨_, _, h⟩ := bind_eq_ok.mp h
  cases h
  obtain ⟨hhostedFresh, hthreadFresh, hhosted₁, hthreads₁, hassignments₁, hseeds₁⟩ := insertThreads_eq_ok hthreads
  obtain ⟨hhosted₂, hthreads₂, hassignments₂, hseeds₂⟩ := insertGrant_eq_ok hgrant
  obtain ⟨hfresh, hunassigned, hassignments₃, hhosted₃, hthreads₃, hseeds₃⟩ := insertAssignment_eq_ok hassignment
  obtain ⟨hthreads₄, hhosted₄, hassignments₄, hseeds₄⟩ := archiveSource_eq_ok harchive
  obtain ⟨hseeds₅, hhosted₅, hassignments₅, hthreads₅⟩ := claimWorkspaceSeed_eq_ok hclaim
  rw [hassignments₂, hassignments₁] at hfresh hunassigned hassignments₃
  refine ⟨seed, seeded_of_loadWorkspaceSeed hseed, hhostedFresh, hthreadFresh, hfresh, hunassigned, ?_, ?_, ?_, ?_⟩
  · rw [hhosted₅, hhosted₄, hhosted₃, hhosted₂, hhosted₁]
  · rw [hthreads₅, hthreads₄, hthreads₃, hthreads₂, hthreads₁]
  · rw [hassignments₅, hassignments₄, hassignments₃]
  · rw [hseeds₅, hseeds₄, hseeds₃, hseeds₂, hseeds₁]

def Refused (result : CreateConnectionResult) : Prop :=
  result = .runnerMissing ∨ result = .runnerAuthorityMismatch ∨ result = .runnerRemoteDenied

theorem refused_of_chooseWorkspace (h : chooseWorkspace fails store input = .ok (.error result)) : Refused result := by
  unfold chooseWorkspace at h
  split at h
  · cases h
  · obtain ⟨_, _, h⟩ := bind_eq_ok.mp h
    split at h
    · cases h
      exact .inl rfl
    · split at h
      · cases h
        exact .inr (.inl rfl)
      · split at h
        · cases h
          exact .inr (.inr rfl)
        · cases h

theorem createConnection_eq_ok (h : createConnection fails store input = .ok (store', result)) :
    (store' = store ∧ ((∃ existing, connection store input.threadId = some existing ∧
        result = if compatible existing input.toExistingConnectionInput then .existing else .incompatible) ∨
      connection store input.threadId = none ∧ Refused result)) ∨
    result = .created ∧ Creates store input store' := by
  rw [createConnection] at h
  split at h
  · cases h
  next hother =>
    obtain ⟨_, _, h⟩ := bind_eq_ok.mp h
    obtain ⟨_, _, h⟩ := bind_eq_ok.mp h
    split at h
    · next existing hexisting =>
        cases h
        refine .inl ⟨rfl, .inl ⟨existing, hexisting, ?_⟩⟩
        rw [compatibleAgain_eq]
    · next hmissing =>
        obtain ⟨_, hsource, h⟩ := bind_eq_ok.mp h
        obtain ⟨choice, hchoice, h⟩ := bind_eq_ok.mp h
        split at h
        · cases h
          exact .inl ⟨rfl, .inr ⟨hmissing, refused_of_chooseWorkspace hchoice⟩⟩
        · next workspaceId =>
            obtain ⟨written, hwritten, h⟩ := bind_eq_ok.mp h
            cases h
            obtain ⟨seed, hseed, hwrites⟩ := writes_of_insertConnection hwritten
            exact .inr ⟨rfl, hmissing, hother, checkSource_eq_ok hsource, workspaceId, seed, hseed, hwrites⟩

end Transaction

end Rika.ThreadCreation
