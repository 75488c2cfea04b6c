import Mathlib.Data.List.Induction
import Rika.AppendLog
import Rika.ConnectionTransaction

namespace Rika.ThreadCreation

open AppendLog

variable {fails : Failures} {store store' : Store} {input : CreateConnectionInput}

section Soundness

def createdOf (threadId : String) : Answer → Option CreateConnectionInput
  | .connected _ input .created => if input.threadId = threadId then some input else none
  | _ => none

def createdFor (log : List Answer) (threadId : String) : Option CreateConnectionInput :=
  log.findSome? (createdOf threadId)

def Answer.opens : Answer → Bool
  | found _ _ _ => false
  | connected _ _ result => result ≠ .existing && result ≠ .incompatible

def follows (before : List Answer) (answer : Answer) : Bool :=
  match createdFor before answer.input.threadId with
  | none => answer.opens
  | some created => answer.result = verdict created.toExistingConnectionInput answer.input

def Recorded : Option Connection → Option CreateConnectionInput → Prop
  | none, none => True
  | some existing, some created => Records existing created.toExistingConnectionInput
  | _, _ => False

/-- A seed is claimed by the assignment that its owner created in time. -/
def Claims (log : List Answer) (staged : StagedSeed) (assignment : ExecutorAssignment) : Prop :=
  staged.claimedAssignmentId = some assignment.id ∧
    ∃ request input, .connected request input .created ∈ log ∧ input.assignmentId = assignment.id ∧
      input.threadId = assignment.threadId ∧ input.workspaceSeedId = some staged.id ∧ Owns staged input ∧
      input.now < staged.expiresAt

structure SeedsSound (log : List Answer) (store : Store) : Prop where
  named : ∀ staged ∈ store.seeds.rows, staged.manifest.id = staged.id
  held : ∀ assignment ∈ store.assignments.rows, ∀ seed, assignment.workspaceSeed = some seed →
    seed.accepted = true ∧ ∃ staged ∈ store.seeds.rows, staged.id = seed.id ∧ Claims log staged assignment
  claimed : ∀ staged ∈ store.seeds.rows, ∀ assignmentId, staged.claimedAssignmentId = some assignmentId →
    ∃ assignment ∈ store.assignments.rows, assignment.id = assignmentId ∧
      assignment.workspaceSeed.map (·.id) = some staged.id

structure ThreadsSound (store : Store) : Prop where
  assigned : store.assignments.rows.map (·.threadId) = store.hostedThreads.rows.map (·.id)
  threads : store.threads.rows.map (·.id) = store.hostedThreads.rows.map (·.id)
  archived : ∀ thread ∈ store.threads.rows, thread.archived = true ↔
    ∃ hosted ∈ store.hostedThreads.rows, hosted.archiveSourceThreadId = some thread.id
  source : ∀ hosted ∈ store.hostedThreads.rows, ∀ source, hosted.archiveSourceThreadId = some source →
    ∃ thread ∈ store.threads.rows, thread.id = source ∧ thread.ownerId = hosted.ownerId

def RequestsSound (requests : List Request) : Prop :=
  ∀ request ∈ requests, (∃ receipt, request.phase = .ended receipt) ∨ request.input.valid = true

structure State.Sound (s : State) : Prop where
  requests : RequestsSound s.requests
  log : Guarded follows s.log
  recorded : ∀ threadId, Recorded (connection s.store threadId) (createdFor s.log threadId)
  threads : ThreadsSound s.store
  seeds : SeedsSound s.log s.store

variable {workspaceId : String} {seed : Option WorkspaceSeed}

def connectionOf (input : CreateConnectionInput) (seed : Option WorkspaceSeed) : Connection :=
  ⟨input.archiveThreadId, input.authority.ownerId, input.projectId, input.authority.userId, input.executorKind,
    input.placement, seed⟩

theorem Writes.connection (h : Writes store input workspaceId seed store') (threadId : String) :
    connection store' threadId =
      if threadId = input.threadId then some (connectionOf input seed) else connection store threadId := by
  have hhosted : store'.hostedThreads.find threadId =
      if threadId = input.threadId then some (hostedThreadOf input workspaceId) else store.hostedThreads.find threadId :=
    Table.find_of_rows_append h.hostedThreads threadId
  have hnone : (store.assignments.rows.find? fun assignment => assignment.threadId = input.threadId) = none := by
    rw [List.find?_eq_none]
    intro assignment hmem
    simpa using h.unassigned assignment hmem
  rw [ThreadCreation.connection, h.assignments]
  by_cases heq : threadId = input.threadId
  · rw [if_pos heq] at hhosted ⊢
    rw [hhosted]
    dsimp only [hostedThreadOf]
    rw [List.find?_append, hnone]
    simp [assignmentOf, connectionOf]
  · rw [if_neg heq] at hhosted ⊢
    rw [hhosted, ThreadCreation.connection]
    cases hfind : store.hostedThreads.find threadId with
    | none => rfl
    | some hosted =>
      have hid : hosted.id = threadId := Table.key_of_find hfind
      dsimp only
      rw [List.find?_append, List.find?_singleton, if_neg, Option.or_none]
      simpa [assignmentOf, hid] using Ne.symm heq

theorem createdFor_concat (log : List Answer) (answer : Answer) (threadId : String) :
    createdFor (log ++ [answer]) threadId = (createdFor log threadId).or (createdOf threadId answer) := by
  simp [createdFor, List.findSome?_append]

theorem createdOf_eq_none {answer : Answer} (h : answer.result ≠ .created) (threadId : String) :
    createdOf threadId answer = none := by
  cases answer with
  | found request input result => rfl
  | connected request input result =>
    cases result with
    | created => exact absurd rfl h
    | existing => rfl
    | incompatible => rfl
    | runnerMissing => rfl
    | runnerAuthorityMismatch => rfl
    | runnerRemoteDenied => rfl

variable {log log' : List Answer} {request : Nat} {staged : StagedSeed}

theorem exists_of_createdFor {threadId : String} {created : CreateConnectionInput}
    (h : createdFor log threadId = some created) :
    created.threadId = threadId ∧ ∃ request, .connected request created .created ∈ log := by
  obtain ⟨answer, hmem, hanswer⟩ := List.exists_of_findSome?_eq_some h
  have hcreated : answer.result = .created := by
    by_contra hne
    rw [createdOf_eq_none hne] at hanswer
    cases hanswer
  cases answer with
  | found request input result => cases hanswer
  | connected request input result =>
    cases hcreated
    rw [createdOf] at hanswer
    split at hanswer
    · next heq =>
        cases hanswer
        exact ⟨heq, request, hmem⟩
    · cases hanswer

theorem isSome_createdFor (hmem : .connected request input .created ∈ log) : (createdFor log input.threadId).isSome = true := by
  rw [createdFor, List.findSome?_isSome_iff]
  exact ⟨_, hmem, by simp [createdOf]⟩

theorem records_connectionOf (hseeds : SeedsSound log store) (hplaced : Placed input.toExistingConnectionInput)
    (hplacement : decodeRunnerPlacement input.placement = input.runnerTarget) (hseed : Seeded store input seed) :
    Records (connectionOf input seed) input.toExistingConnectionInput := by
  rcases hseed with ⟨hnone, rfl⟩ | ⟨staged, hclaimable, rfl⟩
  · refine ⟨hplaced, rfl, rfl, rfl, rfl, rfl, hplacement, ?_, ?_⟩
    · rw [hnone]
      rfl
    · rw [hnone]
      rfl
  · refine ⟨hplaced, rfl, rfl, rfl, rfl, rfl, hplacement, ?_, ?_⟩
    · rw [hclaimable.named, connectionOf, Option.bind_some, decodeWorkspaceSeed, if_pos hclaimable.accepted,
        Option.map_some, hseeds.named staged hclaimable.stored]
    · rw [hclaimable.named]
      rfl

theorem id_replaced (thread : ProductThread) : (replaced input thread).id = thread.id := by
  rw [replaced]
  split <;> rfl

theorem ownerId_replaced (thread : ProductThread) : (replaced input thread).ownerId = thread.ownerId := by
  rw [replaced]
  split <;> rfl

theorem archived_replaced (thread : ProductThread) :
    (replaced input thread).archived = true ↔ archives input thread = true ∨ thread.archived = true := by
  rw [replaced]
  split
  · next harchives => simp [harchives]
  · next harchives => simp [harchives]

theorem ThreadsSound.writes (h : ThreadsSound store) (hcreates : Creates store input store')
    (hwrites : Writes store input workspaceId seed store') : ThreadsSound store' := by
  have hfresh : ∀ thread ∈ store.threads.rows, thread.id ≠ input.threadId := Table.find_eq_none.mp hwrites.threadFresh
  constructor
  · rw [hwrites.assignments, hwrites.hostedThreads, List.map_append, List.map_append, h.assigned]
    rfl
  · rw [hwrites.threads, hwrites.hostedThreads, List.map_map, List.map_append, List.map_append, ← h.threads]
    simp [id_replaced, hostedThreadOf, threadOf]
  · intro thread hmem
    rw [hwrites.threads] at hmem
    obtain ⟨old, hold, rfl⟩ := List.mem_map.mp hmem
    rw [archived_replaced, id_replaced, hwrites.hostedThreads]
    have hnew : archives input old = true ↔ input.archiveThreadId = some old.id := by
      rw [archives, Bool.and_eq_true, decide_eq_true_eq, decide_eq_true_eq, and_iff_left_iff_imp]
      intro hsource
      obtain ⟨source, hsourceMem, hid, howner⟩ := hcreates.source old.id hsource
      rcases List.mem_append.mp hold with hold | hold
      · rw [store.threads.eq_of_key_eq hold hsourceMem hid.symm]
        exact howner
      · rw [List.mem_singleton.mp hold]
        rfl
    have hrows : (∃ hosted ∈ store.hostedThreads.rows ++ [hostedThreadOf input workspaceId],
        hosted.archiveSourceThreadId = some old.id) ↔
          input.archiveThreadId = some old.id ∨
            ∃ hosted ∈ store.hostedThreads.rows, hosted.archiveSourceThreadId = some old.id := by
      simp only [List.mem_append, List.mem_singleton, or_and_right, exists_or, exists_eq_left, or_comm]
      rfl
    rw [hrows, hnew]
    refine or_congr_right ?_
    rcases List.mem_append.mp hold with hold | hold
    · exact h.archived old hold
    · obtain rfl := List.mem_singleton.mp hold
      -- Nothing was created in the place of a thread that did not exist.
      refine iff_of_false Bool.false_ne_true fun hexists => ?_
      obtain ⟨hosted, hhosted, hsource⟩ := hexists
      obtain ⟨thread, hthread, hid, _⟩ := h.source hosted hhosted _ hsource
      exact hfresh thread hthread hid
  · intro hosted hhosted source hsource
    rw [hwrites.threads]
    have hkept : ∀ thread ∈ store.threads.rows,
        replaced input thread ∈ (store.threads.rows ++ [threadOf input workspaceId]).map (replaced input) :=
      fun thread hmem => List.mem_map_of_mem (List.mem_append_left _ hmem)
    rw [hwrites.hostedThreads] at hhosted
    rcases List.mem_append.mp hhosted with hhosted | hhosted
    · obtain ⟨thread, hthread, hid, howner⟩ := h.source hosted hhosted source hsource
      exact ⟨_, hkept thread hthread, (id_replaced thread).trans hid, (ownerId_replaced thread).trans howner⟩
    · obtain rfl := List.mem_singleton.mp hhosted
      obtain ⟨thread, hthread, hid, howner⟩ := hcreates.source source hsource
      exact ⟨_, hkept thread hthread, (id_replaced thread).trans hid, (ownerId_replaced thread).trans howner⟩

theorem claimedBy_fields (input : CreateConnectionInput) (staged : StagedSeed) :
    (claimedBy input staged).id = staged.id ∧ (claimedBy input staged).manifest = staged.manifest ∧
      (claimedBy input staged).expiresAt = staged.expiresAt ∧ (Owns (claimedBy input staged) input ↔ Owns staged input) := by
  rw [claimedBy]
  split <;> exact ⟨rfl, rfl, rfl, Iff.rfl⟩

theorem claimedBy_of_ne (h : input.workspaceSeedId ≠ some staged.id) : claimedBy input staged = staged :=
  if_neg h

theorem Claims.mono {assignment : ExecutorAssignment}
    (h : Claims log staged assignment) (hlog : ∀ answer ∈ log, answer ∈ log') : Claims log' staged assignment := by
  obtain ⟨hclaimed, request, created, hmem, hcreated⟩ := h
  exact ⟨hclaimed, request, created, hlog _ hmem, hcreated⟩

theorem SeedsSound.unclaimed (h : SeedsSound log store) (hwrites : Writes store input workspaceId seed store')
    (hclaimable : Claimable store input staged) : staged.claimedAssignmentId = none := by
  rcases hclaimable.free with hfree | hfree
  · exact hfree
  · obtain ⟨assignment, hmem, hid, _⟩ := h.claimed staged hclaimable.stored _ hfree
    exact absurd hid (Table.find_eq_none.mp hwrites.assignmentFresh assignment hmem)

theorem SeedsSound.writes (h : SeedsSound log store)
    (hseeded : Seeded store input seed) (hwrites : Writes store input workspaceId seed store') :
    SeedsSound (log ++ [.connected request input .created]) store' := by
  have hlog : ∀ answer ∈ log, answer ∈ log ++ [.connected request input .created] :=
    fun answer hmem => List.mem_append_left _ hmem
  have hunclaimed : ∀ staged ∈ store.seeds.rows, input.workspaceSeedId = some staged.id →
      staged.claimedAssignmentId = none ∧ Claimable store input staged ∧ seed = some staged.manifest := by
    intro staged hmem hnamed
    rcases hseeded with ⟨hnone, _⟩ | ⟨other, hclaimable, rfl⟩
    · rw [hnone] at hnamed
      cases hnamed
    · have hid := hclaimable.named.symm.trans hnamed
      obtain rfl := store.seeds.eq_of_key_eq hclaimable.stored hmem (Option.some_inj.mp hid)
      exact ⟨h.unclaimed hwrites hclaimable, hclaimable, rfl⟩
  constructor
  · intro staged hmem
    rw [hwrites.seeds] at hmem
    obtain ⟨old, hold, rfl⟩ := List.mem_map.mp hmem
    obtain ⟨hid, hmanifest, _⟩ := claimedBy_fields input old
    rw [hid, hmanifest]
    exact h.named old hold
  · intro assignment hmem held hheld
    rw [hwrites.assignments] at hmem
    rw [hwrites.seeds]
    rcases List.mem_append.mp hmem with hmem | hmem
    · obtain ⟨haccepted, staged, hstaged, hid, hclaims⟩ := h.held assignment hmem held hheld
      refine ⟨haccepted, staged, List.mem_map.mpr ⟨staged, hstaged, claimedBy_of_ne fun hnamed => ?_⟩, hid, hclaims.mono hlog⟩
      have hnone := (hunclaimed staged hstaged hnamed).1
      rw [hclaims.1] at hnone
      cases hnone
    · obtain rfl := List.mem_singleton.mp hmem
      rcases hseeded with ⟨_, rfl⟩ | ⟨staged, hclaimable, rfl⟩
      · cases hheld
      · cases hheld
        obtain ⟨hid, _, hexpires, howns⟩ := claimedBy_fields input staged
        have hclaimed : (claimedBy input staged).claimedAssignmentId = some input.assignmentId := by
          rw [claimedBy, if_pos hclaimable.named]
        refine ⟨hclaimable.accepted, _, List.mem_map_of_mem hclaimable.stored, ?_, hclaimed, request, input,
          List.mem_append_right _ (List.mem_singleton_self _), rfl, rfl, ?_, howns.mpr hclaimable.owned, ?_⟩
        · rw [hid, h.named staged hclaimable.stored]
        · rw [hid]
          exact hclaimable.named
        · rw [hexpires]
          exact hclaimable.live
  · intro staged hmem assignmentId hassignment
    rw [hwrites.seeds] at hmem
    rw [hwrites.assignments]
    obtain ⟨old, hold, rfl⟩ := List.mem_map.mp hmem
    by_cases hnamed : input.workspaceSeedId = some old.id
    · obtain ⟨_, _, rfl⟩ := hunclaimed old hold hnamed
      rw [claimedBy, if_pos hnamed] at hassignment ⊢
      cases hassignment
      refine ⟨_, List.mem_append_right _ (List.mem_singleton_self _), rfl, ?_⟩
      rw [assignmentOf, Option.map_some, h.named old hold]
    · rw [claimedBy_of_ne hnamed] at hassignment ⊢
      obtain ⟨assignment, hmem, hid, hseed⟩ := h.claimed old hold assignmentId hassignment
      exact ⟨assignment, List.mem_append_left _ hmem, hid, hseed⟩

theorem SeedsSound.mono (h : SeedsSound log store) (hlog : ∀ answer ∈ log, answer ∈ log') : SeedsSound log' store := by
  refine ⟨h.named, fun assignment hmem held hheld => ?_, h.claimed⟩
  obtain ⟨haccepted, staged, hstaged, hid, hclaims⟩ := h.held assignment hmem held hheld
  exact ⟨haccepted, staged, hstaged, hid, hclaims.mono hlog⟩

theorem mem_insertNew {ρ κ : Type} [DecidableEq κ] {key : ρ → κ} {table : Table key} {row other : ρ} :
    (other ∈ (insertNew table row).rows → other ∈ table.rows ∨ other = row) ∧
      (other ∈ table.rows → other ∈ (insertNew table row).rows) := by
  rw [insertNew]
  cases hinsert : table.insert row with
  | none => exact ⟨Or.inl, id⟩
  | some table' =>
    rw [Option.getD_some, (Table.insert_eq_some.mp hinsert).2]
    refine ⟨fun hmem => ?_, fun hmem => List.mem_append_left _ hmem⟩
    rcases List.mem_append.mp hmem with hmem | hmem
    · exact .inl hmem
    · exact .inr (List.mem_singleton.mp hmem)

theorem SeedsSound.stage (h : SeedsSound log store) (staged : StagedSeed) :
    SeedsSound log (stageWorkspaceSeed store staged) := by
  rw [stageWorkspaceSeed]
  split
  · next hchecked =>
      have hnamed : staged.manifest.id = staged.id := (by simpa using hchecked : _ ∧ _).1
      constructor
      · intro other hmem
        rcases mem_insertNew.1 hmem with hmem | rfl
        · exact h.named other hmem
        · exact hnamed
      · intro assignment hmem held hheld
        obtain ⟨haccepted, other, hother, hid, hclaims⟩ := h.held assignment hmem held hheld
        exact ⟨haccepted, other, mem_insertNew.2 hother, hid, hclaims⟩
      · intro other hmem assignmentId hclaimed
        rcases mem_insertNew.1 hmem with hmem | rfl
        · exact h.claimed other hmem assignmentId hclaimed
        · cases hclaimed
  · exact h

end Soundness

section Steps

variable {s : State} {request : Nat}

variable {creating : CreateThreadInput} {log : List Answer} {answer : Answer} {existing : Connection} {requests : List Request}
    {authority : OwnerAuthority}

theorem placed_of_valid (h : creating.valid = true) (authority : OwnerAuthority) :
    Placed (existingInput creating authority) := by
  simp only [CreateThreadInput.valid, Bool.not_eq_true', Bool.or_eq_false_iff, bne_eq_false_iff_eq,
    Bool.and_eq_false_iff, decide_eq_false_iff_not] at h
  obtain ⟨⟨_, htarget⟩, hseed⟩ := h
  constructor
  · change creating.target = .runner ↔ creating.runnerTarget.isSome = true
    rw [← htarget, decide_eq_true_eq]
  · intro hrunner
    rcases hseed with hseed | hseed
    · exact absurd hrunner hseed
    · simpa [existingInput] using hseed

theorem placement_of_creationPlacement {preparation : Preparation} {placement : Placement}
    {checkout : Option RepositoryCheckout} (h : creationPlacement creating preparation = .ok (placement, checkout)) :
    decodeRunnerPlacement placement = creating.runnerTarget := by
  unfold creationPlacement at h
  split at h
  · next target htarget =>
      cases h
      exact htarget.symm
  · next hnone =>
      split at h
      · cases h
      · cases h
        exact hnone.symm

theorem RequestsSound.valid (h : RequestsSound s.requests) {phase : Phase}
    (hget : s.requests[request]? = some ⟨creating, phase⟩) (hopen : ∀ receipt, phase ≠ .ended receipt) :
    creating.valid = true := by
  rcases h _ (List.mem_of_getElem? hget) with ⟨receipt, hended⟩ | hvalid
  · exact absurd hended (hopen receipt)
  · exact hvalid

theorem RequestsSound.settle (h : RequestsSound s.requests) {creating : CreateThreadInput} {phase : Phase}
    (hget : s.requests[request]? = some ⟨creating, phase⟩) (hvalid : creating.valid = true) (phase' : Phase) :
    RequestsSound (s.settle request phase').requests := by
  intro other hmem
  obtain ⟨i, hi⟩ := List.mem_iff_getElem?.mp hmem
  rw [State.settle, List.getElem?_modify] at hi
  by_cases hrequest : request = i
  · subst hrequest
    rw [hget] at hi
    cases hi
    right
    simpa using hvalid
  · obtain ⟨old, hold, rfl⟩ := Option.map_eq_some_iff.mp hi
    rw [if_neg hrequest]
    exact h old (List.mem_of_getElem? hold)

theorem State.Sound.settle (h : s.Sound) {creating : CreateThreadInput} {phase : Phase}
    (hget : s.requests[request]? = some ⟨creating, phase⟩) (hvalid : creating.valid = true) (phase' : Phase) :
    (s.settle request phase').Sound :=
  ⟨h.requests.settle hget hvalid phase', h.log, h.recorded, h.threads, h.seeds⟩

theorem follows_of_existing (hrecorded : ∀ threadId, Recorded (connection store threadId) (createdFor log threadId))
    (hexisting : connection store answer.input.threadId = some existing) (hplaced : Placed answer.input)
    (hresult : answer.result = if compatible existing answer.input then .existing else .incompatible) :
    follows log answer = true := by
  have hrecord := hrecorded answer.input.threadId
  rw [hexisting] at hrecord
  rw [follows]
  cases hcreated : createdFor log answer.input.threadId with
  | none =>
    rw [hcreated] at hrecord
    exact hrecord.elim
  | some created =>
    rw [hcreated] at hrecord
    rw [Records.compatible hrecord hplaced] at hresult
    exact decide_eq_true hresult

theorem createdFor_eq_none (hrecorded : ∀ threadId, Recorded (connection store threadId)
    (createdFor log threadId)) {threadId : String} (hmissing : connection store threadId = none) :
    createdFor log threadId = none := by
  have hrecord := hrecorded threadId
  rw [hmissing] at hrecord
  cases hcreated : createdFor log threadId with
  | none => rfl
  | some created =>
    rw [hcreated] at hrecord
    exact hrecord.elim

theorem State.Sound.answered (h : s.Sound) (hrequests : RequestsSound requests)
    (hfollows : follows s.log answer = true) (hresult : answer.result ≠ .created) :
    State.Sound ⟨s.store, requests, s.log ++ [answer]⟩ := by
  refine ⟨hrequests, h.log.concat hfollows, fun threadId => ?_, h.threads,
    h.seeds.mono fun other hmem => List.mem_append_left _ hmem⟩
  dsimp only
  rw [createdFor_concat, createdOf_eq_none hresult, Option.or_none]
  exact h.recorded threadId

theorem result_ne_created {later : ExistingConnectionInput} {result : CreateConnectionResult}
    (h : result = if compatible existing later then .existing else .incompatible) : result ≠ .created := by
  rw [h]
  split
  · exact nofun
  · exact nofun

theorem State.Sound.created (h : s.Sound) (hrequests : RequestsSound requests)
    (hplaced : Placed input.toExistingConnectionInput)
    (hplacement : decodeRunnerPlacement input.placement = input.runnerTarget) (hcreates : Creates s.store input store') :
    State.Sound ⟨store', requests, s.log ++ [.connected request input .created]⟩ := by
  obtain ⟨workspaceId, seed, hseeded, hwrites⟩ := hcreates.written
  have hnone := createdFor_eq_none h.recorded hcreates.missing
  have hfollows : follows s.log (.connected request input .created) = true := by
    rw [follows]
    dsimp only [Answer.input]
    rw [hnone]
    rfl
  refine ⟨hrequests, h.log.concat hfollows, fun threadId => ?_, h.threads.writes hcreates hwrites,
    h.seeds.writes hseeded hwrites⟩
  dsimp only
  rw [hwrites.connection, createdFor_concat, createdOf]
  by_cases heq : threadId = input.threadId
  · rw [if_pos heq, if_pos heq.symm, heq, hnone]
    exact records_connectionOf h.seeds hplaced hplacement hseeded
  · rw [if_neg heq, if_neg (Ne.symm heq), Option.or_none]
    exact h.recorded threadId

theorem State.Sound.lookUp (h : s.Sound)
    (hget : s.requests[request]? = some ⟨creating, .authorized authority⟩) (hvalid : creating.valid = true) (fails : Bool) :
    (lookUp s request creating authority fails).Sound := by
  rw [ThreadCreation.lookUp]
  split
  · exact h.settle hget hvalid _
  · split
    · exact h.settle hget hvalid _
    · next result hresult =>
        obtain ⟨existing, hexisting, hanswer⟩ := Option.map_eq_some_iff.mp hresult
        refine h.answered (h.requests.settle hget hvalid _) ?_ (result_ne_created hanswer.symm)
        exact follows_of_existing h.recorded hexisting (placed_of_valid hvalid authority) hanswer.symm

theorem State.Sound.create (h : s.Sound)
    (hget : s.requests[request]? = some ⟨creating, .granted authority⟩) (hvalid : creating.valid = true)
    (outcome : Except ProductControlError Preparation) (fails : Failures) :
    (create s request creating authority outcome fails).Sound := by
  unfold ThreadCreation.create
  cases outcome with
  | error error => exact h.settle hget hvalid _
  | ok preparation =>
    dsimp only
    split
    · exact h.settle hget hvalid _
    · next placement checkout hplacement =>
        split
        · exact h.settle hget hvalid _
        · next store result hconnection =>
            have hplaced := placed_of_valid hvalid authority
            have hrequests := h.requests.settle hget hvalid (.ended (creationReceipt creating.threadId result))
            rcases createConnection_eq_ok hconnection with
              ⟨rfl, ⟨existing, hexisting, hresult⟩ | ⟨hmissing, hrefused⟩⟩ | ⟨rfl, hcreates⟩
            · refine h.answered hrequests ?_ (result_ne_created hresult)
              exact follows_of_existing h.recorded hexisting hplaced hresult
            · have hne : ∀ other, other = .created ∨ other = .existing ∨ other = .incompatible → result ≠ other := by
                rintro other (rfl | rfl | rfl) rfl <;> rcases hrefused with hrefused | hrefused | hrefused <;> cases hrefused
              refine h.answered hrequests ?_ (hne _ (.inl rfl))
              rw [follows]
              have hnone := createdFor_eq_none h.recorded hmissing
              dsimp only [Answer.input]
              rw [hnone]
              simp [Answer.opens, hne]
            · exact h.created hrequests hplaced (placement_of_creationPlacement hplacement) hcreates

theorem State.Sound.step (h : s.Sound) (event : Event) : (step s event).Sound := by
  cases event with
  | submit creating =>
    refine ⟨?_, h.log, h.recorded, h.threads, h.seeds⟩
    intro other hmem
    rcases List.mem_append.mp hmem with hmem | hmem
    · exact h.requests other hmem
    · obtain rfl := List.mem_singleton.mp hmem
      by_cases hvalid : creating.valid = true
      · exact .inr hvalid
      · left
        rw [if_neg hvalid]
        exact ⟨_, rfl⟩
  | authorize request outcome =>
    unfold ThreadCreation.step
    dsimp only
    split
    · next creating hget =>
        have hvalid := h.requests.valid hget (by rintro _ ⟨⟩)
        cases outcome with
        | error error | ok authority => exact h.settle hget hvalid _
    · exact h
  | lookUp request fails =>
    unfold ThreadCreation.step
    dsimp only
    split
    · next creating authority hget => exact h.lookUp hget (h.requests.valid hget (by rintro _ ⟨⟩)) fails
    · exact h
  | grant request outcome =>
    unfold ThreadCreation.step
    dsimp only
    split
    · next creating authority existing hget =>
        have hvalid := h.requests.valid hget (by rintro _ ⟨⟩)
        cases outcome with
        | error error => exact h.settle hget hvalid _
        | ok granted =>
          unfold grant
          dsimp only
          split
          · exact h.settle hget hvalid _
          · exact h.settle hget hvalid _
    · exact h
  | create request outcome fails =>
    unfold ThreadCreation.step
    dsimp only
    split
    · next creating authority hget => exact h.create hget (h.requests.valid hget (by rintro _ ⟨⟩)) outcome fails
    · exact h
  | stage staged =>
    have hsame : ∀ threadId, connection (stageWorkspaceSeed s.store staged) threadId = connection s.store threadId := by
      intro threadId
      rw [stageWorkspaceSeed]
      split <;> rfl
    have hthreads : ThreadsSound (stageWorkspaceSeed s.store staged) := by
      rw [stageWorkspaceSeed]
      split
      · exact ⟨h.threads.assigned, h.threads.threads, h.threads.archived, h.threads.source⟩
      · exact h.threads
    refine ⟨h.requests, h.log, fun threadId => ?_, hthreads, h.seeds.stage staged⟩
    change Recorded (connection (stageWorkspaceSeed s.store staged) threadId) (createdFor s.log threadId)
    rw [hsame]
    exact h.recorded threadId
  | register runner =>
    exact ⟨h.requests, h.log, h.recorded,
      ⟨h.threads.assigned, h.threads.threads, h.threads.archived, h.threads.source⟩,
      ⟨h.seeds.named, h.seeds.held, h.seeds.claimed⟩⟩

theorem sound_start : State.start.Sound where
  requests := by
    intro request hmem
    cases hmem
  log := guarded_nil
  recorded _ := trivial
  threads := by
    refine ⟨rfl, rfl, fun thread hmem => ?_, fun hosted hmem => ?_⟩
    · cases hmem
    · cases hmem
  seeds := by
    refine ⟨fun staged hmem => ?_, fun assignment hmem => ?_, fun staged hmem => ?_⟩
    · cases hmem
    · cases hmem
    · cases hmem

theorem sound_run (events : List Event) : (run events).Sound := by
  induction events using List.reverseRecOn with
  | nil => exact sound_start
  | append_singleton events event ih =>
    rw [run, List.foldl_append]
    exact ih.step event

end Steps

section Runs

variable {s : State}

/-- No thread, no assignment and no seed changes; a seed may be staged. -/
structure Unchanged (store store' : Store) : Prop where
  hostedThreads : store'.hostedThreads = store.hostedThreads
  assignments : store'.assignments = store.assignments
  threads : store'.threads = store.threads
  seeds : ∀ staged ∈ store.seeds.rows, staged ∈ store'.seeds.rows

theorem Unchanged.refl (store : Store) : Unchanged store store := ⟨rfl, rfl, rfl, fun _ hmem => hmem⟩

/-- What a step may do: it creates one thread, or answers from the store, or answers nothing. -/
inductive Stepped (s : State) : State → Prop
  | created (request : Nat) (input : CreateConnectionInput) (store' : Store) (requests : List Request)
      (hcreates : Creates s.store input store') :
      Stepped s ⟨store', requests, s.log ++ [.connected request input .created]⟩
  | answered (answer : Answer) (requests : List Request) (hresult : answer.result ≠ .created) :
      Stepped s ⟨s.store, requests, s.log ++ [answer]⟩
  | quiet (store' : Store) (requests : List Request) (hstore : Unchanged s.store store') :
      Stepped s ⟨store', requests, s.log⟩

theorem Stepped.same (requests : List Request) : Stepped s ⟨s.store, requests, s.log⟩ := .quiet _ _ (.refl _)

section

variable (request : Nat) (creating : CreateThreadInput) (authority : OwnerAuthority)

theorem stepped_lookUp (fails : Bool) : Stepped s (lookUp s request creating authority fails) := by
  rw [lookUp]
  split
  · exact .same _
  · split
    · exact .same _
    · next result hresult =>
        obtain ⟨existing, _, hanswer⟩ := Option.map_eq_some_iff.mp hresult
        exact .answered _ _ (result_ne_created hanswer.symm)

theorem stepped_create (outcome : Except ProductControlError Preparation) (fails : Failures) :
    Stepped s (create s request creating authority outcome fails) := by
  unfold create
  cases outcome with
  | error error => exact .same _
  | ok preparation =>
    dsimp only
    split
    · exact .same _
    · split
      · exact .same _
      · next store result hconnection =>
          rcases createConnection_eq_ok hconnection with
            ⟨rfl, ⟨existing, _, hresult⟩ | ⟨_, hrefused⟩⟩ | ⟨rfl, hcreates⟩
          · exact .answered _ _ (result_ne_created hresult)
          · refine .answered _ _ ?_
            rintro rfl
            rcases hrefused with hrefused | hrefused | hrefused <;> cases hrefused
          · exact .created _ _ _ _ hcreates

end

theorem stepped_step (s : State) (event : Event) : Stepped s (step s event) := by
  cases event with
  | submit creating => exact .same _
  | authorize request outcome =>
    unfold step
    dsimp only
    split
    · cases outcome with
      | error error => exact .same _
      | ok authority => exact .same _
    · exact .same _
  | lookUp request fails =>
    unfold step
    dsimp only
    split
    · exact stepped_lookUp _ _ _ _
    · exact .same _
  | grant request outcome =>
    unfold step
    dsimp only
    split
    · cases outcome with
      | error error => exact .same _
      | ok granted =>
        unfold grant
        dsimp only
        split <;> exact .same _
    · exact .same _
  | create request outcome fails =>
    unfold step
    dsimp only
    split
    · exact stepped_create _ _ _ _ _
    · exact .same _
  | stage staged =>
    refine .quiet _ _ ?_
    rw [stageWorkspaceSeed]
    split
    · exact ⟨rfl, rfl, rfl, fun other hmem => mem_insertNew.2 hmem⟩
    · exact .refl _
  | register runner => exact .quiet _ _ ⟨rfl, rfl, rfl, fun _ hmem => hmem⟩

/-- A step that creates no thread leaves threads, assignments and seeds alone. -/
def LeavesStore (s s' : State) : Prop :=
  (∃ request input, s'.log = s.log ++ [.connected request input .created]) ∨
    Unchanged s.store s'.store ∧ ∀ answer, s'.log = s.log ++ [answer] → s'.store = s.store

theorem Stepped.leavesStore {s' : State} (h : Stepped s s') : LeavesStore s s' := by
  cases h with
  | created request input store' requests hcreates => exact .inl ⟨request, input, rfl⟩
  | answered answer requests hresult => exact .inr ⟨.refl _, fun _ _ => rfl⟩
  | quiet store' requests hstore =>
    refine .inr ⟨hstore, fun answer hlog => ?_⟩
    exact absurd hlog (by simp)

/-- The creation of a thread is the only one, and what it answers for later. -/
structure Once (s : State) (before after : List Answer) (created : CreateConnectionInput) : Prop where
  opens : ∀ other ∈ before, other.input.threadId = created.threadId → other.opens = true ∧ other.result ≠ .created
  later : ∀ later ∈ after, later.input.threadId = created.threadId →
    later.result = verdict created.toExistingConnectionInput later.input
  found : ∀ later, Placed later → later.threadId = created.threadId →
    existingConnection s.store later = some (verdict created.toExistingConnectionInput later)
  connected : ∀ fails (later : CreateConnectionInput), Placed later.toExistingConnectionInput →
    later.threadId = created.threadId →
      createConnection fails s.store later =
        if later.archiveThreadId = some later.threadId then
          failure .conflict "A replacement Thread cannot archive itself"
        else if fails .lock || fails .readExisting then unavailable
        else .ok (s.store, verdict created.toExistingConnectionInput later.toExistingConnectionInput)

variable {before after : List Answer} {created : CreateConnectionInput} {request : Nat} {hosted : HostedThread}

theorem createdFor_append_of_some {threadId : String}
    (h : createdFor before threadId = some created) : createdFor (before ++ after) threadId = some created := by
  rw [createdFor, List.findSome?_append]
  rw [createdFor] at h
  rw [h, Option.some_or]

theorem verdict_ne_created (created later : ExistingConnectionInput) : verdict created later ≠ .created := by
  rw [verdict]
  split
  · exact nofun
  · exact nofun

theorem State.Sound.once (h : s.Sound)
    (hlog : s.log = before ++ .connected request created .created :: after) : Once s before after created := by
  have hguarded := h.log
  rw [hlog] at hguarded
  have hnone : createdFor before created.threadId = none := by
    have hfollows := hguarded.split
    rw [follows] at hfollows
    dsimp only [Answer.input, Answer.result] at hfollows
    cases hcreated : createdFor before created.threadId with
    | none => rfl
    | some other =>
      rw [hcreated] at hfollows
      exact absurd (of_decide_eq_true hfollows).symm (verdict_ne_created _ _)
  have hcreated : createdFor (before ++ [.connected request created .created]) created.threadId = some created := by
    rw [createdFor_concat, hnone, createdOf, if_pos rfl, Option.none_or]
  have hconnection : ∃ existing, connection s.store created.threadId = some existing ∧
      Records existing created.toExistingConnectionInput := by
    have hrecord := h.recorded created.threadId
    rw [hlog, List.append_cons, createdFor_append_of_some hcreated] at hrecord
    cases hexisting : connection s.store created.threadId with
    | none =>
      rw [hexisting] at hrecord
      exact hrecord.elim
    | some existing =>
      rw [hexisting] at hrecord
      exact ⟨existing, rfl, hrecord⟩
  obtain ⟨existing, hexisting, hrecords⟩ := hconnection
  constructor
  · intro other hmem hthread
    obtain ⟨first, second, rfl⟩ := List.append_of_mem hmem
    rw [List.append_assoc] at hguarded
    have hfollows := hguarded.split
    have hfirst : createdFor first created.threadId = none := by
      cases hfirst : createdFor first created.threadId with
      | none => rfl
      | some earlier =>
        rw [createdFor_append_of_some hfirst] at hnone
        cases hnone
    rw [follows, hthread, hfirst] at hfollows
    refine ⟨hfollows, fun hresult => ?_⟩
    cases other with
    | found request input result => cases hfollows
    | connected request input result =>
      cases hresult
      have hsome := isSome_createdFor hmem
      have hid : input.threadId = created.threadId := hthread
      rw [hid, hnone] at hsome
      cases hsome
  · intro later hmem hthread
    obtain ⟨first, second, rfl⟩ := List.append_of_mem hmem
    rw [List.append_cons, ← List.append_assoc] at hguarded
    have hfollows := hguarded.split
    rw [follows, hthread, createdFor_append_of_some hcreated] at hfollows
    exact of_decide_eq_true hfollows
  · intro later hplaced hthread
    rw [existingConnection, hthread, hexisting, Option.map_some, hrecords.compatible hplaced]
    rfl
  · intro fails later hplaced hthread
    rw [createConnection]
    split
    · rfl
    · cases hlock : fails .lock with
      | true => simp [execute, hlock, unavailable, failure, bind, Except.bind]
      | false =>
        cases hread : fails .readExisting with
        | true => simp [execute, hlock, hread, unavailable, failure, bind, Except.bind]
        | false =>
          rw [hthread, hexisting]
          simp [execute, hlock, hread, compatibleAgain_eq, hrecords.compatible hplaced, verdict, bind, Except.bind,
            pure, Except.pure]

/-- A thread is there with its one assignment exactly when it was created. -/
structure OneEach (s : State) : Prop where
  threads : (s.store.hostedThreads.rows.map (·.id)).Nodup
  assignments : (s.store.assignments.rows.map (·.threadId)).Nodup
  assigned : ∀ threadId, threadId ∈ s.store.assignments.rows.map (·.threadId) ↔
    threadId ∈ s.store.hostedThreads.rows.map (·.id)
  created : ∀ threadId, threadId ∈ s.store.hostedThreads.rows.map (·.id) ↔
    ∃ request input, .connected request input .created ∈ s.log ∧ input.threadId = threadId

structure SeedsOnce (s : State) : Prop where
  held : ∀ assignment ∈ s.store.assignments.rows, ∀ seed, assignment.workspaceSeed = some seed →
    ∃ staged ∈ s.store.seeds.rows, staged.id = seed.id ∧ Claims s.log staged assignment
  once : ∀ assignment ∈ s.store.assignments.rows, ∀ other ∈ s.store.assignments.rows, ∀ seed otherSeed,
    assignment.workspaceSeed = some seed → other.workspaceSeed = some otherSeed → seed.id = otherSeed.id →
      assignment = other
  claimed : ∀ staged ∈ s.store.seeds.rows, ∀ assignmentId, staged.claimedAssignmentId = some assignmentId →
    ∃ assignment ∈ s.store.assignments.rows, assignment.id = assignmentId ∧
      assignment.workspaceSeed.map (·.id) = some staged.id

/-- A thread is archived exactly when another was created in its place. -/
structure ArchivedOnce (s : State) : Prop where
  archived : ∀ thread ∈ s.store.threads.rows, thread.archived = true ↔
    ∃ request input, .connected request input .created ∈ s.log ∧ input.archiveThreadId = some thread.id
  source : ∀ request input, .connected request input .created ∈ s.log → ∀ source, input.archiveThreadId = some source →
    ∃ thread ∈ s.store.threads.rows, thread.id = source ∧ thread.ownerId = input.authority.ownerId

theorem ThreadsSound.connection (h : ThreadsSound store) (hmem : hosted ∈ store.hostedThreads.rows) :
    ∃ existing, connection store hosted.id = some existing ∧
      existing.archiveSourceThreadId = hosted.archiveSourceThreadId ∧ existing.ownerId = hosted.ownerId := by
  rw [ThreadCreation.connection, Table.find_key hmem]
  have hassigned : hosted.id ∈ store.assignments.rows.map (·.threadId) := by
    rw [h.assigned]
    exact List.mem_map_of_mem hmem
  obtain ⟨assignment, hassignment, hthread⟩ := List.mem_map.mp hassigned
  dsimp only
  cases hfind : store.assignments.rows.find? fun assignment => assignment.threadId = hosted.id with
  | none => exact absurd (decide_eq_true hthread) (List.find?_eq_none.mp hfind assignment hassignment)
  | some found => exact ⟨_, rfl, rfl, rfl⟩

theorem State.Sound.creation (h : s.Sound) (hmem : hosted ∈ s.store.hostedThreads.rows) :
    ∃ request input, .connected request input .created ∈ s.log ∧ input.threadId = hosted.id ∧
      input.archiveThreadId = hosted.archiveSourceThreadId := by
  obtain ⟨existing, hexisting, harchive, _⟩ := h.threads.connection hmem
  have hrecord := h.recorded hosted.id
  rw [hexisting] at hrecord
  cases hcreated : createdFor s.log hosted.id with
  | none =>
    rw [hcreated] at hrecord
    exact hrecord.elim
  | some created =>
    rw [hcreated] at hrecord
    obtain ⟨hthread, request, hlog⟩ := exists_of_createdFor hcreated
    exact ⟨request, created, hlog, hthread, (Records.archive hrecord).symm.trans harchive⟩

theorem State.Sound.row (h : s.Sound) {input : CreateConnectionInput} (hlog : .connected request input .created ∈ s.log) :
    ∃ hosted ∈ s.store.hostedThreads.rows, hosted.id = input.threadId ∧
      hosted.archiveSourceThreadId = input.archiveThreadId ∧ hosted.ownerId = input.authority.ownerId := by
  obtain ⟨before, after, hsplit⟩ := List.append_of_mem hlog
  have hrecord := h.recorded input.threadId
  have honce := h.once hsplit
  have hnone : createdFor before input.threadId = none := by
    cases hcreated : createdFor before input.threadId with
    | none => rfl
    | some other =>
      obtain ⟨hthread, otherRequest, hmem⟩ := exists_of_createdFor hcreated
      exact absurd rfl (honce.opens _ hmem hthread).2
  have hcreated : createdFor s.log input.threadId = some input := by
    rw [hsplit, List.append_cons]
    refine createdFor_append_of_some ?_
    rw [createdFor_concat, hnone, createdOf, if_pos rfl, Option.none_or]
  rw [hcreated] at hrecord
  cases hexisting : connection s.store input.threadId with
  | none =>
    rw [hexisting] at hrecord
    exact hrecord.elim
  | some existing =>
    rw [hexisting] at hrecord
    rw [ThreadCreation.connection] at hexisting
    cases hfind : s.store.hostedThreads.find input.threadId with
    | none =>
      rw [hfind] at hexisting
      cases hexisting
    | some hosted =>
      rw [hfind] at hexisting
      obtain ⟨assignment, _, rfl⟩ := Option.map_eq_some_iff.mp hexisting
      exact ⟨hosted, Table.mem_of_find hfind, Table.key_of_find hfind, Records.archive hrecord, Records.owner hrecord⟩

theorem State.Sound.oneEach (h : s.Sound) : OneEach s := by
  refine ⟨s.store.hostedThreads.unique, ?_, fun threadId => ?_, fun threadId => ?_⟩
  · rw [h.threads.assigned]
    exact s.store.hostedThreads.unique
  · rw [h.threads.assigned]
  · constructor
    · intro hmem
      obtain ⟨hosted, hhosted, rfl⟩ := List.mem_map.mp hmem
      obtain ⟨request, input, hlog, hthread, _⟩ := h.creation hhosted
      exact ⟨request, input, hlog, hthread⟩
    · rintro ⟨request, input, hlog, rfl⟩
      obtain ⟨hosted, hhosted, hid, _⟩ := h.row hlog
      exact List.mem_map.mpr ⟨hosted, hhosted, hid⟩

theorem State.Sound.seedsOnce (h : s.Sound) : SeedsOnce s := by
  refine ⟨fun assignment hmem seed hseed => (h.seeds.held assignment hmem seed hseed).2, ?_, h.seeds.claimed⟩
  intro assignment hmem other hother seed otherSeed hseed hotherSeed hid
  obtain ⟨_, staged, hstaged, hstagedId, hclaims⟩ := h.seeds.held assignment hmem seed hseed
  obtain ⟨_, staged', hstaged', hstagedId', hclaims'⟩ := h.seeds.held other hother otherSeed hotherSeed
  have hsame : staged = staged' :=
    s.store.seeds.eq_of_key_eq hstaged hstaged' (hstagedId.trans (hid.trans hstagedId'.symm))
  rw [← hsame, Claims, hclaims.1] at hclaims'
  exact s.store.assignments.eq_of_key_eq hmem hother (Option.some_inj.mp hclaims'.1)

theorem State.Sound.archivedOnce (h : s.Sound) : ArchivedOnce s := by
  constructor
  · intro thread hmem
    rw [h.threads.archived thread hmem]
    constructor
    · rintro ⟨hosted, hhosted, hsource⟩
      obtain ⟨request, input, hlog, _, harchive⟩ := h.creation hhosted
      exact ⟨request, input, hlog, harchive.trans hsource⟩
    · rintro ⟨request, input, hlog, hsource⟩
      obtain ⟨hosted, hhosted, _, harchive, _⟩ := h.row hlog
      exact ⟨hosted, hhosted, harchive.trans hsource⟩
  · intro request input hlog source hsource
    obtain ⟨hosted, hhosted, _, harchive, howner⟩ := h.row hlog
    obtain ⟨thread, hthread, hid, hthreadOwner⟩ := h.threads.source hosted hhosted source (harchive.trans hsource)
    exact ⟨thread, hthread, hid, hthreadOwner.trans howner⟩

/-- However requests are repeated and interleaved, a thread is created once and as a whole. -/
theorem creation_idempotent (events : List Event) : OneEach (run events) ∧
      (∀ before request created after, (run events).log = before ++ .connected request created .created :: after →
        Once (run events) before after created) ∧
      (∀ event, LeavesStore (run events) (run (events ++ [event]))) ∧ SeedsOnce (run events) ∧
      ArchivedOnce (run events) := by
  have hsound := sound_run events
  refine ⟨hsound.oneEach, fun before request created after hlog => hsound.once hlog, fun event => ?_, hsound.seedsOnce,
    hsound.archivedOnce⟩
  rw [run, run, List.foldl_append]
  exact (stepped_step _ event).leavesStore

end Runs

end Rika.ThreadCreation
