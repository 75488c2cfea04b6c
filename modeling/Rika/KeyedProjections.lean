import Rika.ThreadClient

namespace Rika

open Projection

namespace Projection

theorem sessionId_applyConnectionEvent (state : ProjectionState) (event : ConnectionEvent) :
    (applyConnectionEvent state event).state.sessionId = state.sessionId := by
  cases event with
  | connectionSnapshot epoch snapshot =>
    rw [applyConnectionEvent, applyConnectionSnapshot]
    split
    · rfl
    · split <;> rfl
  | committed sessionId cursor body =>
    rw [applyConnectionEvent]
    split
    · rfl
    · rw [applyCommitted]
      split
      · rfl
      · split
        · rfl
        · split <;> rfl
  | previewDelivery delivery =>
    rw [applyConnectionEvent, applyPreview]
    split
    · rfl
    · split
      · rw [applyModelPreview]
        split
        · rfl
        · split
          · rfl
          · split <;> rfl
      · rw [applyModelPreviewCleared]
        split <;> rfl

theorem sessionId_applyConnectionStatus (state : ProjectionState) (status : ConnectionStatus) :
    (applyConnectionStatus state status).sessionId = state.sessionId := by
  cases status <;> rfl

end Projection

namespace ThreadClient

variable {client client' : ThreadClient} {targetForThread : ThreadMetadata → Option Target}

def Continuation.OpensOwn : Continuation → Prop
  | .stopping _ (.openChildSession sessionId _ projection _ _ _) => projection.sessionId = sessionId
  | _ => True

/-- Projections are recorded under their own session, and the one shown is recorded. -/
structure Keyed (client : ThreadClient) : Prop where
  cached : ∀ sessionId cached, client.sessionProjections.get sessionId = some cached →
    cached.projection.sessionId = sessionId
  shown : ∀ projection, client.current.projection = some projection →
    (client.sessionProjections.get projection.sessionId).isSome = true
  opening : ∀ continuation ∈ client.pending, continuation.OpensOwn

section

variable (h : Keyed client)

include h

theorem Keyed.of_frame (hcache : client'.sessionProjections = client.sessionProjections)
    (hshown : client'.current.projection = client.current.projection)
    (hpending : ∀ continuation ∈ client'.pending, continuation ∈ client.pending ∨ continuation.OpensOwn) :
    Keyed client' := by
  constructor
  · rw [hcache]
    exact h.cached
  · rw [hcache, hshown]
    exact h.shown
  · intro continuation hmem
    exact (hpending continuation hmem).elim (h.opening continuation) id

theorem Keyed.await (hcache : client'.sessionProjections = client.sessionProjections)
    (hshown : client'.current.projection = client.current.projection) {continuation : Continuation}
    (hpending : client'.pending = client.pending ++ [continuation]) (hopens : continuation.OpensOwn) :
    Keyed client' := by
  apply h.of_frame hcache hshown
  intro other hmem
  rw [hpending, List.mem_append, List.mem_singleton] at hmem
  rcases hmem with hmem | rfl
  · exact .inl hmem
  · exact .inr hopens

theorem Keyed.publish {next : ThreadClientState}
    (hnext : ∀ projection, next.projection = some projection →
      (client.sessionProjections.get projection.sessionId).isSome = true) : Keyed (client.publish next) := by
  rw [ThreadClient.publish]
  split
  · exact h
  · exact ⟨h.cached, hnext, h.opening⟩

theorem Keyed.set (execution : ExecutionClient) (projection : ProjectionState) : Keyed { client with
      sessionProjections := client.sessionProjections.set projection.sessionId ⟨execution, projection⟩ } := by
  constructor
  · intro sessionId cached hcached
    rw [InsertionMap.get_set] at hcached
    split at hcached
    · next hsame =>
        cases hcached
        exact hsame.symm
    · exact h.cached sessionId cached hcached
  · intro shown hshown
    rw [InsertionMap.get_set]
    split
    · rfl
    · exact h.shown shown hshown
  · exact h.opening

theorem Keyed.cacheProjection (execution : Option ExecutionClient) (projection : ProjectionState) :
    Keyed (client.cacheProjection execution projection) := by
  cases execution with
  | none => exact h
  | some execution => exact h.set execution projection

end

variable {projection : ProjectionState} {sessionId : String} {next : AfterStop} {epoch : Nat}

theorem isSome_get_cacheProjection {execution : Option ExecutionClient}
    (h : execution.isSome = true ∨ (client.sessionProjections.get projection.sessionId).isSome = true) :
    ((client.cacheProjection execution projection).sessionProjections.get projection.sessionId).isSome = true := by
  cases execution with
  | none => exact h.resolve_left (by simp)
  | some execution =>
    rw [ThreadClient.cacheProjection, InsertionMap.get_set, if_pos rfl]
    rfl

section

variable (h : Keyed client)

include h

theorem Keyed.updateProjection (hcached : client.selectedExecution.isSome = true ∨
      (client.sessionProjections.get projection.sessionId).isSome = true) :
    Keyed (client.updateProjection projection) := by
  rw [ThreadClient.updateProjection]
  apply (h.cacheProjection _ _).publish
  intro shown hshown
  cases hshown
  exact isSome_get_cacheProjection hcached

theorem Keyed.isSome_cached {cached : CachedProjection}
    (hcached : client.sessionProjections.get sessionId = some cached) :
    (client.sessionProjections.get cached.projection.sessionId).isSome = true := by
  rw [h.cached sessionId cached hcached, hcached]
  rfl

theorem Keyed.recorded (sessionId : String) :
    client.recorded sessionId = (client.sessionProjections.get sessionId).map (·.projection) := by
  rw [ThreadClient.recorded]
  cases hcached : client.sessionProjections.get sessionId with
  | some cached => rfl
  | none =>
    rw [Option.map_none, Option.none_or, shownProjection, Option.filter_eq_none_iff]
    intro projection hshown hsession
    have hsome := h.shown projection hshown
    rw [of_decide_eq_true hsession, hcached] at hsome
    cases hsome

theorem Keyed.setPhase (phase : FiberPhase) (fiber : Nat) : Keyed (client.setPhase phase fiber) :=
  h.of_frame rfl rfl fun _ => .inl

theorem Keyed.endFiber (phase : FiberPhase) (fiber : Nat) : Keyed (client.endFiber phase fiber) := by
  rw [ThreadClient.endFiber]
  split
  · exact h.of_frame rfl rfl fun continuation hmem => .inl (List.mem_filter.mp hmem).1
  · exact h.setPhase phase fiber

theorem Keyed.takeConnections (sessionId : Option String) :
    Keyed (client.takeConnections sessionId).2 := by
  rw [ThreadClient.takeConnections]
  exact List.foldlRecOn (motive := Keyed) _ _ (h.of_frame rfl rfl fun _ => .inl) fun _ hkeyed fiber _ =>
    hkeyed.setPhase .stopping fiber

theorem Keyed.connectForSelection (sessionId : String) (epoch : Nat) :
    Keyed (client.connectForSelection sessionId epoch) := by
  rw [ThreadClient.connectForSelection]
  split
  · exact h.of_frame rfl rfl fun _ => .inl
  · exact h.of_frame rfl rfl fun _ => .inl

theorem Keyed.finishOpenChild (root : CachedProjection) (hopens : projection.sessionId = sessionId)
    (epoch : Nat) :
    Keyed (client.finishOpenChild sessionId root projection epoch) := by
  subst hopens
  rw [ThreadClient.finishOpenChild]
  apply Keyed.connectForSelection
  have hcached : Keyed { client with
      sessionProjections := client.sessionProjections.set projection.sessionId ⟨root.execution, projection⟩
      focusedSessionId := some projection.sessionId } := (h.set root.execution projection).of_frame rfl rfl fun _ => .inl
  have hupdated := hcached.updateProjection (.inr (by rw [InsertionMap.get_set, if_pos rfl]; rfl))
  exact hupdated.publish hupdated.shown

theorem Keyed.forgetConnected (sessionId : String) : Keyed (client.forgetConnected sessionId) :=
  h.of_frame rfl rfl fun _ => .inl

theorem Keyed.finishBack : Keyed client.finishBack := by
  rw [ThreadClient.finishBack]
  split
  · exact h
  · next root hroot =>
      obtain ⟨family, -, hcached⟩ := Option.bind_eq_some_iff.mp hroot
      have hunfocused : Keyed { client with focusedSessionId := none } := h.of_frame rfl rfl fun _ => .inl
      have hupdated := hunfocused.updateProjection (.inr (h.isSome_cached hcached))
      exact hupdated.publish hupdated.shown

theorem Keyed.afterStop (hopens : (Continuation.stopping [] next).OpensOwn) :
    Keyed (client.afterStop next) := by
  cases next with
  | selectThread threadId epoch =>
    rw [ThreadClient.afterStop]
    split
    · exact h
    · exact h.await rfl rfl rfl trivial
  | openChildSession sessionId root projection previous epoch openSerial =>
    exact (h.forgetConnected previous).finishOpenChild root hopens epoch
  | backToThread previous epoch openSerial => exact (h.forgetConnected previous).finishBack
  | dispose => exact List.foldlRecOn (motive := Keyed) _ _ h fun _ hkeyed fiber _ => hkeyed.endFiber .interrupted fiber

theorem Keyed.interruptNext (fibers : List Nat)
    (hopens : (Continuation.stopping [] next).OpensOwn) : Keyed (client.interruptNext fibers next) := by
  cases fibers with
  | nil => exact h.afterStop hopens
  | cons fiber fibers =>
    refine (h.endFiber .interrupted fiber).await rfl rfl rfl ?_
    cases next <;> exact hopens

theorem Keyed.stopConnection (sessionId : Option String)
    (hopens : (Continuation.stopping [] next).OpensOwn) : Keyed (client.stopConnection sessionId next) :=
  (h.takeConnections sessionId).interruptNext _ hopens

theorem Keyed.selectThread (threadId : String) : Keyed (client.selectThread threadId) := by
  rw [ThreadClient.selectThread]
  split
  · exact h
  · next hopen =>
      refine Keyed.stopConnection ?_ _ ?_
      · rw [ThreadClient.publish]
        split
        · next hclosed => exact absurd hclosed hopen
        · exact ⟨by rintro sessionId cached ⟨⟩, by rintro projection ⟨⟩, h.opening⟩
      · trivial

end

theorem updateProjection_of_open (hopen : client.disposed = false) {execution : ExecutionClient}
    (hexecution : client.selectedExecution = some execution) (projection : ProjectionState) :
    (client.updateProjection projection).current.projection = some projection ∧
      (client.updateProjection projection).sessionProjections =
        client.sessionProjections.set projection.sessionId ⟨execution, projection⟩ ∧
      (client.updateProjection projection).pending = client.pending := by
  simp [updateProjection, publish, cacheProjection, hexecution, hopen]

section

variable (h : Keyed client)

include h

theorem Keyed.finishSelect (hopen : client.disposed = false) (threadId : String) (epoch : Nat)
    (metadata : ThreadMetadata) (execution : ExecutionClient) (sessionId : String) (snapshot : HostSessionSnapshot)
    (page : FamilyPage) :
    Keyed (client.finishSelect targetForThread threadId epoch metadata execution sessionId snapshot page) := by
  rw [ThreadClient.finishSelect]
  apply Keyed.connectForSelection
  generalize hprojection : projectSnapshot _ = projection
  have hsession : projection.sessionId = sessionId := by rw [← hprojection, projectSnapshot]
  generalize hcached : ({ client.setRootFamily _ with
    selectedExecution := some execution
    sessionProjections := InsertionMap.empty.set sessionId ⟨execution, projection⟩ } : ThreadClient) = cached
  have hselected : cached.selectedExecution = some execution := by rw [← hcached]
  have hopen' : cached.disposed = false := by rw [← hcached]; exact hopen
  have hpending' : cached.pending = client.pending := by rw [← hcached]; rfl
  obtain ⟨hshown, hcache, hpending⟩ := updateProjection_of_open hopen' hselected projection
  have hupdated : Keyed (cached.updateProjection projection) := by
    constructor
    · intro other entry hentry
      rw [hcache, ← hcached, InsertionMap.get_set, InsertionMap.get_set] at hentry
      split at hentry
      · next hsame =>
          cases hentry
          exact hsame.symm
      · next hother =>
          rw [if_neg (hsession ▸ hother)] at hentry
          cases hentry
    · intro other hother
      rw [hshown] at hother
      cases hother
      rw [hcache, InsertionMap.get_set, if_pos rfl]
      rfl
    · rw [hpending, hpending']
      exact h.opening
  exact hupdated.publish hupdated.shown

theorem Keyed.continueOpenChild (root : CachedProjection) (hopens : projection.sessionId = sessionId)
    (familySerial epoch openSerial : Nat) :
    Keyed (client.continueOpenChild sessionId root projection familySerial epoch openSerial) := by
  rw [ThreadClient.continueOpenChild]
  split
  · exact h
  · split
    · exact h.stopConnection _ hopens
    · exact h.finishOpenChild root hopens epoch

theorem Keyed.openChildSession (sessionId : String) : Keyed (client.openChildSession sessionId) := by
  rw [ThreadClient.openChildSession]
  split
  · exact h
  · split
    · exact h
    · split
      · exact h
      · split
        · exact h
        · have hopening : Keyed { client with childOpenSerial := client.childOpenSerial + 1 } :=
            h.of_frame rfl rfl fun _ => .inl
          split
          · next cached hcached => exact hopening.continueOpenChild _ (h.cached sessionId cached hcached) _ _ _
          · exact h.await rfl rfl rfl trivial

theorem Keyed.backToThread : Keyed client.backToThread := by
  rw [ThreadClient.backToThread]
  split
  · exact h
  · have hback : Keyed { client with childOpenSerial := client.childOpenSerial + 1 } :=
      h.of_frame rfl rfl fun _ => .inl
    exact hback.stopConnection _ trivial

theorem Keyed.loadOlder : Keyed client.loadOlder := by
  rw [ThreadClient.loadOlder]
  split
  · split
    · exact h
    · split
      · exact h
      · exact h.await rfl rfl rfl trivial
  · exact h

theorem Keyed.loadMoreCollaborators : Keyed client.loadMoreCollaborators := by
  rw [ThreadClient.loadMoreCollaborators]
  split
  · exact h
  · split
    · exact h
    · exact h.await rfl rfl rfl trivial

end

theorem shownProjection_eq_some (h : client.shownProjection sessionId = some projection) :
    client.current.projection = some projection ∧ projection.sessionId = sessionId := by
  obtain ⟨hshown, hsession⟩ := Option.filter_eq_some_iff.mp h
  exact ⟨hshown, of_decide_eq_true hsession⟩

theorem historyTarget_eq_some {nextLeafId : String} {page : HistoryPage}
    (h : client.historyTarget epoch sessionId nextLeafId page = some projection) :
    client.current.projection = some projection ∧ projection.sessionId = sessionId := by
  rw [historyTarget] at h
  split at h
  · exact shownProjection_eq_some (Option.filter_eq_some_iff.mp h).1
  · cases h

section

variable (h : Keyed client)

include h

theorem Keyed.finishLoadOlder (epoch : Nat) (sessionId nextLeafId : String) (page : HistoryPage) :
    Keyed (client.finishLoadOlder epoch sessionId nextLeafId page) := by
  rw [ThreadClient.finishLoadOlder]
  split
  · exact h
  · next projection htarget => exact h.updateProjection (.inr (h.shown projection (historyTarget_eq_some htarget).1))

theorem Keyed.setRootFamily (family : Option FamilyProjection) :
    Keyed (client.setRootFamily family) := h.of_frame rfl rfl fun _ => .inl

theorem Keyed.finishLoadMore (epoch : Nat) (page : FamilyPage) :
    Keyed (client.finishLoadMore epoch page) := by
  rw [ThreadClient.finishLoadMore]
  split
  · exact h
  · split
    · exact h
    · next previous _ =>
        have hnext := h.setRootFamily (some (familyProjection page (some previous) true))
        dsimp only
        split
        · exact hnext
        · next cached _ =>
            have hstored := hnext.set cached.execution
              (reproject cached.projection cached.projection.snapshot (some (familyProjection page (some previous) true)))
            split
            · refine hstored.updateProjection (.inr ?_)
              rw [InsertionMap.get_set, if_pos rfl]
              rfl
            · exact hstored

theorem Keyed.rebuildProjections (family : FamilyProjection) :
    Keyed (client.rebuildProjections family) := by
  constructor
  · intro sessionId cached hcached
    rw [ThreadClient.rebuildProjections, InsertionMap.get_mapValues] at hcached
    obtain ⟨before, hbefore, rfl⟩ := Option.map_eq_some_iff.mp hcached
    exact h.cached sessionId before hbefore
  · intro projection hshown
    rw [ThreadClient.rebuildProjections, InsertionMap.get_mapValues, Option.isSome_map]
    exact h.shown projection hshown
  · exact h.opening

theorem Keyed.finishRefreshFamily (epoch : Nat) (page : FamilyPage) :
    Keyed (client.finishRefreshFamily epoch page) := by
  rw [ThreadClient.finishRefreshFamily]
  split
  · exact h
  · generalize familyProjection page client.rootFamily false = family
    have hrebuilt := h.rebuildProjections family
    dsimp only
    split
    · exact hrebuilt.publish hrebuilt.shown
    · next active hactive =>
        have hupdated := hrebuilt.updateProjection (.inr (hrebuilt.isSome_cached hactive))
        exact hupdated.publish hupdated.shown

end

theorem stands_eq_true : client.stands epoch = true ↔ client.disposed = false ∧ epoch = client.current.selectionEpoch := by
  simp [stands]

section

variable (h : Keyed client)

include h

theorem Keyed.resume {continuation : Continuation} (hopens : continuation.OpensOwn) (answer : Answer) :
    Keyed (client.resume targetForThread continuation answer) := by
  unfold ThreadClient.resume
  split
  · next fibers next =>
      apply h.interruptNext
      cases next <;> exact hopens
  · split
    · exact h.await rfl rfl rfl trivial
    · exact h
  · split
    · exact h.await rfl rfl rfl trivial
    · exact h
  · split
    · exact h.await rfl rfl rfl trivial
    · exact h
  · exact h.await rfl rfl rfl trivial
  · split
    · next hstands =>
        exact h.finishSelect (stands_eq_true.mp hstands).1 _ _ _ _ _ _ _
    · exact h
  · apply h.continueOpenChild
    rfl
  · exact (h.finishLoadOlder _ _ _ _).of_frame rfl rfl fun _ => .inl
  · exact h.of_frame rfl rfl fun _ => .inl
  · exact (h.finishLoadMore _ _).of_frame rfl rfl fun _ => .inl
  · exact h.of_frame rfl rfl fun _ => .inl
  · exact (h.finishRefreshFamily _ _).of_frame rfl rfl fun _ => .inl
  · have hreleased : Keyed { client with familyInFlight := false } := h.of_frame rfl rfl fun _ => .inl
    dsimp only
    split
    · exact hreleased.publish hreleased.shown
    · exact hreleased
  · exact h.of_frame rfl rfl fun _ => .inl
  · exact h

theorem recorded_sessionId
    (hrecorded : client.recorded sessionId = some projection) : projection.sessionId = sessionId := by
  rw [h.recorded] at hrecorded
  obtain ⟨cached, hcached, rfl⟩ := Option.map_eq_some_iff.mp hrecorded
  exact h.cached sessionId cached hcached

theorem Keyed.storeProjection {next : ProjectionState}
    (hsession : next.sessionId = sessionId) : Keyed (client.storeProjection sessionId next) := by
  subst hsession
  rw [ThreadClient.storeProjection]
  split
  · exact h
  · next execution _ => exact h.set execution next

theorem get_storeProjection
    (hrecorded : client.recorded sessionId = some projection) (next : ProjectionState) (other : String) :
    ((client.storeProjection sessionId next).sessionProjections.get other).map (·.projection) =
      if other = sessionId then some next else (client.sessionProjections.get other).map (·.projection) := by
  rw [h.recorded] at hrecorded
  obtain ⟨cached, hcached, rfl⟩ := Option.map_eq_some_iff.mp hrecorded
  rw [ThreadClient.storeProjection, hcached, Option.map_some, Option.some_or]
  dsimp only
  rw [InsertionMap.get_set]
  split <;> rfl

theorem isSome_get_storeProjection
    (hrecorded : client.recorded sessionId = some projection) (next : ProjectionState) :
    ((client.storeProjection sessionId next).sessionProjections.get sessionId).isSome = true := by
  have hget := get_storeProjection h hrecorded next sessionId
  rw [if_pos rfl] at hget
  rw [← Option.isSome_map, hget]
  rfl

theorem Keyed.observeEvent (event : ConnectionEvent) (epoch : Nat) :
    Keyed (client.observeEvent event epoch) := by
  rw [ThreadClient.observeEvent]
  split
  · exact h
  · dsimp only
    split
    · exact h
    · next projection hrecorded =>
        have hsession : (applyConnectionEvent projection event).state.sessionId = eventSessionId event :=
          (sessionId_applyConnectionEvent _ _).trans (recorded_sessionId h hrecorded)
        have hstored := h.storeProjection hsession
        have hisSome := isSome_get_storeProjection h hrecorded (applyConnectionEvent projection event).state
        split
        · exact hstored
        · generalize applyConnectionEvent projection event = result at hsession hstored hisSome
          cases result with
          | rejected next reason =>
            apply hstored.publish
            intro shown hshown
            cases hshown
            rw [← hsession] at hisSome ⊢
            exact hisSome
          | applied next | ignored next =>
            rw [← hsession] at hstored hisSome ⊢
            exact hstored.updateProjection (.inr hisSome)

theorem Keyed.startRefreshFamily (fiber epoch : Nat) :
    Keyed (client.startRefreshFamily fiber epoch) := by
  rw [ThreadClient.startRefreshFamily]
  split
  · exact h
  · exact h.await rfl rfl rfl trivial

theorem Keyed.observeStatus (status : ConnectionStatus) (fiber epoch : Nat) (sessionId : String) :
    Keyed (client.observeStatus status fiber epoch sessionId) := by
  rw [ThreadClient.observeStatus]
  split
  · exact h
  · dsimp only
    generalize hpublished : ThreadClient.publish _ _ = published
    have hkeyed : Keyed published := by
      rw [← hpublished]
      cases hrecorded : client.recorded sessionId with
      | none => exact h.publish h.shown
      | some projection =>
        have hsession : (applyConnectionStatus projection status).sessionId = sessionId :=
          (sessionId_applyConnectionStatus _ _).trans (recorded_sessionId h hrecorded)
        have hstored := h.storeProjection hsession
        have hisSome := isSome_get_storeProjection h hrecorded (applyConnectionStatus projection status)
        rw [Option.map_some, Option.elim_some]
        apply hstored.publish
        intro shown hshown
        rcases Option.or_eq_some_iff.mp hshown with hnext | ⟨-, hcurrent⟩
        · obtain ⟨hsame, -⟩ := Option.filter_eq_some_iff.mp hnext
          cases hsame
          rw [hsession]
          exact hisSome
        · have hbefore := h.shown shown hcurrent
          rw [← Option.isSome_map, get_storeProjection h hrecorded]
          split
          · rfl
          · rw [Option.isSome_map]
            exact hbefore
    split
    · exact hkeyed
    · split
      · exact hkeyed.of_frame rfl rfl fun _ => .inl
      · exact hkeyed.startRefreshFamily fiber epoch

theorem Keyed.connectionFailed (epoch : Nat) (message : String) :
    Keyed (client.connectionFailed epoch message) := by
  rw [ThreadClient.connectionFailed]
  split
  · exact h
  · exact h.publish h.shown

theorem Keyed.dispose : Keyed client.dispose := by
  rw [ThreadClient.dispose]
  split
  · exact h
  · have hdisposed : Keyed { client with disposed := true, childOpenSerial := client.childOpenSerial + 1 } :=
      h.of_frame rfl rfl fun _ => .inl
    exact hdisposed.stopConnection none trivial

theorem Keyed.step (input : Input) : Keyed (step targetForThread client input) := by
  cases input with
  | selectThread threadId => exact h.selectThread threadId
  | openChildSession sessionId => exact h.openChildSession sessionId
  | backToThread => exact h.backToThread
  | loadOlder => exact h.loadOlder
  | loadMoreCollaborators => exact h.loadMoreCollaborators
  | resume index answer =>
    rw [ThreadClient.step]
    split
    · exact h
    · next continuation hcontinuation =>
        have herased : Keyed { client with pending := client.pending.eraseIdx index } :=
          h.of_frame rfl rfl fun other hmem => .inl (List.mem_of_mem_eraseIdx hmem)
        exact herased.resume (h.opening continuation (List.mem_of_getElem? hcontinuation)) answer
  | event fiber event =>
    rw [ThreadClient.step]
    split
    · exact h
    · exact h.observeEvent event _
  | status fiber status =>
    rw [ThreadClient.step]
    split
    · exact h
    · exact h.observeStatus status fiber _ _
  | failed fiber message =>
    rw [ThreadClient.step]
    split
    · exact h
    · exact (h.endFiber .ended fiber).connectionFailed _ message
  | ended fiber => exact h.endFiber .ended fiber
  | dispose => exact h.dispose

end

theorem make_keyed : Keyed make :=
  ⟨by rintro sessionId cached ⟨⟩, by rintro projection ⟨⟩, by rintro continuation ⟨⟩⟩

theorem run_keyed (h : Keyed client) (inputs : List Input) : Keyed (run targetForThread client inputs) :=
  List.foldlRecOn (motive := Keyed) inputs (ThreadClient.step targetForThread) h fun _ hkeyed input _ => hkeyed.step input

end ThreadClient

end Rika
