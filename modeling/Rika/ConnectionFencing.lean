import Rika.KeyedProjections
import Rika.Fold

namespace Rika

open Projection Fold

namespace ThreadClient

variable {client : ThreadClient} {targetForThread : ThreadMetadata → Option Target}

def Continuation.ReadsPage : Continuation → Prop
  | .loadOlder .. | .loadMoreCollaborators _ | .refreshFamily .. => True
  | _ => False

section

variable (client : ThreadClient)

def Traffic : Input → Prop
  | .event .. | .status .. | .failed .. | .ended _ | .loadOlder | .loadMoreCollaborators => True
  | .resume index _ => ∀ continuation, client.pending[index]? = some continuation → continuation.ReadsPage
  | _ => False

def Connected (sessionId : String) : Prop :=
  ∃ connection ∈ client.fibers, connection.sessionId = sessionId ∧ connection.phase = .running

/-- The step is an event that the client reads: its connection is live, and so is
the selection it was opened in. -/
def Reads (input : Input) (connection : ConnectionFiber) (event : ConnectionEvent) : Prop :=
  ∃ fiber, input = .event fiber event ∧ client.live fiber = some connection ∧ client.stands connection.epoch = true

def Rebuilds (sessionId : String) : Input → Prop
  | .resume index answer =>
    match client.pending[index]?, answer with
    | some (.refreshFamily _ epoch), .family _ => client.stands epoch = true
    | some (.loadMoreCollaborators epoch), .family page =>
      client.stands epoch = true ∧ client.rootFamily.isSome = true ∧ page.rootSessionId = sessionId
    | some (.loadOlder epoch session nextLeafId), .history page =>
      session = sessionId ∧ (client.historyTarget epoch session nextLeafId page).isSome = true
    | _, _ => False
  | _ => False

/-- A snapshot of the session is applied, brought by one of its connections. -/
def AppliesSnapshot (sessionId : String) (projection : ProjectionState) (input : Input) : Prop :=
  ∃ connection epoch snapshot, client.Reads input connection (.connectionSnapshot epoch snapshot) ∧
    connection.sessionId = sessionId ∧ snapshot.session.id = sessionId ∧ projection.connectionEpoch ≤ epoch

end

/-- A projection that is past epoch zero or needs a snapshot is rebuilt by no page, nor fed by what a connection must not
bring. -/
structure Keeps (client : ThreadClient) (sessionId : String) (projection : ProjectionState) (input : Input) : Prop where
  rebuilds : client.Rebuilds sessionId input → projection.connectionEpoch ≤ 0 ∧ projection.needsSnapshot = false
  committed : ∀ connection cursor body, client.Reads input connection (.committed sessionId cursor body) →
    projection.needsSnapshot = true → cursor = projection.committedCursor + 1 → applyBody projection.snapshot body = none
  snapshot : ∀ connection epoch snapshot, client.Reads input connection (.connectionSnapshot epoch snapshot) →
    snapshot.session.id = sessionId → projection.needsSnapshot = true → projection.connectionEpoch ≤ epoch →
      connection.sessionId = sessionId

def KeepsRecorded (sessionId : String) (client : ThreadClient) (input : Input) : Prop :=
  ∀ projection, client.recorded sessionId = some projection → client.Keeps sessionId projection input

/-- What a connected session has recorded goes on: its epoch is no lower, and the
need of a snapshot stays. -/
def GoesOn (before after : ProjectionState) : Prop :=
  before.connectionEpoch ≤ after.connectionEpoch ∧ (before.needsSnapshot = true → after.needsSnapshot = true)

theorem GoesOn.refl (projection : ProjectionState) : GoesOn projection projection := ⟨Int.le_refl _, id⟩

theorem GoesOn.of_eq {before after : ProjectionState} (hepoch : after.connectionEpoch = before.connectionEpoch)
    (hneeds : after.needsSnapshot = before.needsSnapshot) : GoesOn before after :=
  ⟨hepoch ▸ Int.le_refl _, fun h => hneeds.trans h⟩

theorem goesOn_reproject {projection rebuilt : ProjectionState} {snapshot : HostSessionSnapshot}
    {family : Option FamilyProjection} (h : projection.connectionEpoch ≤ 0 ∧ projection.needsSnapshot = false) :
    GoesOn projection (reproject rebuilt snapshot family) := by
  refine ⟨h.1, fun hneeds => ?_⟩
  rw [h.2] at hneeds
  cases hneeds

section

variable (state : ProjectionState)

theorem goesOn_applyConnectionStatus (status : ConnectionStatus) :
    GoesOn state (applyConnectionStatus state status) := by
  cases status <;> exact .of_eq rfl rfl

theorem goesOn_applyPreview (delivery : PreviewDelivery) :
    GoesOn state (applyPreview state delivery).state := by
  rw [applyPreview]
  split
  · exact .refl state
  · split
    · rw [applyModelPreview]
      split
      · exact .refl state
      · split
        · exact .refl state
        · split
          · exact .refl state
          · exact .of_eq rfl rfl
    · rw [applyModelPreviewCleared]
      split
      · exact .refl state
      · exact .of_eq rfl rfl

theorem goesOn_applyCommitted (cursor : Nat) (body : CommittedBody)
    (h : state.needsSnapshot = true → cursor = state.committedCursor + 1 → applyBody state.snapshot body = none) :
    GoesOn state (applyCommitted state cursor body).state := by
  rw [applyCommitted]
  split
  · exact .refl state
  · split
    · exact ⟨Int.le_refl _, fun _ => rfl⟩
    · next hcontiguous =>
        split
        · exact ⟨Int.le_refl _, fun _ => rfl⟩
        · next updated hupdated =>
            refine ⟨Int.le_refl _, fun hneeds => ?_⟩
            rw [h hneeds (by omega)] at hupdated
            cases hupdated

theorem applyConnectionSnapshot_goesOn (epoch : Int) (snapshot : HostSessionSnapshot) :
    GoesOn state (applyConnectionSnapshot state epoch snapshot).state ∨
      snapshot.session.id = state.sessionId ∧ state.connectionEpoch ≤ epoch ∧
        (applyConnectionSnapshot state epoch snapshot).state.connectionEpoch = epoch := by
  rw [applyConnectionSnapshot]
  split
  · exact .inl (.refl state)
  · next hsession =>
      split
      · exact .inl (.refl state)
      · next hepoch => exact .inr ⟨not_not.mp hsession, Int.not_lt.mp hepoch, rfl⟩

end

theorem applyConnectionEvent_goesOn {state : ProjectionState} {event : ConnectionEvent}
    (hcommitted : ∀ cursor body, event = .committed state.sessionId cursor body → state.needsSnapshot = true →
      cursor = state.committedCursor + 1 → applyBody state.snapshot body = none) :
    GoesOn state (applyConnectionEvent state event).state ∨
      ∃ epoch snapshot, event = .connectionSnapshot epoch snapshot ∧ snapshot.session.id = state.sessionId ∧
        state.connectionEpoch ≤ epoch ∧ (applyConnectionEvent state event).state.connectionEpoch = epoch := by
  cases event with
  | connectionSnapshot epoch snapshot =>
    rcases applyConnectionSnapshot_goesOn state epoch snapshot with hgoes | ⟨hsession, hepoch, hafter⟩
    · exact .inl hgoes
    · exact .inr ⟨epoch, snapshot, rfl, hsession, hepoch, hafter⟩
  | previewDelivery delivery => exact .inl (goesOn_applyPreview state delivery)
  | committed sessionId cursor body =>
    rw [applyConnectionEvent]
    split
    · exact .inl (.refl state)
    · next hsession =>
        rw [not_not.mp hsession] at hcommitted
        exact .inl (goesOn_applyCommitted state cursor body (hcommitted cursor body rfl))

def cachedProjection (client : ThreadClient) (sessionId : String) : Option ProjectionState :=
  (client.sessionProjections.get sessionId).map (·.projection)

@[simp]
theorem cachedProjection_publish (next : ThreadClientState) (sessionId : String) :
    (client.publish next).cachedProjection sessionId = client.cachedProjection sessionId := by
  rw [publish]
  split <;> rfl

theorem cachedProjection_set (execution : ExecutionClient) (projection : ProjectionState) (key sessionId : String) :
    cachedProjection { client with sessionProjections := client.sessionProjections.set key ⟨execution, projection⟩ }
      sessionId = if sessionId = key then some projection else client.cachedProjection sessionId := by
  rw [cachedProjection, InsertionMap.get_set]
  split <;> rfl

theorem cachedProjection_updateProjection (projection : ProjectionState) (sessionId : String) :
    (client.updateProjection projection).cachedProjection sessionId = client.cachedProjection sessionId ∨
      projection.sessionId = sessionId ∧
        (client.updateProjection projection).cachedProjection sessionId = some projection := by
  rw [updateProjection, cachedProjection_publish]
  unfold cacheProjection
  split
  · exact .inl rfl
  · rw [cachedProjection_set]
    split
    · next hsame => exact .inr ⟨hsame.symm, rfl⟩
    · exact .inl rfl

theorem observeEvent_cached (h : Keyed client) (event : ConnectionEvent) (epoch : Nat) (sessionId : String) :
    (client.observeEvent event epoch).cachedProjection sessionId = client.cachedProjection sessionId ∨
      client.stands epoch = true ∧ eventSessionId event = sessionId ∧
        ∃ projection, client.recorded sessionId = some projection ∧
          (client.observeEvent event epoch).cachedProjection sessionId =
            some (applyConnectionEvent projection event).state := by
  rw [observeEvent]
  split
  · exact .inl rfl
  · next hopen =>
      have hstands : client.stands epoch = true := by
        rw [stands_eq_true]
        simpa [not_or] using hopen
      dsimp only
      split
      · exact .inl rfl
      · next projection hrecorded =>
          have hstored := get_storeProjection h hrecorded (applyConnectionEvent projection event).state sessionId
          have hsession : (applyConnectionEvent projection event).state.sessionId = eventSessionId event :=
            (sessionId_applyConnectionEvent _ _).trans (recorded_sessionId h hrecorded)
          by_cases hsame : sessionId = eventSessionId event
          · subst hsame
            refine .inr ⟨hstands, rfl, projection, hrecorded, ?_⟩
            rw [if_pos rfl] at hstored
            generalize applyConnectionEvent projection event = result at hstored hsession
            split
            · exact hstored
            · cases result with
              | rejected next reason => exact (cachedProjection_publish _ _).trans hstored
              | applied next | ignored next =>
                rcases @cachedProjection_updateProjection (client.storeProjection (eventSessionId event) next)
                  next (eventSessionId event) with hkept | ⟨-, hcached⟩
                · exact hkept.trans hstored
                · exact hcached
          · left
            rw [if_neg hsame] at hstored
            generalize applyConnectionEvent projection event = result at hstored hsession
            split
            · exact hstored
            · cases result with
              | rejected next reason => exact (cachedProjection_publish _ _).trans hstored
              | applied next | ignored next =>
                rcases @cachedProjection_updateProjection (client.storeProjection (eventSessionId event) next)
                  next sessionId with hkept | ⟨hother, -⟩
                · exact hkept.trans hstored
                · exact absurd (hother.symm.trans hsession) hsame

theorem cachedProjection_endFiber (phase : FiberPhase) (fiber : Nat) (sessionId : String) :
    (client.endFiber phase fiber).cachedProjection sessionId = client.cachedProjection sessionId := by
  rw [endFiber]
  split <;> rfl

@[simp]
theorem cachedProjection_startRefreshFamily (fiber epoch : Nat) (sessionId : String) :
    (client.startRefreshFamily fiber epoch).cachedProjection sessionId = client.cachedProjection sessionId := by
  rw [startRefreshFamily]
  split <;> rfl

theorem observeStatus_cached (h : Keyed client) (status : ConnectionStatus) (fiber epoch : Nat)
    (session sessionId : String) :
    (client.observeStatus status fiber epoch session).cachedProjection sessionId = client.cachedProjection sessionId ∨
      ∃ projection, client.recorded sessionId = some projection ∧
        (client.observeStatus status fiber epoch session).cachedProjection sessionId =
          some (applyConnectionStatus projection status) := by
  rw [observeStatus]
  split
  · exact .inl rfl
  · dsimp only
    generalize hpublished : ThreadClient.publish _ _ = published
    have hcached : published.cachedProjection sessionId = client.cachedProjection sessionId ∨
        ∃ projection, client.recorded sessionId = some projection ∧
          published.cachedProjection sessionId = some (applyConnectionStatus projection status) := by
      rw [← hpublished, cachedProjection_publish]
      cases hrecorded : client.recorded session with
      | none => exact .inl rfl
      | some projection =>
        rw [Option.map_some, Option.elim_some, cachedProjection, get_storeProjection h hrecorded]
        split
        · next hsame => exact .inr ⟨projection, hsame ▸ hrecorded, rfl⟩
        · exact .inl rfl
    split
    · exact hcached
    · split
      · exact hcached
      · rw [cachedProjection_startRefreshFamily]
        exact hcached

theorem finishLoadOlder_cached (epoch : Nat) (session nextLeafId : String) (page : HistoryPage) (sessionId : String) :
    (client.finishLoadOlder epoch session nextLeafId page).cachedProjection sessionId =
        client.cachedProjection sessionId ∨
      (session = sessionId ∧ (client.historyTarget epoch session nextLeafId page).isSome = true) ∧
        ∃ rebuilt snapshot family, (client.finishLoadOlder epoch session nextLeafId page).cachedProjection sessionId =
          some (reproject rebuilt snapshot family) := by
  rw [finishLoadOlder]
  split
  · exact .inl rfl
  · next projection htarget =>
      rcases @cachedProjection_updateProjection client (reproject projection { projection.snapshot with
        conversation := olderConversation projection.snapshot.conversation page } client.rootFamily) sessionId with
        hkept | ⟨hsession, hcached⟩
      · exact .inl hkept
      · refine .inr ⟨⟨(historyTarget_eq_some htarget).2.symm.trans hsession, ?_⟩, _, _, _, hcached⟩
        rw [htarget]
        rfl

theorem finishLoadMore_cached (h : Keyed client) (epoch : Nat) (page : FamilyPage) (sessionId : String) :
    (client.finishLoadMore epoch page).cachedProjection sessionId = client.cachedProjection sessionId ∨
      (client.stands epoch = true ∧ client.rootFamily.isSome = true ∧ page.rootSessionId = sessionId) ∧
        ∃ rebuilt snapshot family, (client.finishLoadMore epoch page).cachedProjection sessionId =
          some (reproject rebuilt snapshot family) := by
  rw [finishLoadMore]
  split
  · exact .inl rfl
  · next hopen =>
      have hstands : client.stands epoch = true := by
        rw [stands_eq_true]
        simpa [not_or] using hopen
      split
      · exact .inl rfl
      · next previous hfamily =>
          dsimp only
          split
          · exact .inl rfl
          · next cached hcached =>
              have hsession : cached.projection.sessionId = page.rootSessionId := h.cached _ cached hcached
              have hrebuilt : ∀ client' : ThreadClient, client'.cachedProjection sessionId =
                    (if sessionId = cached.projection.sessionId then
                      some (reproject cached.projection cached.projection.snapshot
                        (some (familyProjection page (some previous) true)))
                    else client.cachedProjection sessionId) →
                  client'.cachedProjection sessionId = client.cachedProjection sessionId ∨
                    (client.stands epoch = true ∧ client.rootFamily.isSome = true ∧ page.rootSessionId = sessionId) ∧
                      ∃ rebuilt snapshot family,
                        client'.cachedProjection sessionId = some (reproject rebuilt snapshot family) := by
                intro client' hclient'
                split at hclient'
                · next hsame =>
                    exact .inr ⟨⟨hstands, hfamily ▸ rfl, (hsame.trans hsession).symm⟩, _, _, _, hclient'⟩
                · exact .inl hclient'
              apply hrebuilt
              split
              · rcases @cachedProjection_updateProjection { client.setRootFamily
                    (some (familyProjection page (some previous) true)) with
                    sessionProjections := client.sessionProjections.set cached.projection.sessionId
                      ⟨cached.execution, reproject cached.projection cached.projection.snapshot
                        (some (familyProjection page (some previous) true))⟩ }
                  (reproject cached.projection cached.projection.snapshot
                    (some (familyProjection page (some previous) true))) sessionId with hkept | ⟨hsame, hupdated⟩
                · exact hkept.trans (@cachedProjection_set (client.setRootFamily _) _ _ _ _)
                · exact hupdated.trans (if_pos hsame.symm).symm
              · exact @cachedProjection_set (client.setRootFamily _) _ _ _ _

theorem finishRefreshFamily_cached (epoch : Nat) (page : FamilyPage) (sessionId : String) :
    (client.finishRefreshFamily epoch page).cachedProjection sessionId = client.cachedProjection sessionId ∨
      client.stands epoch = true ∧
        ∃ rebuilt snapshot family, (client.finishRefreshFamily epoch page).cachedProjection sessionId =
          some (reproject rebuilt snapshot family) := by
  rw [finishRefreshFamily]
  split
  · exact .inl rfl
  · next hopen =>
      have hstands : client.stands epoch = true := by
        rw [stands_eq_true]
        simpa [not_or] using hopen
      generalize familyProjection page client.rootFamily false = family
      have hrebuilt : ∀ key, (client.rebuildProjections family).cachedProjection key =
          (client.cachedProjection key).map fun projection => reproject projection projection.snapshot (some family) := by
        intro key
        rw [cachedProjection, rebuildProjections, InsertionMap.get_mapValues, cachedProjection, Option.map_map,
          Option.map_map]
        rfl
      have hresult : (client.rebuildProjections family).cachedProjection sessionId = client.cachedProjection sessionId ∨
          client.stands epoch = true ∧ ∃ rebuilt snapshot family',
            (client.rebuildProjections family).cachedProjection sessionId = some (reproject rebuilt snapshot family') := by
        rw [hrebuilt]
        cases client.cachedProjection sessionId with
        | none => exact .inl rfl
        | some projection => exact .inr ⟨hstands, projection, projection.snapshot, some family, rfl⟩
      dsimp only
      rw [cachedProjection_publish]
      split
      · exact hresult
      · next active hactive =>
          rcases @cachedProjection_updateProjection (client.rebuildProjections family) active.projection
            sessionId with hkept | ⟨-, hcached⟩
          · rw [hkept]
            exact hresult
          · -- the projection shown is one of those rebuilt
            have hactive' := hrebuilt ((client.rebuildProjections family).focusedSessionId.getD family.rootSessionId)
            rw [cachedProjection, ← activeProjection, hactive, Option.map_some, eq_comm, Option.map_eq_some_iff]
              at hactive'
            obtain ⟨projection, -, hprojection⟩ := hactive'
            exact .inr ⟨hstands, projection, projection.snapshot, some family, hprojection ▸ hcached⟩

theorem resume_cached (h : Keyed client) {index : Nat} {continuation : Continuation}
    (hpending : client.pending[index]? = some continuation) (hreads : continuation.ReadsPage) (answer : Answer)
    (sessionId : String) :
    (step targetForThread client (.resume index answer)).cachedProjection sessionId =
        client.cachedProjection sessionId ∨
      client.Rebuilds sessionId (.resume index answer) ∧
        ∃ rebuilt snapshot family, (step targetForThread client (.resume index answer)).cachedProjection sessionId =
          some (reproject rebuilt snapshot family) := by
  have herased : Keyed { client with pending := client.pending.eraseIdx index } :=
    h.of_frame rfl rfl fun _ hmem => .inl (List.mem_of_mem_eraseIdx hmem)
  simp only [step, Rebuilds, hpending]
  cases continuation with
  | loadOlder epoch session nextLeafId =>
    cases answer with
    | history page =>
      exact @finishLoadOlder_cached { client with pending := client.pending.eraseIdx index } epoch session
        nextLeafId page sessionId
    | _ => exact .inl rfl
  | loadMoreCollaborators epoch =>
    cases answer with
    | family page => exact finishLoadMore_cached herased epoch page sessionId
    | _ => exact .inl rfl
  | refreshFamily fiber epoch =>
    cases answer with
    | family page =>
      exact @finishRefreshFamily_cached { client with pending := client.pending.eraseIdx index } epoch page
        sessionId
    | failed message =>
      left
      dsimp only [resume]
      split
      · exact cachedProjection_publish _ _
      · rfl
    | _ => exact .inl rfl
  | _ => exact hreads.elim

theorem cachedProjection_eq_recorded (h : Keyed client) (sessionId : String) :
    client.cachedProjection sessionId = client.recorded sessionId := (h.recorded sessionId).symm

theorem step_recorded (h : Keyed client) {input : Input} (htraffic : client.Traffic input) {sessionId : String}
    {before : ProjectionState} (hbefore : client.recorded sessionId = some before)
    (hkeeps : client.Keeps sessionId before input) :
    ∃ after, (step targetForThread client input).recorded sessionId = some after ∧
      (GoesOn before after ∨
        client.AppliesSnapshot sessionId before input ∧ before.connectionEpoch ≤ after.connectionEpoch) := by
  have hsame : (step targetForThread client input).cachedProjection sessionId = client.cachedProjection sessionId →
      ∃ after, (step targetForThread client input).recorded sessionId = some after ∧
        (GoesOn before after ∨
          client.AppliesSnapshot sessionId before input ∧ before.connectionEpoch ≤ after.connectionEpoch) := by
    intro hsame
    refine ⟨before, ?_, .inl (.refl before)⟩
    rw [← cachedProjection_eq_recorded (h.step input), hsame, cachedProjection_eq_recorded h, hbefore]
  have hsession := recorded_sessionId h hbefore
  cases input with
  | event fiber event =>
    cases hlive : client.live fiber with
    | none =>
      apply hsame
      rw [step, hlive]
    | some connection =>
      have hstep : step targetForThread client (.event fiber event) = client.observeEvent event connection.epoch := by
        rw [step, hlive]
      rcases observeEvent_cached h event connection.epoch sessionId with hkept | ⟨hstands, hof, projection,
        hrecorded, hcached⟩
      · exact hsame (hstep ▸ hkept)
      · obtain rfl := Option.some_inj.mp (hbefore.symm.trans hrecorded)
        refine ⟨(applyConnectionEvent before event).state, ?_, ?_⟩
        · rw [← cachedProjection_eq_recorded (h.step _), hstep, hcached]
        · have hread : client.Reads (.event fiber event) connection event := ⟨fiber, rfl, hlive, hstands⟩
          have hgoes := @applyConnectionEvent_goesOn before event (by
            rintro cursor body rfl
            exact hkeeps.committed connection cursor body (hsession ▸ hread))
          rcases hgoes with hgoes | ⟨epoch, snapshot, rfl, hsnapshot, hepoch, hafter⟩
          · exact .inl hgoes
          · by_cases hneeds : before.needsSnapshot = true
            · have hown := hkeeps.snapshot connection epoch snapshot hread (hsnapshot.trans hsession) hneeds hepoch
              exact .inr ⟨⟨connection, epoch, snapshot, hread, hown, hsnapshot.trans hsession, hepoch⟩,
                Int.le_trans hepoch (Int.le_of_eq hafter.symm)⟩
            · exact .inl ⟨Int.le_trans hepoch (Int.le_of_eq hafter.symm), fun hneeds' => absurd hneeds' hneeds⟩
  | status fiber status =>
    cases hreads : client.readsStatus fiber with
    | none =>
      apply hsame
      rw [step, hreads]
    | some connection =>
      have hstep : step targetForThread client (.status fiber status) =
          client.observeStatus status fiber connection.epoch connection.sessionId := by
        rw [step, hreads]
      rcases observeStatus_cached h status fiber connection.epoch connection.sessionId sessionId with
        hkept | ⟨projection, hrecorded, hcached⟩
      · exact hsame (hstep ▸ hkept)
      · obtain rfl := Option.some_inj.mp (hbefore.symm.trans hrecorded)
        refine ⟨applyConnectionStatus before status, ?_, .inl (goesOn_applyConnectionStatus before status)⟩
        rw [← cachedProjection_eq_recorded (h.step _), hstep, hcached]
  | loadOlder =>
    apply hsame
    rw [step, loadOlder]
    split
    · split
      · rfl
      · split <;> rfl
    · rfl
  | loadMoreCollaborators =>
    apply hsame
    rw [step, loadMoreCollaborators]
    split
    · rfl
    · split <;> rfl
  | resume index answer =>
    cases hpending : client.pending[index]? with
    | none =>
      apply hsame
      rw [step, hpending]
    | some continuation =>
      rcases @resume_cached _ targetForThread h _ _ hpending (htraffic continuation hpending) answer
        sessionId with hkept | ⟨hrebuilds, rebuilt, snapshot, family, hcached⟩
      · exact hsame hkept
      · refine ⟨reproject rebuilt snapshot family, ?_, .inl (goesOn_reproject (hkeeps.rebuilds hrebuilds))⟩
        rw [← cachedProjection_eq_recorded (h.step _), hcached]
  | failed fiber message =>
    apply hsame
    rw [step]
    split
    · rfl
    · rw [connectionFailed]
      split
      · exact cachedProjection_endFiber _ _ _
      · rw [cachedProjection_publish]
        exact cachedProjection_endFiber _ _ _
  | ended fiber => exact hsame (cachedProjection_endFiber _ _ _)
  | _ => exact htraffic.elim

/-- The epoch of a session does not sink, and the need of a snapshot stays until one of its own connections brings one.
-/
def StaysFenced (targetForThread : ThreadMetadata → Option Target) (client : ThreadClient) (inputs : List Input)
    (sessionId : String) : Prop :=
  ∀ before, client.recorded sessionId = some before →
    ∃ after, (run targetForThread client inputs).recorded sessionId = some after ∧
      before.connectionEpoch ≤ after.connectionEpoch ∧
        (before.needsSnapshot = true → after.needsSnapshot = true ∨
          ∃ earlier input later projection, inputs = earlier ++ input :: later ∧
            (run targetForThread client earlier).recorded sessionId = some projection ∧
              (run targetForThread client earlier).AppliesSnapshot sessionId projection input)

theorem run_staysFenced (h : Keyed client) {sessionId : String} {inputs : List Input}
    (htraffic : Throughout (step targetForThread) Traffic client inputs)
    (hkeeps : Throughout (step targetForThread) (KeepsRecorded sessionId) client inputs) :
    StaysFenced targetForThread client inputs sessionId := by
  induction inputs generalizing client with
  | nil => exact fun before hbefore => ⟨before, hbefore, Int.le_refl _, .inl⟩
  | cons input inputs ih =>
    intro before hbefore
    obtain ⟨next, hnext, hgoes⟩ :=
      @step_recorded _ targetForThread h _ htraffic.1 _ _ hbefore (hkeeps.1 before hbefore)
    obtain ⟨after, hafter, hepoch, hneeds⟩ := ih (h.step input) htraffic.2 hkeeps.2 next hnext
    have hepoch' : before.connectionEpoch ≤ next.connectionEpoch := hgoes.elim And.left And.right
    refine ⟨after, hafter, Int.le_trans hepoch' hepoch, fun hbeforeNeeds => ?_⟩
    rcases hgoes with hgoes | ⟨happlies, -⟩
    · rcases hneeds (hgoes.2 hbeforeNeeds) with hstill | ⟨earlier, snapshot, later, projection, rfl, hrecorded,
        happlies⟩
      · exact .inl hstill
      · exact .inr ⟨input :: earlier, snapshot, later, projection, rfl, hrecorded, happlies⟩
    · exact .inr ⟨[], input, inputs, before, rfl, hbefore, happlies⟩

/-- While connections bring events and pages are read, what a session has recorded
stays fenced, when every step keeps it. -/
theorem recorded_staysFenced (started inputs : List Input) (sessionId : String)
    (htraffic : Throughout (step targetForThread) Traffic (run targetForThread make started) inputs)
    (hkeeps : Throughout (step targetForThread) (KeepsRecorded sessionId) (run targetForThread make started) inputs) :
    StaysFenced targetForThread (run targetForThread make started) inputs sessionId :=
  run_staysFenced (run_keyed make_keyed started) htraffic hkeeps

def sampleSnapshot : HostSessionSnapshot := ⟨⟨"session", none, none, none, []⟩, 0, [], ⟨none, [], none⟩⟩

def sampleFamily : FamilyPage := ⟨"session", 0, [], none⟩

def sampleSelect : List Input :=
  [.selectThread "thread", .resume 0 (.metadata ⟨"thread", "Thread", .runner⟩), .resume 0 (.execution ⟨0⟩),
    .resume 0 (.session "session"), .resume 0 (.snapshot sampleSnapshot), .resume 0 (.family sampleFamily),
    .status 0 .connected]

def sampleConnected (events : List ConnectionEvent) : ThreadClient :=
  run (fun _ => none) make (sampleSelect ++ events.map (.event 0))

def sampleCommitted (cursor : Nat) : ConnectionEvent := .committed "session" cursor (.other "Run" "run")

theorem recorded_staysFenced_sample : StaysFenced (fun _ => none) (sampleConnected [])
      [.event 0 (sampleCommitted 2), .event 0 (.connectionSnapshot 1 sampleSnapshot)] "session" := by
  apply recorded_staysFenced
  · exact ⟨trivial, trivial, trivial⟩
  · refine ⟨?_, ?_, trivial⟩
    · intro projection hrecorded
      refine ⟨False.elim, ?_, ?_⟩
      · intro connection cursor body _ hneeds
        have hfresh : ((sampleConnected []).recorded "session").map (·.needsSnapshot) = some false := by decide
        obtain ⟨fresh, hfresh, hno⟩ := Option.map_eq_some_iff.mp hfresh
        obtain rfl := Option.some_inj.mp (hfresh.symm.trans hrecorded)
        rw [hneeds] at hno
        cases hno
      · rintro connection epoch snapshot ⟨fiber, hinput, -, -⟩
        cases hinput
    · intro projection hrecorded
      refine ⟨False.elim, ?_, ?_⟩
      · rintro connection cursor body ⟨fiber, hinput, -, -⟩
        cases hinput
      · rintro connection epoch snapshot ⟨fiber, hinput, hlive, -⟩ - - -
        cases hinput
        have hsession : ((sampleConnected [sampleCommitted 2]).live 0).map (·.sessionId) = some "session" := by decide
        obtain ⟨own, hown, hsession⟩ := Option.map_eq_some_iff.mp hsession
        obtain rfl := Option.some_inj.mp (hown.symm.trans hlive)
        exact hsession

/-- A refresh of the family takes the epoch back to zero; and after a gap a contiguous
event ends the need of a snapshot. -/
theorem recorded_unfenced :
    ((sampleConnected [.connectionSnapshot 2 sampleSnapshot]).Connected "session" ∧
        Throughout (step fun _ => none) Traffic (sampleConnected [.connectionSnapshot 2 sampleSnapshot])
          [.status 0 .retrying, .resume 0 (.family sampleFamily)] ∧
        ¬ StaysFenced (fun _ => none) (sampleConnected [.connectionSnapshot 2 sampleSnapshot])
          [.status 0 .retrying, .resume 0 (.family sampleFamily)] "session") ∧
      (sampleConnected [sampleCommitted 2]).Connected "session" ∧
        Throughout (step fun _ => none) Traffic (sampleConnected [sampleCommitted 2]) [.event 0 (sampleCommitted 1)] ∧
        ¬ StaysFenced (fun _ => none) (sampleConnected [sampleCommitted 2]) [.event 0 (sampleCommitted 1)] "session" := by
  refine ⟨⟨?_, ?_, ?_⟩, ?_, ?_, ?_⟩
  · exact ⟨⟨"session", 1, .running⟩, by decide, rfl, rfl⟩
  · refine ⟨trivial, ?_, trivial⟩
    intro continuation hpending
    have hrefresh : continuation = .refreshFamily 0 1 := by
      rw [← Option.some_inj, ← hpending]
      decide
    subst hrefresh
    trivial
  · intro h
    have hbefore : ((sampleConnected [.connectionSnapshot 2 sampleSnapshot]).recorded "session").map
        (·.connectionEpoch) = some 2 := by decide
    have hafter : ((run (fun _ => none) (sampleConnected [.connectionSnapshot 2 sampleSnapshot])
        [.status 0 .retrying, .resume 0 (.family sampleFamily)]).recorded "session").map (·.connectionEpoch) =
          some 0 := by decide
    obtain ⟨before, hbefore, htwo⟩ := Option.map_eq_some_iff.mp hbefore
    obtain ⟨after, hrecorded, hepoch, -⟩ := h before hbefore
    rw [hrecorded, Option.map_some, Option.some_inj] at hafter
    omega
  · exact ⟨⟨"session", 1, .running⟩, by decide, rfl, rfl⟩
  · exact ⟨trivial, trivial⟩
  · intro h
    have hbefore : ((sampleConnected [sampleCommitted 2]).recorded "session").map (·.needsSnapshot) = some true := by
      decide
    have hafter : ((run (fun _ => none) (sampleConnected [sampleCommitted 2])
        [.event 0 (sampleCommitted 1)]).recorded "session").map (·.needsSnapshot) = some false := by decide
    obtain ⟨before, hbefore, hneeds⟩ := Option.map_eq_some_iff.mp hbefore
    obtain ⟨after, hrecorded, -, hgoes⟩ := h before hbefore
    rw [hrecorded, Option.map_some, Option.some_inj] at hafter
    rcases hgoes hneeds with hstill | ⟨earlier, input, later, projection, hinputs, -, happlies⟩
    · rw [hafter] at hstill
      cases hstill
    · obtain ⟨connection, epoch, snapshot, ⟨fiber, hinput, -, -⟩, -⟩ := happlies
      have hmem : input ∈ [Input.event 0 (sampleCommitted 1)] := by
        rw [hinputs]
        simp
      rw [List.mem_singleton, hinput] at hmem
      cases hmem

end ThreadClient

end Rika
