import Rika.ConnectionLines
import Rika.KeyedProjections

namespace Rika

open Projection

namespace ThreadClient

open Lines

variable {client : ThreadClient} {targetForThread : ThreadMetadata → Option Target}

section

variable (client : ThreadClient)

/-- The client goes on after a stop in the selection it was stopped for, unless it
goes back to a root that is not there. -/
def StillStands : AfterStop → Prop
  | .openChildSession _ _ _ _ epoch openSerial => client.lines.Latest epoch openSerial
  | .backToThread _ epoch openSerial =>
    client.lines.Latest epoch openSerial ∨
      (client.rootFamily.bind fun family => client.sessionProjections.get family.rootSessionId) = none
  | _ => True

/-- The step is to open the child: its projection is there, and it was asked for last. -/
def OpensChild (sessionId : String) : Input → Prop
  | .openChildSession child => child = sessionId ∧ (client.sessionProjections.get child).isSome = true
  | .resume index (.snapshot _) => ∃ root family familySerial epoch openSerial,
      client.pending[index]? = some (.childSnapshot sessionId root family familySerial epoch openSerial) ∧
        client.openChildStands root familySerial epoch openSerial = true
  | _ => False

def Connects (sessionId : String) (input : Input) : Prop :=
  (client.OpensChild sessionId input ∧ ∀ previous, client.focusedSessionId = some previous → previous ≠ sessionId →
      client.connectionFibers.get previous = none) ∨
    ∃ index answer, input = .resume index answer ∧
      ((∃ fibers root projection previous epoch openSerial, fibers.tail = [] ∧
          client.pending[index]? =
            some (.stopping fibers (.openChildSession sessionId root projection previous epoch openSerial))) ∨
        ∃ threadId epoch metadata execution snapshot page, answer = .family page ∧ client.stands epoch = true ∧
          client.pending[index]? = some (.selectFamily threadId epoch metadata execution sessionId snapshot))

def AsksFamily (rootSessionId : String) : Continuation → Prop
  | .selectFamily _ epoch _ _ sessionId _ => client.stands epoch = true ∧ sessionId = rootSessionId
  | .loadMoreCollaborators epoch | .refreshFamily _ epoch =>
    client.stands epoch = true ∧ ∃ family, client.rootFamily = some family ∧ family.rootSessionId = rootSessionId
  | _ => False

end

structure Orderly (client : ThreadClient) (input : Input) : Prop where
  stands : ∀ index answer fibers next, input = .resume index answer →
    client.pending[index]? = some (.stopping fibers next) → fibers.tail = [] → client.StillStands next
  reopened : ∀ sessionId, client.OpensChild sessionId input → client.focusedSessionId = some sessionId →
    ∀ connection ∈ client.fibers, connection.sessionId = sessionId → connection.phase ≠ .running
  waited : ∀ sessionId, client.Connects sessionId input →
    ∀ connection ∈ client.fibers, connection.sessionId = sessionId → connection.phase ≠ .stopping
  family : ∀ index page continuation rootSessionId, input = .resume index (.family page) →
    client.pending[index]? = some continuation → client.AsksFamily rootSessionId continuation →
      page.rootSessionId = rootSessionId

variable {next : ThreadClientState} {epoch : Nat} {sessionId : String} {page : FamilyPage} {continuation : Continuation}

@[simp]
theorem lines_publish (hepoch : next.selectionEpoch = client.current.selectionEpoch) :
    (client.publish next).lines = client.lines := by
  rw [publish]
  split
  · rfl
  · rw [lines, lines, hepoch]

@[simp]
theorem lines_cacheProjection (execution : Option ExecutionClient) (projection : ProjectionState) :
    (client.cacheProjection execution projection).lines = client.lines := by
  cases execution <;> rfl

@[simp]
theorem lines_updateProjection (projection : ProjectionState) :
    (client.updateProjection projection).lines = client.lines := by
  rw [updateProjection]
  dsimp only
  rw [lines_publish (by rfl), lines_cacheProjection]

@[simp]
theorem lines_storeProjection (sessionId : String) (next : ProjectionState) :
    (client.storeProjection sessionId next).lines = client.lines := by
  rw [storeProjection]
  split <;> rfl

theorem current_storeProjection (sessionId : String) (next : ProjectionState) :
    (client.storeProjection sessionId next).current = client.current := by
  rw [storeProjection]
  split <;> rfl

theorem lines_observeEvent (event : ConnectionEvent) (epoch : Nat) :
    (client.observeEvent event epoch).lines = client.lines := by
  rw [observeEvent]
  split
  · rfl
  · dsimp only
    split
    · rfl
    · next projection _ =>
        generalize applyConnectionEvent projection event = result
        split
        · exact lines_storeProjection _ _
        · cases result with
          | rejected next reason =>
            dsimp only
            rw [lines_publish (by rw [current_storeProjection]), lines_storeProjection]
          | applied next | ignored next =>
            dsimp only
            rw [lines_updateProjection, lines_storeProjection]

theorem lines_observeStatus (status : ConnectionStatus) (fiber epoch : Nat) (sessionId : String) :
    (client.observeStatus status fiber epoch sessionId).lines = client.lines ∨
      epoch = client.lines.selectionEpoch ∧ client.lines.rootFamily.isSome = true ∧
        (client.observeStatus status fiber epoch sessionId).lines =
          { client.lines with pending := client.lines.pending ++ [.refreshFamily fiber epoch] } := by
  rw [observeStatus]
  split
  · exact .inl rfl
  · next hopen =>
      dsimp only
      generalize hpublished : ThreadClient.publish _ _ = published
      have hlines : published.lines = client.lines := by
        rw [← hpublished]
        cases (client.recorded sessionId).map fun projection => applyConnectionStatus projection status with
        | none => exact lines_publish rfl
        | some next =>
          rw [lines_publish (by rw [Option.elim_some, current_storeProjection])]
          exact lines_storeProjection _ _
      split
      · exact .inl hlines
      · next hfamily =>
          split
          · exact .inl hlines
          · rw [startRefreshFamily]
            split
            · exact .inl hlines
            · refine .inr ⟨?_, ?_, ?_⟩
              · rw [not_or, not_not] at hopen
                exact hopen.2
              · rw [← hlines, Option.isSome_iff_ne_none]
                exact fun hnone => hfamily (.inr (.inl hnone))
              · rw [← hlines]
                rfl

theorem lines_connectionFailed (epoch : Nat) (message : String) :
    (client.connectionFailed epoch message).lines = client.lines := by
  rw [connectionFailed]
  split
  · rfl
  · exact lines_publish rfl

theorem lines_setPhase (phase : FiberPhase) (fiber : Nat) : (client.setPhase phase fiber).lines =
      { client.lines with fibers := settleAll phase client.lines.fibers [fiber] } := rfl

theorem lines_endFiber (phase : FiberPhase) (fiber : Nat) : (client.endFiber phase fiber).lines =
      { client.lines with
        fibers := settleAll phase client.lines.fibers [fiber]
        pending := client.lines.pending.filter fun continuation => !continuation.isRefreshOf fiber } := by
  rw [endFiber]
  split
  · rfl
  · next hnone =>
      have hkept : client.lines.pending.filter (fun continuation => !continuation.isRefreshOf fiber) =
          client.lines.pending := by
        rw [List.filter_eq_self]
        intro continuation hmem
        rw [Bool.not_eq_true']
        refine Bool.eq_false_iff.mpr fun hrefresh => hnone ?_
        exact List.any_eq_true.mpr ⟨continuation, hmem, hrefresh⟩
      rw [lines_setPhase, hkept]

theorem endFiber_ordered {queue : List Nat} {fiber : Nat} (h : client.lines.Ordered (fiber :: queue))
    {phase : FiberPhase} (hphase : phase = .interrupted ∨ phase = .ended) :
    (client.endFiber phase fiber).lines.Ordered queue := by
  rw [lines_endFiber]
  have hsettled := @Ordered.settle _ _ h phase (by rcases hphase with rfl | rfl <;> simp) [fiber] queue
    (by
      intro i hmem
      rcases List.mem_cons.mp hmem with rfl | hmem
      · exact .inr ⟨List.mem_singleton.mpr rfl, by rcases hphase with rfl | rfl <;> simp⟩
      · exact .inl hmem)
    (by rcases hphase with rfl | rfl <;> simp)
  exact hsettled.abandon _ fun _ _ => rfl

theorem foldl_setPhase (fibers : List Nat) (client : ThreadClient) :
    fibers.foldl (fun client fiber => client.setPhase .stopping fiber) client =
      { client with fibers := settleAll .stopping client.fibers fibers } := by
  induction fibers generalizing client with
  | nil => rfl
  | cons fiber fibers ih =>
    rw [List.foldl_cons, ih]
    rfl

theorem get_foldl_delete (taken : List (String × Nat)) (connectionFibers : InsertionMap String Nat) (key : String) :
    (taken.foldl (fun connectionFibers entry => connectionFibers.delete entry.1) connectionFibers).get key =
      if key ∈ taken.map Prod.fst then none else connectionFibers.get key := by
  induction taken generalizing connectionFibers with
  | nil => simp
  | cons entry taken ih =>
    rw [List.foldl_cons, ih, InsertionMap.get_delete, List.map_cons]
    by_cases hkey : key = entry.1
    · rw [if_pos hkey, ite_self, if_pos (hkey ▸ List.mem_cons_self)]
    · rw [if_neg hkey]
      simp only [List.mem_cons, hkey, false_or]

theorem takeConnections_eq (client : ThreadClient) (sessionId : Option String) :
    ∃ connectionFibers taken,
      client.takeConnections sessionId =
          (taken, { client with fibers := settleAll .stopping client.fibers taken, connectionFibers }) ∧
        (∀ key, connectionFibers.get key =
          if sessionId.all (fun sessionId => key = sessionId) then none else client.connectionFibers.get key) ∧
        (∀ key i, client.connectionFibers.get key = some i →
          sessionId.all (fun sessionId => key = sessionId) = true → i ∈ taken) ∧
        ((∀ key, sessionId.all (fun sessionId => key = sessionId) = true →
          client.connectionFibers.get key = none) → taken = []) := by
  rw [takeConnections]
  generalize htaken : client.connectionFibers.entries.filter (fun entry =>
    sessionId.all fun sessionId => entry.1 = sessionId) = taken
  have hmem : ∀ entry, entry ∈ taken ↔ client.connectionFibers.get entry.1 = some entry.2 ∧
      sessionId.all (fun sessionId => entry.1 = sessionId) = true := by
    intro entry
    rw [← htaken, List.mem_filter, InsertionMap.get_eq_some]
  refine ⟨taken.foldl (fun connectionFibers entry => connectionFibers.delete entry.1) client.connectionFibers,
    taken.map Prod.snd, ?_, ?_, ?_, ?_⟩
  · rw [foldl_setPhase]
  · intro key
    rw [get_foldl_delete]
    by_cases hall : sessionId.all (fun sessionId => key = sessionId) = true
    · rw [if_pos hall]
      split
      · rfl
      · next hnone =>
          refine Option.eq_none_iff_forall_ne_some.mpr fun i hget => hnone ?_
          exact List.mem_map.mpr ⟨(key, i), (hmem (key, i)).mpr ⟨hget, hall⟩, rfl⟩
    · rw [if_neg hall, if_neg]
      intro hkey
      obtain ⟨entry, hentry, rfl⟩ := List.mem_map.mp hkey
      exact hall ((hmem entry).mp hentry).2
  · intro key i hget hall
    exact List.mem_map.mpr ⟨(key, i), (hmem (key, i)).mpr ⟨hget, hall⟩, rfl⟩
  · intro hnone
    rw [List.map_eq_nil_iff, List.eq_nil_iff_forall_not_mem]
    intro entry hentry
    obtain ⟨hget, hall⟩ := (hmem entry).mp hentry
    rw [hnone entry.1 hall] at hget
    cases hget

theorem lines_connectForSelection (hopen : client.disposed = false)
    (hepoch : epoch = client.current.selectionEpoch) (sessionId : String) :
    (client.connectForSelection sessionId epoch).lines =
      { client.lines with
        fibers := client.lines.fibers ++ [⟨sessionId, client.lines.selectionEpoch, .running⟩]
        connectionFibers := client.lines.connectionFibers.set sessionId client.lines.fibers.length } := by
  subst hepoch
  rw [connectForSelection, if_pos ⟨hopen, rfl⟩]
  rfl

theorem lines_finishOpenChild (hopen : client.disposed = false) {epoch : Nat}
    (hepoch : epoch = client.current.selectionEpoch) (sessionId : String) (root : CachedProjection)
    (projection : ProjectionState) :
    (client.finishOpenChild sessionId root projection epoch).lines =
      { client.lines with
        fibers := client.lines.fibers ++ [⟨sessionId, client.lines.selectionEpoch, .running⟩]
        connectionFibers := client.lines.connectionFibers.set sessionId client.lines.fibers.length
        focusedSessionId := some sessionId } := by
  rw [finishOpenChild]
  dsimp only
  generalize hcached : ({ client with
    sessionProjections := client.sessionProjections.set sessionId ⟨root.execution, projection⟩
    focusedSessionId := some sessionId } : ThreadClient) = cached
  have hlines : cached.lines = { client.lines with focusedSessionId := some sessionId } := by
    rw [← hcached]
    rfl
  generalize hupdated : cached.updateProjection projection = updated
  have hupdated' : updated.lines = cached.lines := by rw [← hupdated, lines_updateProjection]
  generalize hpublished : updated.publish
    { updated.current with focusedSessionId := some sessionId, notice := "" } = published
  have hpublished' : published.lines = { client.lines with focusedSessionId := some sessionId } := by
    rw [← hpublished, lines_publish (by rfl), hupdated', hlines]
  rw [lines_connectForSelection, hpublished']
  · exact (congrArg Lines.disposed hpublished').trans hopen
  · rw [hepoch]
    exact (congrArg Lines.selectionEpoch hpublished').symm

theorem lines_finishBack : (client.finishBack.lines = client.lines ∧
        (client.rootFamily.bind fun family => client.sessionProjections.get family.rootSessionId) = none) ∨
      client.finishBack.lines = { client.lines with focusedSessionId := none } := by
  rw [finishBack]
  split
  · next hnone => exact .inl ⟨rfl, hnone⟩
  · right
    dsimp only
    rw [lines_publish (by rfl), lines_updateProjection]
    rfl

/-- What a call goes on to do is of the selection it was made in. -/
structure Ready (client : ThreadClient) (fibers : List Nat) (next : AfterStop) : Prop where
  epoch : ∀ epoch, next.epoch = some epoch → epoch ≤ client.lines.selectionEpoch
  serial : ∀ serial, next.openSerial = some serial → serial ≤ client.lines.childOpenSerial
  awaits : client.lines.Awaits (.stopping fibers next)
  selecting : next.selects = true → next.epoch = some client.lines.selectionEpoch → client.lines.selecting = []
  opening : next.openSerial = some client.lines.childOpenSerial → client.lines.opening = []
  stands : fibers = [] → client.StillStands next
  waited : fibers = [] → ∀ sessionId root projection previous epoch openSerial,
    next = .openChildSession sessionId root projection previous epoch openSerial →
      ∀ connection ∈ client.lines.fibers, connection.phase = .stopping → connection.sessionId ≠ sessionId

theorem afterStop_ordered (h : client.lines.Ordered []) {next : AfterStop} (hready : client.Ready [] next) :
    (client.afterStop next).lines.Ordered [] := by
  cases next with
  | selectThread threadId epoch =>
    rw [afterStop]
    split
    · exact h
    · next hopen =>
        rw [not_or, not_not] at hopen
        exact @Ordered.await _ _ h (.selectMetadata threadId epoch) hready.epoch (by rintro serial ⟨⟩) hready.awaits
          hready.selecting (by rintro ⟨⟩)
  | openChildSession sessionId root projection previous epoch openSerial =>
    have hlatest : client.lines.Latest epoch openSerial := hready.stands rfl
    obtain ⟨hleaves, hknows⟩ := hready.awaits hlatest
    rw [afterStop, @lines_finishOpenChild (client.forgetConnected previous) h.opened _ hlatest.1]
    exact h.openChild (hready.opening (congrArg some hlatest.2)) (h.rootOnly_of_leaves hleaves) hknows
      (hready.waited rfl _ _ _ _ _ _ rfl)
  | backToThread previous epoch openSerial =>
    rw [afterStop]
    have hforgotten : (client.forgetConnected previous).lines = client.lines := rfl
    rcases @lines_finishBack (client.forgetConnected previous) with ⟨hsame, -⟩ | hback
    · rw [hsame]
      exact h
    · rcases hready.stands rfl with hlatest | hnone
      · rw [hback, hforgotten]
        exact h.back (hready.opening (congrArg some hlatest.2)) (h.rootOnly_of_leaves (hready.awaits hlatest))
      · have hstays : (client.forgetConnected previous).finishBack = client.forgetConnected previous := by
          rw [finishBack]
          split
          · rfl
          · next root hroot =>
              rw [forgetConnected] at hroot
              cases hnone.symm.trans hroot
        rw [hstays]
        exact h
  | dispose => exact hready.awaits.elim

theorem interruptNext_ordered {fibers : List Nat} (h : client.lines.Ordered fibers) {next : AfterStop}
    (hready : client.Ready fibers next) : (client.interruptNext fibers next).lines.Ordered [] := by
  cases fibers with
  | nil => exact afterStop_ordered h hready
  | cons fiber fibers =>
    have hended := endFiber_ordered h (.inl rfl)
    rw [interruptNext]
    have hlines := @lines_endFiber client .interrupted fiber
    have hselecting : client.lines.selecting = [] → (client.endFiber .interrupted fiber).lines.selecting = [] := by
      intro hnil
      rw [hlines, Lines.selecting, List.filter_comm]
      rw [Lines.selecting] at hnil
      dsimp only
      rw [hnil]
      rfl
    have hopening : client.lines.opening = [] → (client.endFiber .interrupted fiber).lines.opening = [] := by
      intro hnil
      rw [hlines, Lines.opening, List.filter_comm]
      rw [Lines.opening] at hnil
      dsimp only
      rw [hnil]
      rfl
    have hepoch : (client.endFiber .interrupted fiber).lines.selectionEpoch = client.lines.selectionEpoch := by
      rw [hlines]
    have hserial : (client.endFiber .interrupted fiber).lines.childOpenSerial = client.lines.childOpenSerial := by
      rw [hlines]
    refine @Ordered.line _ (fiber :: fibers) hended _ ?_ ?_ ?_ ?_ ?_
    · rw [hepoch]
      exact hready.epoch
    · rw [hserial]
      exact hready.serial
    · rw [hlines]
      exact hready.awaits
    · rw [hepoch]
      exact fun hselects hsame => hselecting (hready.selecting hselects hsame)
    · rw [hserial]
      exact fun hsame => hopening (hready.opening hsame)

section

variable (h : client.lines.Ordered [])

include h

theorem takePrevious (previous : String) : ∃ taken fibers connectionFibers,
      client.takeConnections (some previous) = (taken, { client with fibers, connectionFibers }) ∧
        Ordered { client.lines with fibers, connectionFibers } taken ∧ connectionFibers.get previous = none ∧
        (taken = [] → client.connectionFibers.get previous = none ∧ fibers = client.fibers) := by
  obtain ⟨connectionFibers, taken, htake, hmap, htaken, -⟩ := takeConnections_eq client (some previous)
  refine ⟨taken, settleAll .stopping client.fibers taken, connectionFibers, htake, h.take (some previous) hmap htaken,
    ?_, ?_⟩
  · rw [hmap, if_pos (by simp)]
  · rintro rfl
    refine ⟨Option.eq_none_iff_forall_ne_some.mpr fun i hget => ?_, rfl⟩
    cases htaken previous i hget (by simp)

theorem continueOpenChild_ordered {sessionId : String} (root : CachedProjection)
    (projection : ProjectionState) {familySerial epoch openSerial : Nat}
    (hopening : openSerial = client.childOpenSerial → client.lines.opening = [])
    (hknows : familySerial = client.familySerial → client.lines.Knows sessionId)
    (hreopened : client.openChildStands root familySerial epoch openSerial = true →
      client.focusedSessionId = some sessionId → ∀ connection ∈ client.fibers, connection.sessionId = sessionId →
        connection.phase ≠ .running)
    (hwaited : client.openChildStands root familySerial epoch openSerial = true →
      (∀ previous, client.focusedSessionId = some previous → previous ≠ sessionId →
        client.connectionFibers.get previous = none) →
      ∀ connection ∈ client.fibers, connection.sessionId = sessionId → connection.phase ≠ .stopping) :
    (client.continueOpenChild sessionId root projection familySerial epoch openSerial).lines.Ordered [] := by
  rw [continueOpenChild]
  split
  · exact h
  · next hstands =>
      rw [Bool.not_eq_false] at hstands
      have hstood := hstands
      rw [openChildStands] at hstood
      simp only [Bool.and_eq_true, Bool.not_eq_true', decide_eq_true_eq] at hstood
      obtain ⟨⟨⟨⟨hopen, rfl⟩, rfl⟩, rfl⟩, -⟩ := hstood
      split
      · next previous hprevious =>
          obtain ⟨hfocused, hother⟩ := Option.filter_eq_some_iff.mp hprevious
          obtain ⟨taken, fibers, connectionFibers, htake, hordered, hleft, htaken⟩ := takePrevious h previous
          rw [stopConnection, htake]
          apply interruptNext_ordered hordered
          exact
            { epoch := by
                rintro epoch ⟨⟩
                exact Nat.le_refl _
              serial := by
                rintro serial ⟨⟩
                exact Nat.le_refl _
              awaits := fun _ => ⟨⟨hfocused, hleft⟩, hknows rfl⟩
              selecting := by rintro ⟨⟩
              opening := fun _ => hopening rfl
              stands := fun _ => ⟨rfl, rfl⟩
              waited := by
                intro hnil child root' projection' previous' epoch' openSerial' hnext connection hmem hstop
                cases hnext
                obtain ⟨hnone, rfl⟩ := htaken hnil
                refine fun hsame => hwaited hstands ?_ connection hmem hsame hstop
                intro other hother' _
                obtain rfl := Option.some_inj.mp (hfocused.symm.trans hother')
                exact hnone }
      · next hnone =>
          have hfocus : ∀ previous, client.focusedSessionId = some previous → previous = sessionId := by
            intro previous hprevious
            rw [hprevious, Option.filter_some] at hnone
            split at hnone
            · cases hnone
            · next hsame => simpa using hsame
          rw [lines_finishOpenChild hopen rfl]
          refine h.openChild (hopening rfl) (h.rootOnly ?_) (hknows rfl) ?_
          · intro i connection hi hrunning hfocused
            exact hreopened hstands (hfocus _ hfocused ▸ hfocused) connection (List.mem_of_getElem? hi)
              (hfocus _ hfocused) hrunning
          · intro connection hmem hstop hsame
            refine hwaited hstands ?_ connection hmem hsame hstop
            exact fun previous hprevious hother => absurd (hfocus previous hprevious) hother

theorem openChildSession_ordered (horderly : client.Orderly (.openChildSession sessionId)) :
    (client.openChildSession sessionId).lines.Ordered [] := by
  rw [openChildSession]
  split
  · exact h
  · split
    · exact h
    · next family hfamily =>
        split
        · exact h
        · next hchild =>
            rw [not_or, Bool.not_eq_false, List.any_eq_true] at hchild
            obtain ⟨⟨session, hmem, hid⟩, hother⟩ := hchild
            have hchild : ∃ session ∈ family.sessions, session.id = sessionId := ⟨session, hmem, of_decide_eq_true hid⟩
            split
            · exact h
            · next root hroot =>
                obtain ⟨hbump, hopening⟩ := h.bump
                dsimp only
                split
                · next cached hcached =>
                    have hopens : client.OpensChild sessionId (.openChildSession sessionId) :=
                      ⟨rfl, by rw [hcached]; rfl⟩
                    exact @continueOpenChild_ordered { client with childOpenSerial := client.childOpenSerial + 1 }
                      hbump _ root cached.projection _ _ _ (fun _ => hopening) (fun _ => ⟨family, hfamily, hchild, hother⟩)
                      (fun _ => horderly.reopened sessionId hopens)
                      fun _ hnone => horderly.waited sessionId (.inl ⟨hopens, hnone⟩)
                · refine @Ordered.await { client.lines with childOpenSerial := client.childOpenSerial + 1 } _ hbump _
                    ?_ ?_ ?_ ?_ ?_
                  · rintro epoch ⟨⟩
                    exact Nat.le_refl _
                  · rintro serial ⟨⟩
                    exact Nat.le_refl _
                  · exact ⟨Nat.le_refl _, fun _ => hfamily, hchild, hother⟩
                  · rintro ⟨⟩
                  · exact fun _ => hopening

theorem backToThread_ordered : client.backToThread.lines.Ordered [] := by
  rw [backToThread]
  split
  · exact h
  · next previous hfocused =>
      obtain ⟨hbump, hopening⟩ := h.bump
      obtain ⟨taken, fibers, connectionFibers, htake, hordered, hleft, -⟩ :=
        @takePrevious { client with childOpenSerial := client.childOpenSerial + 1 } hbump previous
      rw [stopConnection, htake]
      apply interruptNext_ordered hordered
      exact
        { epoch := by
            rintro epoch ⟨⟩
            exact Nat.le_refl _
          serial := by
            rintro serial ⟨⟩
            exact Nat.le_refl _
          awaits := fun _ => ⟨hfocused, hleft⟩
          selecting := by rintro ⟨⟩
          opening := fun _ => hopening
          stands := fun _ => .inl ⟨rfl, rfl⟩
          waited := by
            intro hnil child root projection previous' epoch openSerial hnext
            cases hnext }

theorem selectThread_ordered (threadId : String) :
    (client.selectThread threadId).lines.Ordered [] := by
  have hopen : ¬ client.disposed = true := Bool.not_eq_true _ ▸ h.opened
  rw [selectThread, if_neg hopen]
  dsimp only
  generalize hreset : ThreadClient.publish _ _ = reset
  have hlines : reset.lines =
      { client.lines with
        selectionEpoch := client.lines.selectionEpoch + 1
        childOpenSerial := client.lines.childOpenSerial + 1
        focusedSessionId := none
        rootFamily := none
        familySerial := client.lines.familySerial + 1 } := by
    rw [← hreset, publish]
    split
    · next hclosed => exact absurd hclosed hopen
    · rfl
  obtain ⟨connectionFibers, taken, htake, -, htaken, -⟩ := takeConnections_eq reset none
  have hmap : reset.connectionFibers = client.connectionFibers := congrArg Lines.connectionFibers hlines
  obtain ⟨hordered, hselecting⟩ := @Ordered.select _ h connectionFibers taken
    (fun key i hget => htaken key i (hmap ▸ hget) rfl) (client.lines.familySerial + 1) (Nat.lt_succ_self _)
  rw [stopConnection, htake]
  have htaken' : lines { reset with fibers := settleAll .stopping reset.fibers taken, connectionFibers } =
      { client.lines with
        selectionEpoch := client.lines.selectionEpoch + 1
        childOpenSerial := client.lines.childOpenSerial + 1
        fibers := settleAll .stopping client.lines.fibers taken
        connectionFibers
        focusedSessionId := none
        rootFamily := none
        familySerial := client.lines.familySerial + 1 } := by
    have hfibers : reset.fibers = client.fibers := congrArg Lines.fibers hlines
    rw [hfibers]
    exact congrArg
      (fun l : Lines => { l with fibers := settleAll .stopping client.lines.fibers taken, connectionFibers }) hlines
  apply interruptNext_ordered (htaken' ▸ hordered)
  exact
    { epoch := by
        rintro epoch ⟨⟩
        rw [htaken']
        exact Nat.le_refl _
      serial := by rintro serial ⟨⟩
      awaits := by
        rw [htaken']
        exact fun _ => ⟨rfl, rfl⟩
      selecting := by
        rw [htaken']
        exact fun _ _ => hselecting
      opening := by rintro ⟨⟩
      stands := fun _ => trivial
      waited := by
        intro _ child root projection previous epoch openSerial hnext
        cases hnext }

theorem finishSelect_ordered {threadId : String} {metadata : ThreadMetadata}
    {execution : ExecutionClient} {snapshot : HostSessionSnapshot}
    (hstands : client.stands epoch = true) (hselecting : client.lines.selecting = [])
    (hawaits : client.lines.rootFamily = none ∧ client.lines.focusedSessionId = none)
    (hpage : page.rootSessionId = sessionId)
    (hwaited : ∀ connection ∈ client.fibers, connection.sessionId = sessionId → connection.phase ≠ .stopping) :
    (client.finishSelect targetForThread threadId epoch metadata execution sessionId snapshot page).lines.Ordered [] := by
  subst hpage
  obtain ⟨hopen, rfl⟩ := stands_eq_true.mp hstands
  rw [finishSelect]
  dsimp only
  generalize hcached : ({ client.setRootFamily _ with
    selectedExecution := some execution
    sessionProjections := _ } : ThreadClient) = cached
  have hlines : cached.lines =
      { client.lines with
        rootFamily := some (familyProjection page none true)
        familySerial := client.lines.familySerial + 1 } := by
    rw [← hcached]
    rfl
  generalize hupdated : cached.updateProjection _ = updated
  have hupdated' : updated.lines = cached.lines := by rw [← hupdated, lines_updateProjection]
  generalize hpublished : updated.publish _ = published
  have hpublished' : published.lines = cached.lines := by
    rw [← hpublished, lines_publish (by rfl), hupdated']
  rw [lines_connectForSelection, hpublished', hlines]
  · exact h.finishSelect hselecting hawaits.1 hawaits.2 (familyProjection page none true) (Nat.lt_succ_self _)
      fun connection hmem hstop hsame => hwaited connection hmem hsame hstop
  · exact (congrArg Lines.disposed (hpublished'.trans hlines)).trans hopen
  · exact (congrArg Lines.selectionEpoch (hpublished'.trans hlines)).symm

end

theorem get_foldl_set_id (sessions : List RetainedSession) (known : InsertionMap String RetainedSession)
    (hknown : ∀ key session, known.get key = some session → session.id = key) :
    (∀ key session, (sessions.foldl (fun known session => known.set session.id session) known).get key = some session →
        session.id = key) ∧
      ∀ key, (known.get key).isSome = true ∨ (∃ session ∈ sessions, session.id = key) →
        ((sessions.foldl (fun known session => known.set session.id session) known).get key).isSome = true := by
  induction sessions generalizing known with
  | nil => exact ⟨hknown, fun key h => h.resolve_right (by simp)⟩
  | cons session sessions ih =>
    obtain ⟨hids, hthere⟩ := ih (known.set session.id session) (by
      intro key other hget
      rw [InsertionMap.get_set] at hget
      split at hget
      · next hkey =>
          cases hget
          exact hkey.symm
      · exact hknown key other hget)
    refine ⟨hids, fun key h => hthere key ?_⟩
    rw [InsertionMap.get_set]
    split
    · exact .inl rfl
    · next hkey =>
        refine h.imp_right ?_
        rintro ⟨other, hmem, hid⟩
        rcases List.mem_cons.mp hmem with rfl | hmem
        · exact absurd hid.symm hkey
        · exact ⟨other, hmem, hid⟩

theorem mem_familyProjection (page : FamilyPage) (before : FamilyProjection) (preserveAt : Bool)
    {session : RetainedSession} (hsession : session ∈ before.sessions) :
    ∃ later ∈ (familyProjection page (some before) preserveAt).sessions, later.id = session.id := by
  have hlist : InsertionMap.ofList (before.sessions.map fun session => (session.id, session)) =
      before.sessions.foldl (fun known session => known.set session.id session) .empty := by
    rw [InsertionMap.ofList, List.foldl_map]
  obtain ⟨hids, hthere⟩ := get_foldl_set_id before.sessions .empty (by rintro key session ⟨⟩)
  obtain ⟨hids', hthere'⟩ := get_foldl_set_id page.sessions _ hids
  obtain ⟨later, hlater⟩ := Option.isSome_iff_exists.mp
    (hthere' session.id (.inl (hthere session.id (.inr ⟨session, hsession, rfl⟩))))
  refine ⟨later, ?_, hids' _ _ hlater⟩
  rw [familyProjection]
  dsimp only [Option.map_some, Option.getD_some]
  rw [hlist]
  exact InsertionMap.mem_values.mpr ⟨session.id, hlater⟩

theorem finishLoadOlder_lines (epoch : Nat) (sessionId nextLeafId : String) (page : HistoryPage) :
    (client.finishLoadOlder epoch sessionId nextLeafId page).lines = client.lines := by
  rw [finishLoadOlder]
  split
  · rfl
  · exact lines_updateProjection _

section

variable (h : client.lines.Ordered [])

include h

theorem finishLoadMore_ordered (hpage : ∀ family, client.stands epoch = true → client.rootFamily = some family →
      page.rootSessionId = family.rootSessionId) : (client.finishLoadMore epoch page).lines.Ordered [] := by
  rw [finishLoadMore]
  split
  · exact h
  · next hopen =>
      have hstands : client.stands epoch = true := by
        rw [stands_eq_true]
        simpa [not_or] using hopen
      split
      · exact h
      · next before hbefore =>
          have hfamily := @Ordered.family _ _ h _ (familyProjection page (some before) true) hbefore (hpage before hstands hbefore)
            (fun session hsession => mem_familyProjection page before true hsession)
            _ (Nat.lt_succ_self client.lines.familySerial)
          dsimp only
          split
          · exact hfamily
          · split
            · rw [lines_updateProjection]
              exact hfamily
            · exact hfamily

theorem finishRefreshFamily_ordered
    (hawaits : epoch = client.lines.selectionEpoch → client.lines.rootFamily.isSome = true)
    (hpage : ∀ family, client.stands epoch = true → client.rootFamily = some family →
      page.rootSessionId = family.rootSessionId) : (client.finishRefreshFamily epoch page).lines.Ordered [] := by
  rw [finishRefreshFamily]
  split
  · exact h
  · next hopen =>
      have hstands : client.stands epoch = true := by
        rw [stands_eq_true]
        simpa [not_or] using hopen
      obtain ⟨before, hbefore⟩ := Option.isSome_iff_exists.mp (hawaits (stands_eq_true.mp hstands).2)
      have hbefore' : client.rootFamily = some before := hbefore
      rw [hbefore']
      have hordered := @Ordered.family _ _ h _ (familyProjection page (some before) false) hbefore
        (hpage before hstands hbefore) (fun session hsession => mem_familyProjection page before false hsession)
        _ (Nat.lt_succ_self client.lines.familySerial)
      generalize familyProjection page (some before) false = family at hordered
      -- the focus is on a session that the family knows
      have hfocus : (client.focusedSessionId.filter fun focused =>
          family.sessions.any fun session => session.id = focused) = client.focusedSessionId := by
        cases hfocused : client.focusedSessionId with
        | none => rfl
        | some focused =>
          obtain ⟨known, hknown, ⟨session, hsession, hid⟩, -⟩ := hordered.focus focused hfocused
          cases hknown
          rw [Option.filter_some, if_pos]
          exact List.any_eq_true.mpr ⟨session, hsession, decide_eq_true hid⟩
      have hrebuilt : (client.rebuildProjections family).lines =
          { client.lines with rootFamily := some family, familySerial := client.lines.familySerial + 1 } := by
        rw [rebuildProjections, hfocus]
        rfl
      dsimp only
      rw [lines_publish (by rfl)]
      split
      · rw [hrebuilt]
        exact hordered
      · rw [lines_updateProjection, hrebuilt]
        exact hordered

theorem await_ordered (hepoch : ∀ epoch, continuation.epoch = some epoch → epoch ≤ client.lines.selectionEpoch)
    (hserial : continuation.openSerial = none) (hawaits : client.lines.Awaits continuation)
    (hselecting : continuation.selects = true → continuation.epoch = some client.lines.selectionEpoch →
      client.lines.selecting = []) : (client.await continuation).lines.Ordered [] :=
  h.await hepoch (fun serial hsome => by rw [hserial] at hsome; cases hsome) hawaits hselecting
    (fun hsome => by rw [hserial] at hsome; cases hsome)

theorem publish_ordered
    (hepoch : next.selectionEpoch = client.current.selectionEpoch) : (client.publish next).lines.Ordered [] := by
  rw [lines_publish hepoch]
  exact h

theorem resume_ordered {index : Nat} {answer : Answer}
    (horderly : client.Orderly (.resume index answer))
    (hindex : client.pending[index]? = some continuation) :
    (ThreadClient.resume { client with pending := client.pending.eraseIdx index } targetForThread continuation
      answer).lines.Ordered [] := by
  have hmem := List.mem_of_getElem? hindex
  have hepochs := h.epochs continuation hmem
  have hserials := h.serials continuation hmem
  have hawaits := h.awaits continuation hmem
  have herased := h.erase hindex
  have hselecting := fun hselects hepoch => selecting_erase h hindex hselects hepoch
  have hopening := fun hserial => opening_erase h hindex hserial
  unfold resume
  split
  · next fibers next =>
      have hordered : lines { client with pending := client.pending.eraseIdx index } |>.Ordered fibers.tail := by
        have hqueue := List.append_nil fibers.tail
        exact hqueue ▸ herased
      apply interruptNext_ordered hordered
      exact
        { epoch := hepochs
          serial := hserials
          awaits := by cases next <;> exact hawaits
          selecting := hselecting
          opening := hopening
          stands := fun hnil => by
            have hstands := horderly.stands index answer fibers next rfl hindex hnil
            cases next <;> exact hstands
          waited := by
            rintro hnil sessionId root projection previous epoch openSerial rfl connection hconnection hstop hsame
            refine horderly.waited sessionId (.inr ⟨index, answer, rfl, .inl ?_⟩) connection hconnection hsame hstop
            exact ⟨fibers, root, projection, previous, epoch, openSerial, hnil, hindex⟩ }
  · split
    · next hstands => exact await_ordered herased hepochs rfl hawaits hselecting
    · exact herased
  · split
    · next hstands => exact await_ordered herased hepochs rfl hawaits hselecting
    · exact herased
  · split
    · next hstands => exact await_ordered herased hepochs rfl hawaits hselecting
    · exact herased
  · exact await_ordered herased hepochs rfl hawaits hselecting
  · next threadId epoch metadata execution sessionId snapshot page =>
      split
      · next hstands =>
          have hepoch := (stands_eq_true.mp hstands).2
          refine finishSelect_ordered herased hstands (hselecting rfl (congrArg some hepoch)) (hawaits hepoch) ?_ ?_
          · exact horderly.family index page _ sessionId rfl hindex ⟨hstands, rfl⟩
          · exact horderly.waited sessionId
              (.inr ⟨index, _, rfl, .inr ⟨threadId, epoch, metadata, execution, snapshot, page, rfl, hstands, hindex⟩⟩)
      · exact herased
  · next sessionId root family familySerial epoch openSerial snapshot =>
      have hopens : client.openChildStands root familySerial epoch openSerial = true →
          client.OpensChild sessionId (.resume index (.snapshot snapshot)) := fun hstands =>
        ⟨root, family, familySerial, epoch, openSerial, hindex, hstands⟩
      exact continueOpenChild_ordered herased root _ (fun hserial => hopening (congrArg some hserial))
        (fun hserial => ⟨family, hawaits.2.1 hserial, hawaits.2.2⟩)
        (fun hstands => horderly.reopened sessionId (hopens hstands))
        fun hstands hnone => horderly.waited sessionId (.inl ⟨hopens hstands, hnone⟩)
  · next epoch sessionId nextLeafId page =>
      have hlines := @finishLoadOlder_lines { client with pending := client.pending.eraseIdx index } epoch
        sessionId nextLeafId page
      exact hlines ▸ herased
  · exact herased
  · next epoch page =>
      exact finishLoadMore_ordered herased fun family hstands hfamily =>
        horderly.family index page _ family.rootSessionId rfl hindex ⟨hstands, family, hfamily, rfl⟩
  · exact herased
  · next fiber epoch page =>
      exact finishRefreshFamily_ordered herased hawaits fun family hstands hfamily =>
        horderly.family index page _ family.rootSessionId rfl hindex ⟨hstands, family, hfamily, rfl⟩
  · dsimp only
    split
    · exact publish_ordered herased rfl
    · exact herased
  · exact herased
  · cases continuation with
    | stopping fibers next =>
      have hother : ∀ others other, Continuation.stopping fibers next = .stopping others other → False := by assumption
      exact (hother fibers next rfl).elim
    | _ => exact herased

theorem step_ordered {input : Input} (hinput : input ≠ .dispose)
    (horderly : client.Orderly input) : (step targetForThread client input).lines.Ordered [] := by
  cases input with
  | selectThread threadId => exact selectThread_ordered h threadId
  | openChildSession sessionId => exact openChildSession_ordered h horderly
  | backToThread => exact backToThread_ordered h
  | loadOlder =>
    rw [step, loadOlder]
    split
    · split
      · exact h
      · split
        · exact h
        · refine @Ordered.await client.lines _ h _ ?_ ?_ trivial ?_ ?_
          · rintro epoch ⟨⟩
            exact Nat.le_refl _
          · rintro serial ⟨⟩
          · rintro ⟨⟩
          · rintro ⟨⟩
    · exact h
  | loadMoreCollaborators =>
    rw [step, loadMoreCollaborators]
    split
    · exact h
    · next family hfamily =>
        split
        · exact h
        · refine @Ordered.await client.lines _ h _ ?_ ?_ ?_ ?_ ?_
          · rintro epoch ⟨⟩
            exact Nat.le_refl _
          · rintro serial ⟨⟩
          · exact fun _ => Option.isSome_iff_exists.mpr ⟨family, hfamily⟩
          · rintro ⟨⟩
          · rintro ⟨⟩
  | resume index answer =>
    rw [step]
    split
    · exact h
    · next continuation hindex => exact resume_ordered h horderly hindex
  | event fiber event =>
    rw [step]
    split
    · exact h
    · rw [lines_observeEvent]
      exact h
  | status fiber status =>
    rw [step]
    split
    · exact h
    · next connection _ =>
        rcases @lines_observeStatus client status fiber connection.epoch connection.sessionId with
          hsame | ⟨hepoch, hfamily, hrefresh⟩
        · exact hsame ▸ h
        · rw [hrefresh]
          refine h.await ?_ ?_ ?_ ?_ ?_
          · rintro epoch ⟨⟩
            exact Nat.le_of_eq hepoch
          · rintro serial ⟨⟩
          · exact fun _ => hfamily
          · rintro ⟨⟩
          · rintro ⟨⟩
  | failed fiber message =>
    rw [step]
    split
    · exact h
    · rw [lines_connectionFailed]
      exact endFiber_ordered (h.enqueue (by simp)) (.inr rfl)
  | ended fiber => exact endFiber_ordered (h.enqueue (by simp)) (.inr rfl)
  | dispose => exact absurd rfl hinput

end

end ThreadClient

end Rika
