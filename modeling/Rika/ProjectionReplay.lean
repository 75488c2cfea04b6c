import Rika.Projection

namespace Rika.Projection

def foldLog (initial : HostSessionSnapshot) (log : List CommittedBody) : Option HostSessionSnapshot :=
  log.foldlM (fun snapshot body => (applyBody snapshot body).map fun updated =>
    { updated with cursor := snapshot.cursor + 1 }) initial

variable {initial : HostSessionSnapshot} {log : List CommittedBody}

def ConversationAt (initial : HostSessionSnapshot) (log : List CommittedBody) (cursor : Nat)
    (conversation : Conversation) : Prop :=
  ∃ count ≤ log.length, cursor = initial.cursor + count ∧
    ∃ folded, foldLog initial (log.take count) = some folded ∧ folded.conversation = conversation

/-- What the host answers about some prefix of the log. Its runs and its session
are the host's own. -/
structure HostSnapshot (initial : HostSessionSnapshot) (log : List CommittedBody) where
  snapshot : HostSessionSnapshot
  session : snapshot.session.id = initial.session.id
  conversation : ConversationAt initial log snapshot.cursor snapshot.conversation

/-- What reaches the client: events of the log in any order, snapshots of the
host, previews and changes of the connection. -/
inductive Delivery (initial : HostSessionSnapshot) (log : List CommittedBody)
  | committed (index : Fin log.length)
  | snapshot (epoch : Int) (host : HostSnapshot initial log)
  | preview (delivery : PreviewDelivery)
  | status (status : ConnectionStatus)

def ProjectionResult.isApplied : ProjectionResult → Bool
  | .applied _ => true
  | .ignored _ | .rejected _ _ => false

def PreviewBody.isModelPreview : PreviewBody → Bool
  | .modelPreview _ => true
  | .modelPreviewCleared _ => false

/-- The client's state beside what it was told: the snapshot installed last, the connection status delivered last, and
whether the thread was built from the snapshot since that status. -/
structure Replica where
  state : ProjectionState
  installed : HostSessionSnapshot
  status : Option ConnectionStatus := none
  rebuilt : Bool := true

namespace Replica

def observe (replica : Replica) (rebuilds : Bool) (result : ProjectionResult) : Replica :=
  { replica with state := result.state, rebuilt := replica.rebuilt || rebuilds && result.isApplied }

def deliver (replica : Replica) : Delivery initial log → Replica
  | .committed index =>
    let event := .committed initial.session.id (initial.cursor + index + 1) (log.get index)
    replica.observe true (applyConnectionEvent replica.state event)
  | .snapshot epoch host =>
    match applyConnectionEvent replica.state (.connectionSnapshot epoch host.snapshot) with
    | .applied state => { replica with state, installed := host.snapshot, rebuilt := true }
    | .ignored state | .rejected state _ => { replica with state }
  | .preview delivery =>
    replica.observe delivery.body.isModelPreview (applyConnectionEvent replica.state (.previewDelivery delivery))
  | .status status =>
    { replica with state := applyConnectionStatus replica.state status, status := some status, rebuilt := false }

def start (first : HostSnapshot initial log) (threadId : Option String) (target : Option Target)
    (family : Option FamilyProjection) : Replica where
  state := projectSnapshot { sessionId := initial.session.id, threadId, snapshot := first.snapshot, target, family }
  installed := first.snapshot

def replay (replica : Replica) (deliveries : List (Delivery initial log)) : Replica := deliveries.foldl deliver replica

/-- The client shows the conversation of the log at its cursor, with the session and the runs of the snapshot it
installed last. It reads waiting from a status other than connected until the thread is built again. -/
structure Replays (initial : HostSessionSnapshot) (log : List CommittedBody) (replica : Replica) : Prop where
  sessionId : replica.state.sessionId = initial.session.id
  cursor : replica.state.snapshot.cursor = replica.state.committedCursor
  conversation : ConversationAt initial log replica.state.committedCursor replica.state.snapshot.conversation
  session : replica.state.snapshot.session = replica.installed.session
  runs : replica.state.snapshot.runs = replica.installed.runs
  pending : replica.state.thread.pending = pendingFromSnapshot replica.installed
  activity : replica.state.thread.activity =
    if replica.rebuilt = true ∨ replica.status = some .connected then activityFromSnapshot replica.installed else .waiting

end Replica

variable {snapshot other : HostSessionSnapshot}

theorem applyConversation_congr (h : snapshot.conversation = other.conversation) (update : ConversationUpdate) :
    (applyConversation snapshot update).map (·.conversation) = (applyConversation other update).map (·.conversation) := by
  rw [applyConversation, applyConversation, h]
  split <;> rfl

theorem applyBody_congr (h : snapshot.conversation = other.conversation) (body : CommittedBody) :
    (applyBody snapshot body).map (·.conversation) = (applyBody other body).map (·.conversation) := by
  cases body with
  | conversation update => exact applyConversation_congr h update
  | other _ _ => exact congrArg some h

theorem applyBody_frame {updated : HostSessionSnapshot} {body : CommittedBody}
    (h : applyBody snapshot body = some updated) : updated.session = snapshot.session ∧ updated.runs = snapshot.runs := by
  cases body with
  | conversation update =>
    rw [applyBody, applyConversation] at h
    split at h <;> cases h
    exact ⟨rfl, rfl⟩
  | other _ _ =>
    cases h
    exact ⟨rfl, rfl⟩

theorem ConversationAt.start (initial : HostSessionSnapshot) (log : List CommittedBody) :
    ConversationAt initial log initial.cursor initial.conversation :=
  ⟨0, Nat.zero_le _, rfl, initial, rfl, rfl⟩

theorem ConversationAt.next {cursor : Nat} {snapshot updated : HostSessionSnapshot}
    (h : ConversationAt initial log cursor snapshot.conversation) {index : Fin log.length}
    (hcursor : initial.cursor + index + 1 = cursor + 1) (hupdated : applyBody snapshot (log.get index) = some updated) :
    ConversationAt initial log (cursor + 1) updated.conversation := by
  obtain ⟨count, hcount, rfl, folded, hfolded, hconversation⟩ := h
  have hindex : count = index := by omega
  subst hindex
  obtain ⟨next, hnext, hsame⟩ : ∃ next, applyBody folded (log.get index) = some next ∧
      next.conversation = updated.conversation := by
    have hcongr := applyBody_congr hconversation (log.get index)
    rw [hupdated] at hcongr
    exact Option.map_eq_some_iff.mp hcongr
  refine ⟨index + 1, index.isLt, by omega, { next with cursor := folded.cursor + 1 }, ?_, hsame⟩
  rw [List.take_succ_eq_append_getElem index.isLt, foldLog, List.foldlM_append]
  rw [foldLog] at hfolded
  rw [hfolded]
  change (Option.map _ (applyBody folded (log.get index))) >>= _ = _
  rw [hnext]
  rfl

namespace Replica

variable {replica : Replica}

variable {snapshot other : HostSessionSnapshot}

theorem activityFromSnapshot_congr (hsession : snapshot.session = other.session)
    (hruns : snapshot.runs = other.runs) : activityFromSnapshot snapshot = activityFromSnapshot other := by
  simp only [activityFromSnapshot, itemStatus, hsession, hruns]

theorem pendingFromSnapshot_congr (hsession : snapshot.session = other.session) :
    pendingFromSnapshot snapshot = pendingFromSnapshot other := by
  rw [pendingFromSnapshot, pendingFromSnapshot, hsession]

theorem Replays.of_thread (h : Replays initial log replica) {state : ProjectionState}
    {status : Option ConnectionStatus} {rebuilt : Bool} (hsessionId : state.sessionId = replica.state.sessionId)
    (hsnapshot : state.snapshot = replica.state.snapshot) (hcursor : state.committedCursor = replica.state.committedCursor)
    (hpending : state.thread.pending = replica.state.thread.pending ∨
      state.thread.pending = pendingFromSnapshot replica.state.snapshot)
    (hactivity : state.thread.activity =
      if rebuilt = true ∨ status = some .connected then activityFromSnapshot replica.state.snapshot else .waiting) :
    Replays initial log { replica with state, status, rebuilt } := by
  constructor
  · exact hsessionId.trans h.sessionId
  · change state.snapshot.cursor = state.committedCursor
    rw [hsnapshot, hcursor, h.cursor]
  · change ConversationAt initial log state.committedCursor state.snapshot.conversation
    rw [hsnapshot, hcursor]
    exact h.conversation
  · change state.snapshot.session = _
    rw [hsnapshot, h.session]
  · change state.snapshot.runs = _
    rw [hsnapshot, h.runs]
  · rcases hpending with hpending | hpending
    · exact hpending.trans h.pending
    · exact hpending.trans (pendingFromSnapshot_congr h.session)
  · rwa [activityFromSnapshot_congr h.session h.runs] at hactivity

theorem Replays.observe (h : Replays initial log replica) {rebuilds : Bool} {result : ProjectionResult}
    (hsessionId : result.state.sessionId = replica.state.sessionId)
    (hsnapshot : result.state.snapshot = replica.state.snapshot)
    (hcursor : result.state.committedCursor = replica.state.committedCursor)
    (hpending : result.state.thread.pending = replica.state.thread.pending ∨
      result.state.thread.pending = pendingFromSnapshot replica.state.snapshot)
    (hactivity : result.state.thread.activity = bif rebuilds && result.isApplied then
      activityFromSnapshot replica.state.snapshot else replica.state.thread.activity) :
    Replays initial log (replica.observe rebuilds result) := by
  refine h.of_thread hsessionId hsnapshot hcursor hpending (hactivity.trans ?_)
  cases rebuilds && result.isApplied with
  | true => rw [Bool.or_true, if_pos (.inl rfl), cond_true]
  | false => rw [Bool.or_false, cond_false, h.activity, activityFromSnapshot_congr h.session h.runs]

theorem start_replays (first : HostSnapshot initial log) (threadId : Option String) (target : Option Target)
    (family : Option FamilyProjection) : Replays initial log (start first threadId target family) :=
  ⟨rfl, rfl, first.conversation, rfl, rfl, rfl, rfl⟩

section

variable (h : Replays initial log replica)

include h

theorem applyPreview_replays (delivery : PreviewDelivery) :
    Replays initial log (replica.observe delivery.body.isModelPreview (applyPreview replica.state delivery)) := by
  have hsame {result : ProjectionResult} (hstate : result.state = replica.state)
      (happlied : (delivery.body.isModelPreview && result.isApplied) = false) :
      Replays initial log (replica.observe delivery.body.isModelPreview result) := by
    apply h.observe <;> rw [hstate]
    · exact .inl rfl
    · rw [happlied, cond_false]
  rw [applyPreview]
  split
  · exact hsame rfl (Bool.and_false _)
  · split
    · next preview hbody =>
        rw [applyModelPreview]
        split
        · exact hsame rfl (Bool.and_false _)
        · split
          · exact hsame rfl (Bool.and_false _)
          · split
            · exact hsame rfl (Bool.and_false _)
            · rw [hbody]
              exact h.observe rfl rfl rfl (.inr rfl) rfl
    · next generation hbody =>
        rw [applyModelPreviewCleared]
        split
        · exact hsame rfl (Bool.and_false _)
        · rw [hbody]
          exact h.observe rfl rfl rfl (.inl rfl) rfl

theorem applyConnectionStatus_replays (status : ConnectionStatus) : Replays initial log
      { replica with state := applyConnectionStatus replica.state status, status := some status, rebuilt := false } := by
  cases status <;> exact h.of_thread rfl rfl rfl (.inl rfl) rfl

theorem applyCommitted_replays (index : Fin log.length) : Replays initial log
      (replica.observe true (applyCommitted replica.state (initial.cursor + index + 1) (log.get index))) := by
  rw [applyCommitted]
  split
  · exact h.observe rfl rfl rfl (.inl rfl) rfl
  · split
    · exact h.observe rfl rfl rfl (.inl rfl) rfl
    · next hcursor =>
        rw [not_not] at hcursor
        split
        · exact h.observe rfl rfl rfl (.inl rfl) rfl
        · next updated hupdated =>
            obtain ⟨hsession, hruns⟩ := applyBody_frame hupdated
            constructor
            · exact h.sessionId
            · rfl
            · change ConversationAt initial log (initial.cursor + index + 1) updated.conversation
              rw [hcursor]
              exact h.conversation.next hcursor hupdated
            · exact hsession.trans h.session
            · exact hruns.trans h.runs
            · exact pendingFromSnapshot_congr (hsession.trans h.session)
            · change activityFromSnapshot updated = _
              rw [Replica.observe, Bool.true_and, ProjectionResult.isApplied, Bool.or_true, if_pos (.inl rfl)]
              exact activityFromSnapshot_congr (hsession.trans h.session) (hruns.trans h.runs)

theorem deliver_replays (delivery : Delivery initial log) :
    Replays initial log (replica.deliver delivery) := by
  cases delivery with
  | committed index =>
    rw [deliver, applyConnectionEvent, if_neg (not_not.mpr h.sessionId.symm)]
    exact applyCommitted_replays h index
  | snapshot epoch host =>
    rw [deliver, applyConnectionEvent, applyConnectionSnapshot, if_neg (not_not.mpr (host.session.trans h.sessionId.symm))]
    split_ifs
    · exact h
    · exact ⟨h.sessionId, rfl, host.conversation, rfl, rfl, rfl, rfl⟩
  | preview delivery => exact applyPreview_replays h delivery
  | status status => exact applyConnectionStatus_replays h status

theorem replay_replays (deliveries : List (Delivery initial log)) :
    Replays initial log (replica.replay deliveries) := by
  induction deliveries generalizing replica with
  | nil => exact h
  | cons delivery deliveries ih => exact ih (deliver_replays h delivery)

end

theorem committedCursor_applyPreview (state : ProjectionState) (delivery : PreviewDelivery) :
    (applyPreview state delivery).state.committedCursor = state.committedCursor := by
  rw [applyPreview]
  split
  · rfl
  · split
    · rw [applyModelPreview]
      split
      · rfl
      · split
        · rfl
        · split <;> rfl
    · rw [applyModelPreviewCleared]
      split <;> rfl

theorem committedCursor_applyCommitted (state : ProjectionState) (cursor : Nat) (body : CommittedBody) :
    state.committedCursor ≤ (applyCommitted state cursor body).state.committedCursor := by
  rw [applyCommitted]
  split
  · exact Nat.le_refl _
  · next hnew =>
      split
      · exact Nat.le_refl _
      · split
        · exact Nat.le_refl _
        · exact Nat.le_of_lt (Nat.lt_of_not_le hnew)

theorem committedCursor_deliver (replica : Replica) (delivery : Delivery initial log) :
    replica.state.committedCursor ≤ (replica.deliver delivery).state.committedCursor ∨
      ∃ epoch host, delivery = .snapshot epoch host ∧ (replica.deliver delivery).installed = host.snapshot ∧
        (replica.deliver delivery).state.committedCursor = host.snapshot.cursor := by
  cases delivery with
  | committed index =>
    left
    rw [deliver, applyConnectionEvent]
    split
    · exact Nat.le_refl _
    · exact committedCursor_applyCommitted _ _ _
  | snapshot epoch host =>
    rw [deliver, applyConnectionEvent, applyConnectionSnapshot]
    split_ifs
    · exact .inl (Nat.le_refl _)
    · exact .inl (Nat.le_refl _)
    · exact .inr ⟨epoch, host, rfl, rfl, rfl⟩
  | preview delivery => exact .inl (Nat.le_of_eq (committedCursor_applyPreview _ _).symm)
  | status status =>
    left
    cases status <;> exact Nat.le_refl _

/-- In whatever order events come, the conversation is the log's at its cursor; status and queue are of the last
snapshot. -/
theorem replay_order_independent (first : HostSnapshot initial log) (threadId : Option String) (target : Option Target)
    (family : Option FamilyProjection) (deliveries : List (Delivery initial log)) :
    let replica := (start first threadId target family).replay deliveries
    Replays initial log replica ∧
      ∀ delivery : Delivery initial log,
        replica.state.committedCursor ≤ (replica.deliver delivery).state.committedCursor ∨
          ∃ epoch host, delivery = .snapshot epoch host ∧ (replica.deliver delivery).installed = host.snapshot ∧
            (replica.deliver delivery).state.committedCursor = host.snapshot.cursor :=
  ⟨replay_replays (start_replays first threadId target family) deliveries, committedCursor_deliver _⟩

def sampleInitial : HostSessionSnapshot :=
  ⟨⟨"session", none, none, none, []⟩, 0, [], ⟨none, [], none⟩⟩

def sampleLog : List CommittedBody := [.other "RunStarted" "run"]

def sampleFirst : HostSnapshot sampleInitial sampleLog := ⟨sampleInitial, rfl, .start _ _⟩

def sampleStarted : Delivery sampleInitial sampleLog := .committed ⟨0, by decide⟩

def sampleHost : HostSnapshot sampleInitial sampleLog where
  snapshot :=
    ⟨⟨"session", none, none, some "run", [⟨"queued", 1, []⟩]⟩, 1, [⟨"run", "run", none, .other "running", none⟩],
      ⟨none, [], none⟩⟩
  session := rfl
  conversation := ⟨1, Nat.le_refl 1, rfl, _, rfl, rfl⟩

/-- The event of the log and a snapshot of the host take two clients to one cursor,
where they show another status and another queue. -/
theorem status_depends_on_snapshots :
    let left := (start sampleFirst none none none).replay [sampleStarted]
    let right := (start sampleFirst none none none).replay [.snapshot 0 sampleHost]
    (left.state.committedCursor = 1 ∧ left.state.needsSnapshot = false) ∧
      (right.state.committedCursor = 1 ∧ right.state.needsSnapshot = false) ∧
        left.state.thread.activity = .idle ∧ right.state.thread.activity = .working ∧
          left.state.thread.pending ≠ right.state.thread.pending := by
  decide

end Replica

end Rika.Projection
