import Mathlib.Data.List.Induction
import Rika.WebSocketBridge

namespace Rika.WebSocketBridge

variable {α : Type} {webSocketDataSize : α → Nat} {bridge : Bridge α}

section Calls

theorem attempted_append (calls later : List (Call α)) :
    attempted (calls ++ later) = attempted calls ++ attempted later := List.filterMap_append

theorem delivered_append (calls later : List (Call α)) :
    delivered (calls ++ later) = delivered calls ++ delivered later := List.filterMap_append

theorem SilentAfterClose.append {calls later : List (Call α)} (hcalls : SilentAfterClose calls)
    (hlater : SilentAfterClose later)
    (h : (∀ call ∈ calls, call.closes = false) ∨ ∀ call ∈ later, call.closes = true) :
    SilentAfterClose (calls ++ later) := by
  refine List.pairwise_append.mpr ⟨hcalls, hlater, fun call hcall next hnext hcloses => ?_⟩
  cases h with
  | inl hopen =>
    rw [hopen call hcall] at hcloses
    cases hcloses
  | inr hclosed => exact hclosed next hnext

end Calls

section Listeners

/-- What is sent are the first of the messages that wait; a failed send or a close is the last call. -/
structure Moved (waiting : List α) (next : Bridge α) (calls : List (Call α)) : Prop where
  attempts : attempted calls <+: waiting
  deliveries : delivered calls <+: attempted calls
  unfailed : next.closed = false → attempted calls = delivered calls
  pending : next.closed = false → delivered calls ++ next.pending = waiting
  quiet : next.closed = false → ∀ call ∈ calls, call.closes = false
  ended : next.closed = true → next.pending = [] ∧ next.pendingBytes = 0
  silent : SilentAfterClose calls
  upstream : calls.countP Call.closesUpstream ≤ 1
  downstream : calls.countP Call.closesDownstream ≤ 1

theorem Moved.stay (bridge : Bridge α) (hopen : bridge.closed = false) : Moved bridge.pending bridge [] where
  attempts := List.nil_prefix
  deliveries := List.nil_prefix
  unfailed _ := rfl
  pending _ := rfl
  quiet _ call hcall := by cases hcall
  ended hclosed := by rw [hopen] at hclosed; cases hclosed
  silent := List.Pairwise.nil
  upstream := Nat.zero_le 1
  downstream := Nat.zero_le 1

theorem closed_closeBoth (bridge : Bridge α) (hopen : bridge.closed = false) {code : Nat} {reason : String}
    {closeUpstream closeDownstream : Bool} :
    (bridge.closeBoth code reason closeUpstream closeDownstream).1.closed = true := by
  rw [Bridge.closeBoth, if_neg (by rw [hopen]; exact Bool.false_ne_true)]

theorem Moved.closeBoth (bridge : Bridge α) (waiting : List α) (hopen : bridge.closed = false) (code : Nat) (reason : String)
    (closeUpstream closeDownstream : Bool) :
    Moved waiting (bridge.closeBoth code reason closeUpstream closeDownstream).1
      (bridge.closeBoth code reason closeUpstream closeDownstream).2 := by
  rw [Bridge.closeBoth, if_neg (by rw [hopen]; exact Bool.false_ne_true)]
  have hnil : attempted ((if closeUpstream then [Call.upstreamClose code reason] else []) ++
      if closeDownstream then [Call.downstreamClose code reason] else [] : List (Call α)) = [] := by
    cases closeUpstream <;> cases closeDownstream <;> rfl
  have hdelivered : delivered ((if closeUpstream then [Call.upstreamClose code reason] else []) ++
      if closeDownstream then [Call.downstreamClose code reason] else [] : List (Call α)) = [] := by
    cases closeUpstream <;> cases closeDownstream <;> rfl
  constructor
  · rw [hnil]
    exact List.nil_prefix
  · rw [hdelivered]
    exact List.nil_prefix
  · intro h
    cases h
  · intro h
    cases h
  · intro h
    cases h
  · exact fun _ => ⟨rfl, rfl⟩
  · cases closeUpstream <;> cases closeDownstream <;> simp [SilentAfterClose, Call.closes, Call.closesDownstream]
  · cases closeUpstream <;> cases closeDownstream <;> simp [List.countP_cons, Call.closesUpstream]
  · cases closeUpstream <;> cases closeDownstream <;> simp [List.countP_cons, Call.closesDownstream]

variable {waiting : List α} {next : Bridge α} {calls : List (Call α)}

theorem Moved.sent (h : Moved waiting next calls) (data : α) :
    Moved (data :: waiting) next (.upstreamSend data false :: calls) where
  attempts := List.cons_prefix_cons.mpr ⟨rfl, h.attempts⟩
  deliveries := List.cons_prefix_cons.mpr ⟨rfl, h.deliveries⟩
  unfailed hopen := congrArg (data :: ·) (h.unfailed hopen)
  pending hopen := congrArg (data :: ·) (h.pending hopen)
  quiet hopen := List.forall_mem_cons.mpr ⟨rfl, h.quiet hopen⟩
  ended := h.ended
  silent := List.Pairwise.cons (fun _ _ hcloses => by cases hcloses) h.silent
  upstream := h.upstream
  downstream := h.downstream

theorem Moved.received (h : Moved waiting next calls)
    (data : α) (threw : Bool) : Moved waiting next (.downstreamSend data threw :: calls) where
  attempts := h.attempts
  deliveries := h.deliveries
  unfailed := h.unfailed
  pending := h.pending
  quiet hopen := List.forall_mem_cons.mpr ⟨rfl, h.quiet hopen⟩
  ended := h.ended
  silent := List.Pairwise.cons (fun _ _ hcloses => by cases hcloses) h.silent
  upstream := h.upstream
  downstream := h.downstream

theorem Moved.failed (bridge : Bridge α) (waiting : List α) (hopen : bridge.closed = false) (data : α) (reason : String) :
    Moved (data :: waiting) (bridge.closeBoth 1011 reason true true).1
      (.upstreamSend data true :: (bridge.closeBoth 1011 reason true true).2) := by
  have h := Moved.closeBoth bridge waiting hopen 1011 reason true true
  rw [Bridge.closeBoth, if_neg (by rw [hopen]; exact Bool.false_ne_true)] at h ⊢
  refine ⟨List.cons_prefix_cons.mpr ⟨rfl, h.attempts⟩, List.nil_prefix, ?_, ?_, ?_, h.ended, ?_, h.upstream, h.downstream⟩
  · intro hclosed
    cases hclosed
  · intro hclosed
    cases hclosed
  · intro hclosed
    cases hclosed
  · exact List.Pairwise.cons (fun _ _ hcloses => by cases hcloses) h.silent

theorem Moved.flush (throws : Nat → Bool) (bridge : Bridge α) (pending : List α) (hopen : bridge.closed = false) :
    Moved pending (bridge.flush webSocketDataSize throws pending).1
        (bridge.flush webSocketDataSize throws pending).2 ∧
      (bridge.flush webSocketDataSize throws pending).1.pending = [] := by
  induction pending generalizing bridge with
  | nil => exact ⟨Moved.stay { bridge with pending := [] } hopen, rfl⟩
  | cons data pending ih =>
    let shifted := { bridge with
      pending := pending
      pendingBytes := bridge.pendingBytes - webSocketDataSize data }
    rw [Bridge.flush]
    by_cases hthrows : throws pending.length = true
    · rw [if_pos hthrows]
      refine ⟨Moved.failed shifted pending hopen data _, ?_⟩
      exact ((Moved.closeBoth shifted pending hopen 1011 _ true true).ended (closed_closeBoth shifted hopen)).1
    · rw [if_neg hthrows]
      exact ⟨Moved.sent (ih shifted hopen).1 data, (ih shifted hopen).2⟩

theorem Moved.step (hopen : bridge.closed = false) (hopened : bridge.opened = true → bridge.pending = [])
    (event : Event α) :
    Moved (bridge.pending ++ bridge.accepts webSocketDataSize event) (bridge.step webSocketDataSize event).1
      (bridge.step webSocketDataSize event).2 := by
  have hnot : ¬bridge.closed = true := by rw [hopen]; exact Bool.false_ne_true
  cases event with
  | downstreamMessage data throws =>
    rw [Bridge.step]
    unfold Bridge.send
    rw [if_neg hnot]
    cases data with
    | none => exact (List.append_nil bridge.pending).symm ▸ Moved.stay bridge hopen
    | some data =>
      rw [Bridge.accepts, if_neg hnot]
      dsimp only
      cases hbridge : bridge.opened with
      | false =>
        simp only [Bool.not_false, Bool.true_and, if_true]
        split
        · exact Moved.closeBoth bridge _ hopen _ _ _ _
        · exact Moved.stay { bridge with
            pending := bridge.pending ++ [data]
            pendingBytes := bridge.pendingBytes + webSocketDataSize data
            opened := false } hopen
      | true =>
        rw [if_neg (by simp), hopened hbridge]
        simp only [Bool.not_true, Bool.false_eq_true, if_false, List.nil_append]
        split
        · exact Moved.failed bridge [] hopen data _
        · have hstay := Moved.stay bridge hopen
          rw [hopened hbridge] at hstay
          exact hstay.sent data
  | downstreamClose => exact Moved.closeBoth bridge _ hopen _ _ _ _
  | upstreamOpen throws =>
    rw [Bridge.step, Bridge.openUpstream, if_neg hnot, Bridge.accepts, List.append_nil]
    exact (Moved.flush throws { bridge with opened := true } bridge.pending hopen).1
  | upstreamMessage data throws =>
    rw [Bridge.step, Bridge.accepts, List.append_nil]
    unfold Bridge.receive
    rw [if_neg hnot]
    cases data with
    | none => exact Moved.stay bridge hopen
    | some data =>
      dsimp only
      split
      · exact Moved.received (Moved.closeBoth bridge bridge.pending hopen _ _ _ _) data true
      · exact Moved.received (Moved.stay bridge hopen) data false
  | upstreamError | upstreamClose code reason => exact Moved.closeBoth bridge _ hopen _ _ _ _

end Listeners

section Buffers

/-- What is pending is within the bounds, and only while the upstream is not open. -/
structure Ready (webSocketDataSize : α → Nat) (bridge : Bridge α) : Prop where
  length : bridge.pending.length ≤ 128
  bytes : bridge.pendingBytes = (bridge.pending.map webSocketDataSize).sum
  bound : bridge.pendingBytes ≤ 4 * 1024 * 1024
  opened : bridge.opened = true → bridge.pending = []

theorem Ready.of_empty {bridge : Bridge α} (hpending : bridge.pending = []) (hbytes : bridge.pendingBytes = 0) :
    Ready webSocketDataSize bridge := by
  constructor
  · rw [hpending]
    exact Nat.zero_le _
  · rw [hpending, hbytes]
    rfl
  · rw [hbytes]
    exact Nat.zero_le _
  · exact fun _ => hpending

theorem Ready.closeBoth (h : Ready webSocketDataSize bridge) (code : Nat) (reason : String)
    (closeUpstream closeDownstream : Bool) :
    Ready webSocketDataSize (bridge.closeBoth code reason closeUpstream closeDownstream).1 := by
  rw [Bridge.closeBoth]
  split
  · exact h
  · exact Ready.of_empty rfl rfl

theorem Ready.flush (throws : Nat → Bool) (bridge : Bridge α) (pending : List α) (hopen : bridge.closed = false)
    (hbytes : bridge.pendingBytes = (pending.map webSocketDataSize).sum) :
    Ready webSocketDataSize (bridge.flush webSocketDataSize throws pending).1 := by
  induction pending generalizing bridge with
  | nil => exact Ready.of_empty rfl hbytes
  | cons data pending ih =>
    let shifted := { bridge with
      pending := pending
      pendingBytes := bridge.pendingBytes - webSocketDataSize data }
    rw [Bridge.flush]
    by_cases hthrows : throws pending.length = true
    · rw [if_pos hthrows]
      have hended := (Moved.closeBoth shifted pending hopen 1011 "Upstream WebSocket failed" true true).ended
        (closed_closeBoth shifted hopen)
      exact Ready.of_empty hended.1 hended.2
    · rw [if_neg hthrows]
      refine ih shifted hopen ?_
      rw [List.map_cons, List.sum_cons] at hbytes
      exact Nat.sub_eq_of_eq_add (hbytes.trans (Nat.add_comm _ _))

theorem Ready.step (h : Ready webSocketDataSize bridge) (event : Event α) :
    Ready webSocketDataSize (bridge.step webSocketDataSize event).1 := by
  cases event with
  | downstreamMessage data throws =>
    rw [Bridge.step]
    unfold Bridge.send
    split
    · exact h
    cases data with
    | none => exact h
    | some data =>
      dsimp only
      cases hopened : bridge.opened with
      | false =>
        simp only [Bool.not_false, if_true]
        split
        · exact h.closeBoth _ _ _ _
        · next hfits =>
            simp only [Bool.or_eq_true, decide_eq_true_eq, not_or, Nat.not_le, Nat.not_lt] at hfits
            refine ⟨?_, ?_, hfits.2, fun hopen => ?_⟩
            · rw [List.length_append]
              exact hfits.1
            · rw [List.map_append, List.sum_append, ← h.bytes]
              rfl
            · cases hopen
      | true =>
        rw [if_neg (by simp)]
        split
        · exact h.closeBoth _ _ _ _
        · exact h
  | downstreamClose => exact h.closeBoth _ _ _ _
  | upstreamOpen throws =>
    rw [Bridge.step, Bridge.openUpstream]
    split
    · exact h
    · next hopen => exact Ready.flush throws { bridge with opened := true } bridge.pending (by simpa using hopen) h.bytes
  | upstreamMessage data throws =>
    rw [Bridge.step]
    unfold Bridge.receive
    split
    · exact h
    cases data with
    | none => exact h
    | some data =>
      dsimp only
      split
      · exact h.closeBoth _ _ _ _
      · exact h
  | upstreamError => exact h.closeBoth _ _ _ _
  | upstreamClose code reason => exact h.closeBoth _ _ _ _

theorem step_closed (hclosed : bridge.closed = true) (event : Event α) :
    (bridge.step webSocketDataSize event).1 = bridge ∧ bridge.accepts webSocketDataSize event = [] ∧
      (bridge.step webSocketDataSize event).2 =
        if event.isOpen then [.upstreamClose 1000 "Downstream WebSocket closed"] else [] := by
  cases event with
  | downstreamMessage data throws =>
    cases data with
    | none | some data => simp [Bridge.step, Bridge.send, Bridge.accepts, Event.isOpen, hclosed]
  | upstreamOpen throws => simp [Bridge.step, Bridge.openUpstream, Bridge.accepts, Event.isOpen, hclosed]
  | upstreamMessage data throws => simp [Bridge.step, Bridge.receive, Bridge.accepts, Event.isOpen, hclosed]
  | downstreamClose | upstreamError | upstreamClose =>
    simp [Bridge.step, Bridge.closeBoth, Bridge.accepts, Event.isOpen, hclosed]

end Buffers

section Runs

/-- An open bridge sends what it accepted upstream in order, and a closed one has sent a beginning of it. -/
structure Forwarded (webSocketDataSize : α → Nat) (session : Session α) : Prop where
  frames : session.bridge.pending.length ≤ 128
  bytes : (session.bridge.pending.map webSocketDataSize).sum ≤ 4 * 1024 * 1024
  ordered : session.bridge.closed = false → delivered session.calls ++ session.bridge.pending = session.accepted
  flushed : session.bridge.closed = false → session.bridge.opened = true → delivered session.calls = session.accepted
  attempts : attempted session.calls <+: session.accepted
  deliveries : delivered session.calls <+: session.accepted
  silent : SilentAfterClose session.calls
  downstream : session.calls.countP Call.closesDownstream ≤ 1
  upstream : session.calls.countP Call.closesUpstream ≤ 1 + session.lateOpens

structure Invariant (webSocketDataSize : α → Nat) (session : Session α) : Prop where
  ready : Ready webSocketDataSize session.bridge
  ordered : session.bridge.closed = false → delivered session.calls ++ session.bridge.pending = session.accepted
  unfailed : session.bridge.closed = false → attempted session.calls = delivered session.calls
  quiet : session.bridge.closed = false → ∀ call ∈ session.calls, call.closes = false
  attempts : attempted session.calls <+: session.accepted
  deliveries : delivered session.calls <+: session.accepted
  silent : SilentAfterClose session.calls
  downstream : session.calls.countP Call.closesDownstream ≤ 1
  upstream : session.calls.countP Call.closesUpstream ≤ 1 + session.lateOpens

variable {session : Session α}

theorem countP_eq_zero_of_quiet {calls : List (Call α)} (h : ∀ call ∈ calls, call.closes = false) :
    calls.countP Call.closesUpstream = 0 ∧ calls.countP Call.closesDownstream = 0 := by
  simp only [List.countP_eq_zero]
  constructor
  · intro call hcall hcloses
    have hquiet := h call hcall
    rw [Call.closes, hcloses, Bool.true_or] at hquiet
    cases hquiet
  · intro call hcall hcloses
    have hquiet := h call hcall
    rw [Call.closes, hcloses, Bool.or_true] at hquiet
    cases hquiet

theorem Invariant.late (h : Invariant webSocketDataSize session) (hclosed : session.bridge.closed = true)
    (event : Event α) : Invariant webSocketDataSize (session.step webSocketDataSize event) := by
  obtain ⟨hbridge, haccepts, hcalls⟩ := @step_closed _ webSocketDataSize _ hclosed event
  have hstep : session.step webSocketDataSize event =
      ⟨session.bridge, session.accepted,
        session.calls ++ if event.isOpen then [.upstreamClose 1000 "Downstream WebSocket closed"] else [],
        session.lateOpens + if event.isOpen then 1 else 0⟩ := by
    rw [Session.step, hbridge, haccepts, hcalls, hclosed, List.append_nil, Bool.true_and]
  rw [hstep]
  cases hopen : event.isOpen with
  | false =>
    simp only [Bool.false_eq_true, if_false, List.append_nil, Nat.add_zero]
    exact h
  | true =>
    have hnot : ¬session.bridge.closed = false := by
      rw [hclosed]
      exact Bool.noConfusion
    refine ⟨h.ready, fun hfalse => absurd hfalse hnot, fun hfalse => absurd hfalse hnot,
      fun hfalse => absurd hfalse hnot, ?_, ?_, ?_, ?_, ?_⟩
    · rw [if_pos rfl, attempted_append]
      exact (List.append_nil _).symm ▸ h.attempts
    · rw [if_pos rfl, delivered_append]
      exact (List.append_nil _).symm ▸ h.deliveries
    · refine h.silent.append (List.pairwise_singleton _ _) (Or.inr fun call hcall => ?_)
      rw [List.mem_singleton.mp hcall]
      rfl
    · rw [if_pos rfl, List.countP_append]
      exact h.downstream
    · rw [if_pos rfl, if_pos rfl, List.countP_append, ← Nat.add_assoc]
      exact Nat.add_le_add_right h.upstream 1

theorem Invariant.move (h : Invariant webSocketDataSize session) (hopen : session.bridge.closed = false)
    (event : Event α) : Invariant webSocketDataSize (session.step webSocketDataSize event) := by
  have hmoved := @Moved.step _ webSocketDataSize _ hopen h.ready.opened event
  have hquiet := countP_eq_zero_of_quiet (h.quiet hopen)
  have hwaiting : session.accepted ++ session.bridge.accepts webSocketDataSize event =
      delivered session.calls ++ (session.bridge.pending ++ session.bridge.accepts webSocketDataSize event) := by
    rw [← h.ordered hopen, List.append_assoc]
  constructor
  · exact h.ready.step event
  · intro hnext
    change delivered (session.calls ++ _) ++ (session.bridge.step webSocketDataSize event).1.pending = session.accepted ++ _
    rw [delivered_append, List.append_assoc, hmoved.pending hnext, hwaiting]
  · intro hnext
    change attempted (session.calls ++ _) = delivered (session.calls ++ _)
    rw [attempted_append, delivered_append, h.unfailed hopen]
    exact congrArg _ (hmoved.unfailed hnext)
  · intro hnext
    exact List.forall_mem_append.mpr ⟨h.quiet hopen, hmoved.quiet hnext⟩
  · change attempted (session.calls ++ _) <+: session.accepted ++ _
    rw [attempted_append, h.unfailed hopen, hwaiting]
    exact (List.prefix_append_right_inj _).mpr hmoved.attempts
  · change delivered (session.calls ++ _) <+: session.accepted ++ _
    rw [delivered_append, hwaiting]
    exact (List.prefix_append_right_inj _).mpr (hmoved.deliveries.trans hmoved.attempts)
  · exact h.silent.append hmoved.silent (Or.inl (h.quiet hopen))
  · change (session.calls ++ _).countP _ ≤ 1
    rw [List.countP_append, hquiet.2, Nat.zero_add]
    exact hmoved.downstream
  · change (session.calls ++ _).countP _ ≤ 1 + (session.lateOpens + _)
    rw [List.countP_append, hquiet.1, Nat.zero_add]
    exact Nat.le_trans hmoved.upstream (Nat.le_add_right 1 _)

theorem invariant_run (events : List (Event α)) : Invariant webSocketDataSize (Session.run webSocketDataSize events) := by
  induction events using List.reverseRecOn with
  | nil =>
    refine ⟨Ready.of_empty rfl rfl, fun _ => rfl, fun _ => rfl, fun _ call hcall => ?_, List.nil_prefix, List.nil_prefix,
      List.Pairwise.nil, Nat.zero_le _, Nat.zero_le _⟩
    cases hcall
  | append_singleton events event ih =>
    rw [Session.run, List.foldl_append]
    cases hclosed : (Session.run webSocketDataSize events).bridge.closed with
    | false => exact ih.move hclosed event
    | true => exact ih.late hclosed event

theorem Invariant.forwarded (h : Invariant webSocketDataSize session) : Forwarded webSocketDataSize session := by
  refine ⟨h.ready.length, ?_, h.ordered, fun hopen hopened => ?_, h.attempts, h.deliveries, h.silent, h.downstream,
    h.upstream⟩
  · rw [← h.ready.bytes]
    exact h.ready.bound
  · have hordered := h.ordered hopen
    rw [h.ready.opened hopened, List.append_nil] at hordered
    exact hordered

def Event.ends : Event α → Bool
  | downstreamClose | upstreamError | upstreamClose _ _ => true
  | downstreamMessage _ _ | upstreamOpen _ | upstreamMessage _ _ => false

theorem step_ends {event : Event α} (h : event.ends = true) :
    (session.step webSocketDataSize event).bridge.closed = true ∧
      attempted (session.step webSocketDataSize event).calls = attempted session.calls := by
  have hclose : ∀ (code : Nat) (reason : String) (closeUpstream closeDownstream : Bool),
      (session.bridge.closeBoth code reason closeUpstream closeDownstream).1.closed = true ∧
        attempted (session.calls ++ (session.bridge.closeBoth code reason closeUpstream closeDownstream).2) =
          attempted session.calls := by
    intro code reason closeUpstream closeDownstream
    rw [Bridge.closeBoth, attempted_append]
    split
    · next hclosed => exact ⟨hclosed, List.append_nil _⟩
    · refine ⟨rfl, ?_⟩
      cases closeUpstream <;> cases closeDownstream <;> exact List.append_nil _
  cases event with
  | downstreamClose | upstreamError | upstreamClose => exact hclose _ _ _ _
  | downstreamMessage | upstreamOpen | upstreamMessage => cases h

theorem foldl_closed (events : List (Event α)) (hclosed : session.bridge.closed = true) :
    attempted (events.foldl (Session.step webSocketDataSize) session).calls = attempted session.calls := by
  induction events generalizing session with
  | nil => rfl
  | cons event events ih =>
    obtain ⟨hbridge, _, hcalls⟩ := @step_closed _ webSocketDataSize _ hclosed event
    have hstep : attempted (session.step webSocketDataSize event).calls = attempted session.calls := by
      change attempted (session.calls ++ _) = _
      rw [attempted_append, hcalls]
      split <;> exact List.append_nil _
    rw [List.foldl_cons, ih, hstep]
    change (session.bridge.step webSocketDataSize event).1.closed = true
    rw [hbridge, hclosed]

/-- Messages are forwarded in order and once, nothing is sent after a close, and what waits is bounded. -/
theorem forwards_in_order (webSocketDataSize : α → Nat) (events : List (Event α)) :
    Forwarded webSocketDataSize (Session.run webSocketDataSize events) ∧
      ∀ before event after, events = before ++ event :: after → event.ends = true →
        attempted (Session.run webSocketDataSize events).calls = attempted (Session.run webSocketDataSize before).calls := by
  refine ⟨(invariant_run events).forwarded, fun before event after hsplit hends => ?_⟩
  obtain ⟨hclosed, hattempted⟩ := @step_ends _ webSocketDataSize (Session.run webSocketDataSize before) _ hends
  rw [hsplit, Session.run, List.foldl_append, List.foldl_cons, ← hattempted]
  exact foldl_closed after hclosed

/-- A client that leaves before the upstream opens: its message is dropped, and the upstream is
closed a second time. -/
theorem dropped_and_closed_twice :
    let session := Session.run String.utf8ByteSize
      [.downstreamMessage (some "message") false, .downstreamClose, .upstreamOpen fun _ => false]
    session.accepted = ["message"] ∧ delivered session.calls = [] ∧ session.bridge.opened = false ∧
      session.calls.countP Call.closesUpstream = 2 := by
  decide +kernel

end Runs

end Rika.WebSocketBridge
