import Mathlib.Data.List.Perm.Basic
import Rika.ThreadClient

namespace Rika

open Projection

namespace ThreadClient

def AfterStop.epoch : AfterStop → Option Nat
  | .selectThread _ epoch | .openChildSession _ _ _ _ epoch _ | .backToThread _ epoch _ => some epoch
  | .dispose => none

def AfterStop.openSerial : AfterStop → Option Nat
  | .openChildSession _ _ _ _ _ openSerial | .backToThread _ _ openSerial => some openSerial
  | _ => none

def AfterStop.selects : AfterStop → Bool
  | .selectThread .. => true
  | _ => false

def Continuation.epoch : Continuation → Option Nat
  | .stopping _ next => next.epoch
  | .selectMetadata _ epoch | .selectExecution _ epoch _ | .selectSession _ epoch _ _ | .selectSnapshot _ epoch _ _ _ |
    .selectFamily _ epoch _ _ _ _ | .childSnapshot _ _ _ _ epoch _ | .loadOlder epoch _ _ |
    .loadMoreCollaborators epoch | .refreshFamily _ epoch => some epoch

def Continuation.openSerial : Continuation → Option Nat
  | .stopping _ next => next.openSerial
  | .childSnapshot _ _ _ _ _ openSerial => some openSerial
  | _ => none

def Continuation.selects : Continuation → Bool
  | .stopping _ next => next.selects
  | .selectMetadata .. | .selectExecution .. | .selectSession .. | .selectSnapshot .. | .selectFamily .. => true
  | _ => false

structure Lines where
  disposed : Bool
  selectionEpoch : Nat
  childOpenSerial : Nat
  fibers : List ConnectionFiber
  connectionFibers : InsertionMap String Nat
  focusedSessionId : Option String
  rootFamily : Option FamilyProjection
  familySerial : Nat
  pending : List Continuation

def lines (client : ThreadClient) : Lines where
  disposed := client.disposed
  selectionEpoch := client.current.selectionEpoch
  childOpenSerial := client.childOpenSerial
  fibers := client.fibers
  connectionFibers := client.connectionFibers
  focusedSessionId := client.focusedSessionId
  rootFamily := client.rootFamily
  familySerial := client.familySerial
  pending := client.pending

namespace Lines

variable {l : Lines} {queue : List Nat}

section

variable (l : Lines)

def InLine (fiber : Nat) : Prop :=
  ∃ fibers next, Continuation.stopping fibers next ∈ l.pending ∧ fiber ∈ fibers.tail

def Knows (sessionId : String) : Prop :=
  ∃ family, l.rootFamily = some family ∧ (∃ session ∈ family.sessions, session.id = sessionId) ∧
    family.rootSessionId ≠ sessionId

/-- The connection belongs to the selection: it is the root's, or the focused child's. -/
def Reaches (connection : ConnectionFiber) : Prop :=
  connection.epoch = l.selectionEpoch ∧
    ((∃ family, l.rootFamily = some family ∧ family.rootSessionId = connection.sessionId) ∨
      l.focusedSessionId = some connection.sessionId)

def OneEach : Prop :=
  ∀ (i j : Nat) (a b : ConnectionFiber), l.fibers[i]? = some a → l.fibers[j]? = some b → a.isLive = true →
    b.isLive = true → a.sessionId = b.sessionId → i = j

/-- The call opens a child or goes back in the selection, and no such call came after it. -/
def Latest (epoch openSerial : Nat) : Prop := epoch = l.selectionEpoch ∧ openSerial = l.childOpenSerial

/-- The child that was focused is disconnected, and still has the focus. -/
def Leaves (previous : String) : Prop :=
  l.focusedSessionId = some previous ∧ l.connectionFibers.get previous = none

def Awaits : Continuation → Prop
  | .stopping _ (.openChildSession sessionId _ _ previous epoch openSerial) =>
    l.Latest epoch openSerial → l.Leaves previous ∧ l.Knows sessionId
  | .stopping _ (.backToThread previous epoch openSerial) => l.Latest epoch openSerial → l.Leaves previous
  | .stopping _ .dispose => False
  | .childSnapshot sessionId _ family familySerial _ _ =>
    familySerial ≤ l.familySerial ∧ (familySerial = l.familySerial → l.rootFamily = some family) ∧
      (∃ session ∈ family.sessions, session.id = sessionId) ∧ family.rootSessionId ≠ sessionId
  | .loadMoreCollaborators epoch | .refreshFamily _ epoch => epoch = l.selectionEpoch → l.rootFamily.isSome = true
  | .loadOlder .. => True
  | .stopping _ (.selectThread _ epoch) | .selectMetadata _ epoch | .selectExecution _ epoch _ |
    .selectSession _ epoch _ _ | .selectSnapshot _ epoch _ _ _ | .selectFamily _ epoch _ _ _ _ =>
      epoch = l.selectionEpoch → l.rootFamily = none ∧ l.focusedSessionId = none

def selecting : List Continuation :=
  l.pending.filter fun continuation => continuation.selects && continuation.epoch = some l.selectionEpoch

def opening : List Continuation :=
  l.pending.filter fun continuation => continuation.openSerial = some l.childOpenSerial

end

/-- The connections that are live belong to the selection, or wait in line to be
interrupted; those of `queue` are to be put in line. -/
structure Ordered (l : Lines) (queue : List Nat) : Prop where
  opened : l.disposed = false
  running : ∀ i connection, l.fibers[i]? = some connection → connection.phase = .running →
    l.connectionFibers.get connection.sessionId = some i ∧ l.Reaches connection
  stopping : ∀ i connection, l.fibers[i]? = some connection → connection.phase = .stopping → l.InLine i ∨ i ∈ queue
  single : l.OneEach
  focus : ∀ focused, l.focusedSessionId = some focused → l.Knows focused
  epochs : ∀ continuation ∈ l.pending, ∀ epoch, continuation.epoch = some epoch → epoch ≤ l.selectionEpoch
  serials : ∀ continuation ∈ l.pending, ∀ serial, continuation.openSerial = some serial → serial ≤ l.childOpenSerial
  awaits : ∀ continuation ∈ l.pending, l.Awaits continuation
  selecting : l.selecting.length ≤ 1
  opening : l.opening.length ≤ 1

theorem Ordered.enqueue (h : l.Ordered queue) {queue' : List Nat} (hqueue : ∀ i ∈ queue, i ∈ queue') :
    l.Ordered queue' :=
  { h with stopping := fun i connection hi hphase => (h.stopping i connection hi hphase).imp_right (hqueue i) }

variable {α : Type*} {xs : List α} {x : α} {continuation : Continuation} {index : Nat} {phase : FiberPhase}
    {connection : ConnectionFiber} {sessionId : String}

theorem length_filter_concat_le_one {p : α → Bool} (h : (xs.filter p).length ≤ 1)
    (hx : p x = true → xs.filter p = []) : ((xs ++ [x]).filter p).length ≤ 1 := by
  rw [List.filter_append, List.length_append]
  cases hp : p x with
  | true =>
    rw [hx hp]
    exact Nat.le_trans (Nat.le_of_eq (Nat.zero_add _)) (List.length_filter_le _ _)
  | false =>
    rw [List.filter_cons_of_neg (by simp [hp])]
    exact h

theorem Ordered.await (h : l.Ordered queue) {continuation : Continuation}
    (hepoch : ∀ epoch, continuation.epoch = some epoch → epoch ≤ l.selectionEpoch)
    (hserial : ∀ serial, continuation.openSerial = some serial → serial ≤ l.childOpenSerial)
    (hawaits : l.Awaits continuation)
    (hselecting : continuation.selects = true → continuation.epoch = some l.selectionEpoch → l.selecting = [])
    (hopening : continuation.openSerial = some l.childOpenSerial → l.opening = []) :
    Ordered { l with pending := l.pending ++ [continuation] } queue where
  opened := h.opened
  running := h.running
  stopping := by
    intro i connection hi hphase
    refine (h.stopping i connection hi hphase).imp_left ?_
    rintro ⟨fibers, next, hmem, htail⟩
    exact ⟨fibers, next, List.mem_append_left _ hmem, htail⟩
  single := h.single
  focus := h.focus
  epochs := by
    intro other hmem
    rcases List.mem_append.mp hmem with hmem | hmem
    · exact h.epochs other hmem
    · obtain rfl := List.mem_singleton.mp hmem
      exact hepoch
  serials := by
    intro other hmem
    rcases List.mem_append.mp hmem with hmem | hmem
    · exact h.serials other hmem
    · obtain rfl := List.mem_singleton.mp hmem
      exact hserial
  awaits := by
    intro other hmem
    rcases List.mem_append.mp hmem with hmem | hmem
    · exact h.awaits other hmem
    · obtain rfl := List.mem_singleton.mp hmem
      exact hawaits
  selecting := by
    apply length_filter_concat_le_one h.selecting
    intro hselects
    rw [Bool.and_eq_true, decide_eq_true_eq] at hselects
    exact hselecting hselects.1 hselects.2
  opening := length_filter_concat_le_one h.opening fun hopens => hopening (of_decide_eq_true hopens)

theorem Ordered.line {fibers : List Nat} (h : l.Ordered fibers.tail) {next : AfterStop}
    (hepoch : ∀ epoch, next.epoch = some epoch → epoch ≤ l.selectionEpoch)
    (hserial : ∀ serial, next.openSerial = some serial → serial ≤ l.childOpenSerial)
    (hawaits : l.Awaits (.stopping fibers next))
    (hselecting : next.selects = true → next.epoch = some l.selectionEpoch → l.selecting = [])
    (hopening : next.openSerial = some l.childOpenSerial → l.opening = []) :
    Ordered { l with pending := l.pending ++ [.stopping fibers next] } [] :=
  { @Ordered.await _ _ h (.stopping fibers next) hepoch hserial hawaits hselecting hopening with
    stopping := by
      intro i connection hi hphase
      left
      rcases h.stopping i connection hi hphase with ⟨others, other, hmem, htail⟩ | htail
      · exact ⟨others, other, List.mem_append_left _ hmem, htail⟩
      · exact ⟨fibers, next, List.mem_append_right _ (List.mem_singleton.mpr rfl), htail⟩ }

def inLineOf : Continuation → List Nat
  | .stopping fibers _ => fibers.tail
  | _ => []

theorem length_filter_eraseIdx (hx : xs[index]? = some x)
    (p : α → Bool) : ((xs.eraseIdx index).filter p).length + (if p x then 1 else 0) = (xs.filter p).length := by
  obtain ⟨hindex, rfl⟩ := List.getElem?_eq_some_iff.mp hx
  have hperm := ((List.getElem_cons_eraseIdx_perm hindex).filter p).length_eq
  rw [← hperm, List.filter_cons]
  split <;> rfl

section

variable (h : l.Ordered queue) (hindex : l.pending[index]? = some continuation)

include h hindex

theorem Ordered.erase :
    Ordered { l with pending := l.pending.eraseIdx index } (inLineOf continuation ++ queue) where
  opened := h.opened
  running := h.running
  stopping := by
    intro i connection hi hphase
    rcases h.stopping i connection hi hphase with ⟨fibers, next, hmem, htail⟩ | hqueue
    · obtain ⟨j, hj⟩ := List.mem_iff_getElem?.mp hmem
      by_cases hsame : j = index
      · rw [hsame, hindex, Option.some_inj] at hj
        right
        rw [hj]
        exact List.mem_append_left _ htail
      · exact .inl ⟨fibers, next, List.mem_eraseIdx_iff_getElem?.mpr ⟨j, hsame, hj⟩, htail⟩
    · exact .inr (List.mem_append_right _ hqueue)
  single := h.single
  focus := h.focus
  epochs := fun other hmem => h.epochs other (List.mem_of_mem_eraseIdx hmem)
  serials := fun other hmem => h.serials other (List.mem_of_mem_eraseIdx hmem)
  awaits := fun other hmem => h.awaits other (List.mem_of_mem_eraseIdx hmem)
  selecting := Nat.le_trans ((List.eraseIdx_sublist _ _).filter _).length_le h.selecting
  opening := Nat.le_trans ((List.eraseIdx_sublist _ _).filter _).length_le h.opening

theorem selecting_erase (hselects : continuation.selects = true)
    (hepoch : continuation.epoch = some l.selectionEpoch) :
    Lines.selecting { l with pending := l.pending.eraseIdx index } = [] := by
  have hlength := length_filter_eraseIdx hindex fun other => other.selects && other.epoch = some l.selectionEpoch
  rw [if_pos (by simp [hselects, hepoch])] at hlength
  have hone := h.selecting
  rw [Lines.selecting] at hone
  exact List.eq_nil_of_length_eq_zero (by rw [Lines.selecting]; dsimp only at hlength ⊢; omega)

theorem opening_erase (hserial : continuation.openSerial = some l.childOpenSerial) :
    Lines.opening { l with pending := l.pending.eraseIdx index } = [] := by
  have hlength := length_filter_eraseIdx hindex fun other => other.openSerial = some l.childOpenSerial
  rw [if_pos (by simp [hserial])] at hlength
  have hone := h.opening
  rw [Lines.opening] at hone
  exact List.eq_nil_of_length_eq_zero (by rw [Lines.opening]; dsimp only at hlength ⊢; omega)

end

section

variable (phase : FiberPhase) (connection : ConnectionFiber)

def settle : ConnectionFiber :=
  if connection.isLive then { connection with phase } else connection

theorem sessionId_settle : (settle phase connection).sessionId = connection.sessionId := by
  rw [settle]
  split <;> rfl

theorem settle_settle : settle phase (settle phase connection) = settle phase connection := by
  cases hlive : connection.isLive <;> simp [settle, hlive]

end

theorem isLive_of_settle (h : (settle phase connection).isLive = true) : connection.isLive = true := by
  rw [settle] at h
  split at h
  · next hlive => exact hlive
  · exact h

theorem phase_settle (h : (settle phase connection).phase = .running ∨ (settle phase connection).phase = .stopping) :
    (settle phase connection).phase = phase := by
  rw [settle] at h ⊢
  split
  · rfl
  · next hlive =>
      rw [if_neg hlive] at h
      refine absurd ?_ hlive
      rcases h with h | h <;> simp [ConnectionFiber.isLive, h]

section

variable (phase : FiberPhase) (fibers : List ConnectionFiber) (taken : List Nat)

def settleAll : List ConnectionFiber :=
  taken.foldl (fun fibers fiber => fibers.modify fiber (settle phase)) fibers

theorem getElem?_settleAll (i : Nat) :
    (settleAll phase fibers taken)[i]? = fibers[i]?.map fun connection =>
      if i ∈ taken then settle phase connection else connection := by
  induction taken generalizing fibers with
  | nil => simp [settleAll]
  | cons fiber taken ih =>
    have hcons : settleAll phase fibers (fiber :: taken) = settleAll phase (fibers.modify fiber (settle phase)) taken := rfl
    rw [hcons, ih, List.getElem?_modify]
    cases fibers[i]? with
    | none => split <;> rfl
    | some connection =>
      by_cases hfiber : fiber = i
      · subst hfiber
        simp [settle_settle]
      · simp [hfiber, Ne.symm hfiber]

end

theorem Ordered.settle (h : l.Ordered queue) {phase : FiberPhase} (hphase : phase ≠ .running) (taken queue' : List Nat)
    (hqueue : ∀ i ∈ queue, i ∈ queue' ∨ i ∈ taken ∧ phase ≠ .stopping)
    (hstopping : phase = .stopping → ∀ i ∈ taken, i ∈ queue') :
    Ordered { l with fibers := settleAll phase l.fibers taken } queue' where
  opened := h.opened
  running := by
    intro i connection hi hrunning
    dsimp only at hi
    rw [getElem?_settleAll, Option.map_eq_some_iff] at hi
    obtain ⟨before, hbefore, rfl⟩ := hi
    split at hrunning
    · exact absurd (phase_settle (.inl hrunning) ▸ hrunning) hphase
    · next htaken =>
        rw [if_neg htaken]
        exact h.running i before hbefore hrunning
  stopping := by
    intro i connection hi hstop
    dsimp only at hi
    rw [getElem?_settleAll, Option.map_eq_some_iff] at hi
    obtain ⟨before, hbefore, rfl⟩ := hi
    split at hstop
    · next htaken =>
        have hsame := phase_settle (.inr hstop)
        exact .inr (hstopping (hsame.symm.trans hstop) i htaken)
    · next htaken =>
        refine (h.stopping i before hbefore hstop).imp_right fun hmem => ?_
        exact (hqueue i hmem).resolve_right fun hother => htaken hother.1
  single := by
    intro i j a b hi hj ha hb hsame
    dsimp only at hi hj
    rw [getElem?_settleAll, Option.map_eq_some_iff] at hi hj
    obtain ⟨a', ha', rfl⟩ := hi
    obtain ⟨b', hb', rfl⟩ := hj
    have hfield : ∀ k (c : ConnectionFiber), (if k ∈ taken then Lines.settle phase c else c).isLive = true →
        c.isLive = true ∧ (if k ∈ taken then Lines.settle phase c else c).sessionId = c.sessionId := by
      intro k c hlive
      split at hlive
      · next htaken =>
          rw [if_pos htaken]
          exact ⟨isLive_of_settle hlive, sessionId_settle phase c⟩
      · next htaken =>
          rw [if_neg htaken]
          exact ⟨hlive, rfl⟩
    obtain ⟨hlive, hsession⟩ := hfield i a' ha
    obtain ⟨hlive', hsession'⟩ := hfield j b' hb
    exact h.single i j a' b' ha' hb' hlive hlive' (hsession.symm.trans (hsame.trans hsession'))
  focus := h.focus
  epochs := h.epochs
  serials := h.serials
  awaits := h.awaits
  selecting := h.selecting
  opening := h.opening

theorem Ordered.abandon (h : l.Ordered queue) (p : Continuation → Bool)
    (hstopping : ∀ fibers next, p (.stopping fibers next) = true) :
    Ordered { l with pending := l.pending.filter p } queue :=
  { h with
    stopping := by
      intro i connection hi hphase
      refine (h.stopping i connection hi hphase).imp_left ?_
      rintro ⟨fibers, next, hmem, htail⟩
      exact ⟨fibers, next, List.mem_filter.mpr ⟨hmem, hstopping fibers next⟩, htail⟩
    epochs := fun other hmem => h.epochs other (List.mem_filter.mp hmem).1
    serials := fun other hmem => h.serials other (List.mem_filter.mp hmem).1
    awaits := fun other hmem => h.awaits other (List.mem_filter.mp hmem).1
    selecting := Nat.le_trans (List.filter_sublist.filter _).length_le h.selecting
    opening := Nat.le_trans (List.filter_sublist.filter _).length_le h.opening }

theorem Awaits.disconnect (h : l.Awaits continuation) (fibers : List ConnectionFiber)
    {connectionFibers : InsertionMap String Nat}
    (hmap : ∀ key, l.connectionFibers.get key = none → connectionFibers.get key = none) :
    Lines.Awaits { l with fibers, connectionFibers } continuation := by
  cases continuation with
  | stopping others next =>
    cases next with
    | openChildSession sessionId root projection previous epoch openSerial =>
      intro hlatest
      obtain ⟨⟨hfocused, hnone⟩, hknows⟩ := h hlatest
      exact ⟨⟨hfocused, hmap _ hnone⟩, hknows⟩
    | backToThread previous epoch openSerial =>
      intro hlatest
      obtain ⟨hfocused, hnone⟩ := h hlatest
      exact ⟨hfocused, hmap _ hnone⟩
    | _ => exact h
  | _ => exact h

theorem Ordered.take (h : l.Ordered []) (sessionId : Option String) {connectionFibers : InsertionMap String Nat}
    {taken : List Nat}
    (hmap : ∀ key, connectionFibers.get key =
      if sessionId.all (fun sessionId => key = sessionId) then none else l.connectionFibers.get key)
    (htaken : ∀ key i, l.connectionFibers.get key = some i →
      sessionId.all (fun sessionId => key = sessionId) = true → i ∈ taken) :
    Ordered { l with fibers := settleAll .stopping l.fibers taken, connectionFibers } taken :=
  have hsettled := @Ordered.settle _ _ h (.stopping) (by simp) taken taken (by simp) fun _ _ => id
  { hsettled with
    running := by
      intro i connection hi hrunning
      obtain ⟨hget, hreaches⟩ := hsettled.running i connection hi hrunning
      refine ⟨?_, hreaches⟩
      rw [hmap, if_neg]
      · exact hget
      · intro hall
        have hmem := htaken _ i hget hall
        dsimp only at hi
        rw [getElem?_settleAll, Option.map_eq_some_iff] at hi
        obtain ⟨before, -, rfl⟩ := hi
        rw [if_pos hmem] at hrunning
        cases (phase_settle (.inl hrunning)).symm.trans hrunning
    awaits := by
      intro continuation hmem
      refine (h.awaits continuation hmem).disconnect _ fun key hnone => ?_
      rw [hmap, hnone, ite_self] }

theorem Ordered.bump (h : l.Ordered queue) :
    Ordered { l with childOpenSerial := l.childOpenSerial + 1 } queue ∧
      Lines.opening { l with childOpenSerial := l.childOpenSerial + 1 } = [] := by
  have hopening : Lines.opening { l with childOpenSerial := l.childOpenSerial + 1 } = [] := by
    rw [Lines.opening, List.filter_eq_nil_iff]
    intro continuation hmem hserial
    have := h.serials continuation hmem _ (of_decide_eq_true hserial)
    dsimp only at this
    omega
  refine ⟨{ h with serials := ?_, awaits := ?_, opening := ?_ }, hopening⟩
  · exact fun continuation hmem serial hserial => Nat.le_succ_of_le (h.serials continuation hmem serial hserial)
  · intro continuation hmem
    have hawaits := h.awaits continuation hmem
    have hserials := h.serials continuation hmem
    cases continuation with
    | stopping fibers next =>
      cases next with
      | openChildSession sessionId root projection previous epoch openSerial
      | backToThread previous epoch openSerial =>
        rintro ⟨-, hlatest⟩
        have := hserials openSerial rfl
        dsimp only at hlatest
        omega
      | _ => exact hawaits
    | _ => exact hawaits
  · exact Nat.le_trans (Nat.le_of_eq (congrArg List.length hopening)) (Nat.zero_le 1)

theorem Ordered.select (h : l.Ordered []) {connectionFibers : InsertionMap String Nat} {taken : List Nat}
    (htaken : ∀ key i, l.connectionFibers.get key = some i → i ∈ taken) (familySerial : Nat)
    (hfamily : l.familySerial < familySerial) :
    Ordered
        { l with
          selectionEpoch := l.selectionEpoch + 1
          childOpenSerial := l.childOpenSerial + 1
          fibers := settleAll .stopping l.fibers taken
          connectionFibers
          focusedSessionId := none
          rootFamily := none
          familySerial } taken ∧
      Lines.selecting { l with selectionEpoch := l.selectionEpoch + 1 } = [] := by
  have hselecting : Lines.selecting { l with selectionEpoch := l.selectionEpoch + 1 } = [] := by
    rw [Lines.selecting, List.filter_eq_nil_iff]
    intro continuation hmem hselects
    rw [Bool.and_eq_true, decide_eq_true_eq] at hselects
    have := h.epochs continuation hmem _ hselects.2
    dsimp only at this
    omega
  obtain ⟨hbump, hopening⟩ := h.bump
  have hsettled := @Ordered.settle _ _ h (.stopping) (by simp) taken taken (by simp) fun _ _ => id
  refine ⟨{ hsettled with
    running := ?_, focus := ?_, epochs := ?_, serials := hbump.serials, awaits := ?_, selecting := ?_,
    opening := hbump.opening }, hselecting⟩
  · intro i connection hi hrunning
    dsimp only at hi
    obtain ⟨hget, -⟩ := hsettled.running i connection hi hrunning
    have hmem := htaken _ i hget
    rw [getElem?_settleAll, Option.map_eq_some_iff] at hi
    obtain ⟨before, -, rfl⟩ := hi
    rw [if_pos hmem] at hrunning
    cases (phase_settle (.inl hrunning)).symm.trans hrunning
  · rintro focused ⟨⟩
  · exact fun continuation hmem epoch hepoch => Nat.le_succ_of_le (h.epochs continuation hmem epoch hepoch)
  · intro continuation hmem
    have hawaits := h.awaits continuation hmem
    have hepochs := h.epochs continuation hmem
    have hserials := h.serials continuation hmem
    have hearlier : ∀ epoch, continuation.epoch = some epoch → epoch ≠ l.selectionEpoch + 1 := by
      intro epoch hepoch hsame
      have := hepochs epoch hepoch
      omega
    cases continuation with
    | stopping fibers next =>
      cases next with
      | openChildSession sessionId root projection previous epoch openSerial
      | backToThread previous epoch openSerial =>
        exact fun hlatest => absurd hlatest.1 (hearlier epoch rfl)
      | selectThread threadId epoch => exact fun hepoch => absurd hepoch (hearlier epoch rfl)
      | dispose => exact hawaits
    | childSnapshot sessionId root family serial epoch openSerial =>
      obtain ⟨hserial, -, hchild⟩ := hawaits
      exact ⟨Nat.le_of_lt (Nat.lt_of_le_of_lt hserial hfamily), fun hsame => absurd hsame (by dsimp only; omega), hchild⟩
    | loadOlder epoch sessionId nextLeafId => trivial
    | _ => exact fun hepoch => absurd hepoch (hearlier _ rfl)
  · exact Nat.le_trans (Nat.le_of_eq (congrArg List.length hselecting)) (Nat.zero_le 1)

def RootOnly (l : Lines) : Prop :=
  ∀ (i : Nat) (connection : ConnectionFiber), l.fibers[i]? = some connection → connection.phase = .running →
    ∃ family, l.rootFamily = some family ∧ family.rootSessionId = connection.sessionId

theorem Ordered.rootOnly (h : l.Ordered queue)
    (hfocus : ∀ (i : Nat) (connection : ConnectionFiber), l.fibers[i]? = some connection →
      connection.phase = .running → l.focusedSessionId ≠ some connection.sessionId) : l.RootOnly := by
  intro i connection hi hrunning
  obtain ⟨-, -, hroot | hfocused⟩ := h.running i connection hi hrunning
  · exact hroot
  · exact absurd hfocused (hfocus i connection hi hrunning)

theorem Ordered.rootOnly_of_leaves (h : l.Ordered queue) {previous : String} (hleaves : l.Leaves previous) :
    l.RootOnly := by
  apply h.rootOnly
  intro i connection hi hrunning hfocused
  have hget := (h.running i connection hi hrunning).1
  obtain rfl := Option.some_inj.mp (hleaves.1.symm.trans hfocused)
  rw [hleaves.2] at hget
  cases hget

theorem not_latest (hopening : l.opening = []) (hmem : continuation ∈ l.pending)
    {openSerial : Nat} (hserial : continuation.openSerial = some openSerial) : openSerial ≠ l.childOpenSerial := by
  rw [Lines.opening, List.filter_eq_nil_iff] at hopening
  rintro rfl
  exact hopening continuation hmem (by simp [hserial])

theorem Awaits.refocus (h : l.Awaits continuation) (hopening : l.opening = [])
    (hmem : continuation ∈ l.pending) (fibers : List ConnectionFiber) (connectionFibers : InsertionMap String Nat)
    {focused : Option String} (hfocused : focused = none ∨ l.rootFamily.isSome = true) :
    Lines.Awaits { l with fibers, connectionFibers, focusedSessionId := focused } continuation := by
  cases continuation with
  | stopping others next =>
    cases next with
    | openChildSession sessionId root projection previous epoch openSerial
    | backToThread previous epoch openSerial =>
      exact fun hlatest => absurd hlatest.2 (not_latest hopening hmem rfl)
    | selectThread threadId epoch =>
      intro hepoch
      obtain ⟨hfamily, -⟩ := h hepoch
      exact ⟨hfamily, hfocused.resolve_right (by simp [hfamily])⟩
    | dispose => exact h
  | loadOlder => trivial
  | childSnapshot | loadMoreCollaborators | refreshFamily => exact h
  | _ =>
    intro hepoch
    obtain ⟨hfamily, -⟩ := h hepoch
    exact ⟨hfamily, hfocused.resolve_right (by simp [hfamily])⟩

theorem getElem?_concat {y : α} {i : Nat} (h : (xs ++ [x])[i]? = some y) : xs[i]? = some y ∨ i = xs.length ∧ y = x := by
  rw [List.getElem?_append] at h
  split at h
  · exact .inl h
  · rw [List.getElem?_singleton] at h
    split at h
    · next hlength hzero =>
        cases h
        exact .inr ⟨by omega, rfl⟩
    · cases h

theorem OneEach.fork (h : l.OneEach) (epoch : Nat)
    (hnone : ∀ (i : Nat) (connection : ConnectionFiber), l.fibers[i]? = some connection → connection.isLive = true →
      connection.sessionId ≠ sessionId) : OneEach { l with fibers := l.fibers ++ [⟨sessionId, epoch, .running⟩] } := by
  intro i j a b hi hj ha hb hsame
  rcases getElem?_concat hi with hi | ⟨rfl, rfl⟩
  · rcases getElem?_concat hj with hj | ⟨rfl, rfl⟩
    · exact h i j a b hi hj ha hb hsame
    · exact absurd hsame (hnone i a hi ha)
  · rcases getElem?_concat hj with hj | ⟨rfl, rfl⟩
    · exact absurd hsame.symm (hnone j b hj hb)
    · rfl

theorem ne_of_isLive (hroot : l.RootOnly) (hother : ∀ family, l.rootFamily = some family → family.rootSessionId ≠ sessionId)
    (hstopping : ∀ connection ∈ l.fibers, connection.phase = .stopping → connection.sessionId ≠ sessionId)
    (i : Nat) (connection : ConnectionFiber) (hi : l.fibers[i]? = some connection) (hlive : connection.isLive = true) :
    connection.sessionId ≠ sessionId := by
  rw [ConnectionFiber.isLive, Bool.or_eq_true, decide_eq_true_eq, decide_eq_true_eq] at hlive
  rcases hlive with hrunning | hstop
  · obtain ⟨family, hfamily, hsession⟩ := hroot i connection hi hrunning
    exact hsession ▸ hother family hfamily
  · exact hstopping connection (List.mem_of_getElem? hi) hstop

theorem running_fork (focused : Option String) (hroot : l.RootOnly)
    (hrunning : ∀ (i : Nat) (connection : ConnectionFiber), l.fibers[i]? = some connection →
      connection.phase = .running → l.connectionFibers.get connection.sessionId = some i ∧ l.Reaches connection)
    (hnone : ∀ (i : Nat) (connection : ConnectionFiber), l.fibers[i]? = some connection → connection.isLive = true →
      connection.sessionId ≠ sessionId)
    (hreaches : (∃ family, l.rootFamily = some family ∧ family.rootSessionId = sessionId) ∨ focused = some sessionId)
    (i : Nat) (connection : ConnectionFiber)
    (hi : (l.fibers ++ [⟨sessionId, l.selectionEpoch, .running⟩])[i]? = some connection)
    (hphase : connection.phase = .running) :
    (l.connectionFibers.set sessionId l.fibers.length).get connection.sessionId = some i ∧
      Reaches { l with focusedSessionId := focused } connection := by
  rw [InsertionMap.get_set]
  rcases getElem?_concat hi with hi | ⟨rfl, rfl⟩
  · obtain ⟨hget, hepoch, -⟩ := hrunning i connection hi hphase
    rw [if_neg (hnone i connection hi (by simp [ConnectionFiber.isLive, hphase]))]
    exact ⟨hget, hepoch, .inl (hroot i connection hi hphase)⟩
  · exact ⟨if_pos rfl, rfl, hreaches⟩

section

variable (h : l.Ordered queue)

include h

theorem stopping_fork (i : Nat) (connection : ConnectionFiber)
    (hi : (l.fibers ++ [⟨sessionId, l.selectionEpoch, .running⟩])[i]? = some connection)
    (hphase : connection.phase = .stopping) : l.InLine i ∨ i ∈ queue := by
  rcases getElem?_concat hi with hi | ⟨-, rfl⟩
  · exact h.stopping i connection hi hphase
  · cases hphase

theorem Ordered.openChild (hopening : l.opening = []) (hroot : l.RootOnly) (hknows : l.Knows sessionId)
    (hstopping : ∀ connection ∈ l.fibers, connection.phase = .stopping → connection.sessionId ≠ sessionId) :
    Ordered
      { l with
        fibers := l.fibers ++ [⟨sessionId, l.selectionEpoch, .running⟩]
        connectionFibers := l.connectionFibers.set sessionId l.fibers.length
        focusedSessionId := some sessionId } queue :=
  have hnone := ne_of_isLive hroot
    (fun family hfamily => by
      obtain ⟨known, hknown, -, hne⟩ := hknows
      rw [hfamily] at hknown
      cases hknown
      exact hne) hstopping
  { h with
    running := running_fork (some sessionId) hroot h.running hnone (.inr rfl)
    stopping := stopping_fork h
    single := h.single.fork l.selectionEpoch hnone
    focus := by
      rintro focused ⟨⟩
      exact hknows
    awaits := fun continuation hmem =>
      (h.awaits continuation hmem).refocus hopening hmem _ _ (.inr (by
        obtain ⟨family, hfamily, -⟩ := hknows
        rw [hfamily]
        rfl)) }

theorem Ordered.family {before family : FamilyProjection} (hbefore : l.rootFamily = some before)
    (hroot : family.rootSessionId = before.rootSessionId)
    (hsessions : ∀ session ∈ before.sessions, ∃ later ∈ family.sessions, later.id = session.id) {familySerial : Nat}
    (hserial : l.familySerial < familySerial) :
    Ordered { l with rootFamily := some family, familySerial } queue := by
  have hknows : ∀ sessionId, l.Knows sessionId → Knows { l with rootFamily := some family, familySerial } sessionId := by
    rintro sessionId ⟨known, hknown, ⟨session, hsession, hid⟩, hne⟩
    obtain rfl := Option.some_inj.mp (hbefore.symm.trans hknown)
    obtain ⟨later, hlater, hsame⟩ := hsessions session hsession
    exact ⟨family, rfl, ⟨later, hlater, hsame.trans hid⟩, hroot ▸ hne⟩
  refine { h with running := ?_, focus := fun focused hfocused => hknows focused (h.focus focused hfocused), awaits := ?_ }
  · intro i connection hi hrunning
    obtain ⟨hget, hepoch, hreaches⟩ := h.running i connection hi hrunning
    refine ⟨hget, hepoch, hreaches.imp_left ?_⟩
    rintro ⟨known, hknown, hsession⟩
    obtain rfl := Option.some_inj.mp (hbefore.symm.trans hknown)
    exact ⟨family, rfl, hroot.trans hsession⟩
  · intro continuation hmem
    have hawaits := h.awaits continuation hmem
    cases continuation with
    | stopping others next =>
      cases next with
      | openChildSession sessionId root projection previous epoch openSerial =>
        intro hlatest
        obtain ⟨hleaves, hknown⟩ := hawaits hlatest
        exact ⟨hleaves, hknows sessionId hknown⟩
      | selectThread threadId epoch =>
        intro hepoch
        cases hbefore.symm.trans (hawaits hepoch).1
      | _ => exact hawaits
    | childSnapshot sessionId root known serial epoch openSerial =>
      obtain ⟨hle, -, hchild⟩ := hawaits
      exact ⟨Nat.le_of_lt (Nat.lt_of_le_of_lt hle hserial), fun hsame => absurd hsame (by dsimp only; omega), hchild⟩
    | loadOlder => trivial
    | loadMoreCollaborators | refreshFamily => exact fun _ => rfl
    | _ =>
      intro hepoch
      cases hbefore.symm.trans (hawaits hepoch).1

theorem Ordered.finishSelect (hselecting : l.selecting = []) (hnone : l.rootFamily = none)
    (hfocused : l.focusedSessionId = none) (family : FamilyProjection) {familySerial : Nat}
    (hserial : l.familySerial < familySerial)
    (hstopping : ∀ connection ∈ l.fibers, connection.phase = .stopping →
      connection.sessionId ≠ family.rootSessionId) :
    Ordered
      { l with
        rootFamily := some family
        familySerial
        fibers := l.fibers ++ [⟨family.rootSessionId, l.selectionEpoch, .running⟩]
        connectionFibers := l.connectionFibers.set family.rootSessionId l.fibers.length } queue := by
  have hroot : l.RootOnly := h.rootOnly fun i connection _ _ hreaches => by
    rw [hfocused] at hreaches
    cases hreaches
  have hidle : ∀ (i : Nat) (connection : ConnectionFiber), l.fibers[i]? = some connection →
      connection.phase ≠ .running := by
    intro i connection hi hrunning
    obtain ⟨known, hknown, -⟩ := hroot i connection hi hrunning
    rw [hnone] at hknown
    cases hknown
  have hnotLive : ∀ (i : Nat) (connection : ConnectionFiber), l.fibers[i]? = some connection →
      connection.isLive = true → connection.sessionId ≠ family.rootSessionId :=
    ne_of_isLive hroot (fun known hknown => by rw [hnone] at hknown; cases hknown) hstopping
  refine { h with
    running := ?_, stopping := stopping_fork h, single := h.single.fork l.selectionEpoch hnotLive
    focus := ?_, awaits := ?_ }
  · intro i connection hi hphase
    rcases getElem?_concat hi with hi | ⟨rfl, rfl⟩
    · exact absurd hphase (hidle i connection hi)
    · rw [InsertionMap.get_set, if_pos rfl]
      exact ⟨rfl, rfl, .inl ⟨family, rfl, rfl⟩⟩
  · intro focused hfocus
    rw [hfocused] at hfocus
    cases hfocus
  · intro continuation hmem
    have hawaits := h.awaits continuation hmem
    have hnotSelecting : continuation.selects = true → continuation.epoch ≠ some l.selectionEpoch := by
      rw [Lines.selecting, List.filter_eq_nil_iff] at hselecting
      intro hselects hepoch
      exact hselecting continuation hmem (by simp [hselects, hepoch])
    cases continuation with
    | stopping others next =>
      cases next with
      | openChildSession sessionId root projection previous epoch openSerial =>
        intro hlatest
        obtain ⟨⟨hleaves, -⟩, -⟩ := hawaits hlatest
        rw [hfocused] at hleaves
        cases hleaves
      | backToThread previous epoch openSerial =>
        intro hlatest
        obtain ⟨hleaves, -⟩ := hawaits hlatest
        rw [hfocused] at hleaves
        cases hleaves
      | selectThread threadId epoch =>
        intro hepoch
        exact absurd (congrArg some hepoch) (hnotSelecting rfl)
      | dispose => exact hawaits
    | childSnapshot sessionId root known serial epoch openSerial =>
      obtain ⟨hle, -, hchild⟩ := hawaits
      exact ⟨Nat.le_of_lt (Nat.lt_of_le_of_lt hle hserial), fun hsame => absurd hsame (by dsimp only; omega), hchild⟩
    | loadOlder => trivial
    | loadMoreCollaborators | refreshFamily => exact fun _ => rfl
    | _ =>
      intro hepoch
      exact absurd (congrArg some hepoch) (hnotSelecting rfl)

theorem Ordered.back (hopening : l.opening = []) (hroot : l.RootOnly) :
    Ordered { l with focusedSessionId := none } queue :=
  { h with
    running := by
      intro i connection hi hrunning
      obtain ⟨hget, hepoch, -⟩ := h.running i connection hi hrunning
      exact ⟨hget, hepoch, .inl (hroot i connection hi hrunning)⟩
    focus := by rintro focused ⟨⟩
    awaits := fun continuation hmem =>
      (h.awaits continuation hmem).refocus hopening hmem l.fibers l.connectionFibers (.inl rfl) }

end

end Lines

end ThreadClient

end Rika
