import Rika.AppendLog
import Rika.OpenAiService

namespace Rika.OpenAiService

open AppendLog

variable {platform : Platform} {state : State}

def Minted (credential : CredentialDisk) : Prop :=
  expectedFingerprint credential.generation = some credential.fingerprint

theorem notMem_encode (bytes : List Nat) : '.' ∉ Base64Url.encode bytes := by
  intro h
  have hdot : '.' ∉ Base64Url.alphabet := by decide +kernel
  exact hdot (Base64Url.mem_alphabet_of_mem_encode h)

theorem expectedFingerprint_append {fingerprint suffix : Text} (h : '.' ∉ suffix) :
    expectedFingerprint (fingerprint ++ '.' :: suffix) = some fingerprint := by
  have hdrop : ∀ reversed : Text, '.' ∉ reversed →
      (reversed ++ '.' :: fingerprint.reverse).dropWhile (· ≠ '.') = '.' :: fingerprint.reverse := by
    intro reversed hreversed
    have hall : ∀ c ∈ reversed, decide (c ≠ '.') = true := by
      intro c hc
      refine decide_eq_true fun heq => ?_
      subst heq
      exact hreversed hc
    rw [List.dropWhile_append_of_pos hall, List.dropWhile_cons_of_neg (by simp)]
  rw [expectedFingerprint, if_pos (by simp), List.reverse_append, List.reverse_cons, List.append_assoc,
    List.singleton_append, hdrop _ (by simpa using h), List.tail_cons, List.reverse_reverse]

variable {now : Int} {random : RandomBytes} {response : TokenResponse} {previous value : Option CredentialDisk}
    {credential : CredentialDisk} {free : Bool} {phase' phase : Phase}

theorem credentialFrom_eq_ok (h : credentialFrom platform now random response previous = .ok credential) :
    credential.generation = generationOf credential.fingerprint random ∧
      ∀ old, previous = some old → credential.fingerprint = old.fingerprint := by
  rw [credentialFrom] at h
  split at h
  · cases h
  split at h
  · cases h
  split at h
  · dsimp only at h
    split at h
    · cases h
    · next haccount =>
        split at h
        · cases h
        · cases h
          refine ⟨rfl, fun old hold => ?_⟩
          subst hold
          simpa using haccount
  · cases h

theorem minted_of_credentialFrom
    (h : credentialFrom platform now random response previous = .ok credential) : Minted credential := by
  rw [Minted, (credentialFrom_eq_ok h).1]
  exact expectedFingerprint_append (notMem_encode _)

def Phase.current : Phase → Option CredentialDisk
  | refreshing current => some current
  | minting previous _ => previous
  | saving previous _ => previous
  | _ => none

inductive Advanced (platform : Platform) (free : Bool) (value : Option CredentialDisk) :
    Phase → Action → Advance → Prop
  | quiet (phase phase' : Phase) (action : Action) (hcurrent : ∀ current, phase'.current = some current →
        phase.current = some current)
      (hholds : phase'.holds = true → phase.holds = true ∨ free = true)
      (hsaving : ∀ previous credential, phase' ≠ .saving previous credential) :
      Advanced platform free value phase action ⟨phase', value, []⟩
  | given (now : Int) (credential : CredentialDisk) (hvalue : value = some credential) :
      Advanced platform free value .acquiring (.load now)
        ⟨.ended (.credential credential), value, [.handed none credential]⟩
  | shown (generation : Text) (current : CredentialDisk) (hvalue : value = some current)
      (haccount : ∀ fingerprint, expectedFingerprint generation = some fingerprint → fingerprint = current.fingerprint) :
      Advanced platform free value (.loading generation) .loadCurrent
        ⟨.ended (.credential current), value, [.handed (some generation) current]⟩
  | requested (current : CredentialDisk) (hvalue : value = some current) :
      Advanced platform free value (.loading current.generation) .loadCurrent
        ⟨.refreshing current, value, [.requested current.refreshToken]⟩
  | minted (previous : Option CredentialDisk) (response : TokenResponse) (now : Int) (random : RandomBytes)
      (credential : CredentialDisk) (h : credentialFrom platform now random response previous = .ok credential) :
      Advanced platform free value (.minting previous response) (.mint now random) ⟨.saving previous credential, value, []⟩
  | saved (previous : Option CredentialDisk) (credential : CredentialDisk) :
      Advanced platform free value (.saving previous credential) .save
        ⟨.ended (.credential credential), some credential, saved previous credential⟩
  | removed :
      Advanced platform free value .removing .remove ⟨.ended (.removed value.isSome), none, [.removed]⟩

section

variable (phase : Phase) (action : Action)

theorem Advanced.ended (outcome : Outcome) :
    Advanced platform free value phase action ⟨.ended outcome, value, []⟩ := by
  refine .quiet phase _ action (fun current h => ?_) (fun h => ?_) (fun previous credential h => ?_)
  · cases h
  · cases h
  · cases h

theorem Advanced.outside (h : phase'.holds = false) (hcurrent : phase'.current = none) :
    Advanced platform free value phase action ⟨phase', value, []⟩ := by
  refine .quiet phase phase' action (fun current h' => ?_) (fun h' => ?_) (fun previous credential h' => ?_)
  · rw [hcurrent] at h'
    cases h'
  · rw [h] at h'
    cases h'
  · subst h'
    cases h

theorem Advanced.entered
    (hcurrent : phase'.current = none) (hsaving : ∀ previous credential, phase' ≠ .saving previous credential) :
    Advanced platform true value phase action ⟨phase', value, []⟩ := by
  refine .quiet phase phase' action (fun current h => ?_) (fun _ => .inr rfl) hsaving
  rw [hcurrent] at h
  cases h

end

theorem advanced_refreshCurrent {generation : Text} :
    Advanced platform free value (.loading generation) .loadCurrent (refreshCurrent value generation) := by
  cases value with
  | none => exact .ended _ _ _
  | some current =>
    unfold refreshCurrent
    dsimp only
    split
    · split
      · exact .ended _ _ _
      · next haccount =>
          refine .shown generation current rfl fun fingerprint hfingerprint => ?_
          rw [hfingerprint] at haccount
          simpa using haccount
    · next hgeneration =>
        obtain rfl := not_not.mp hgeneration
        exact .requested current rfl

theorem advance_eq_some {action : Action} {next : Advance}
    (h : advance platform free value phase action = some next) : Advanced platform free value phase action next := by
  unfold advance at h
  split at h
  · split at h
    · cases h
      exact .ended _ _ _
    · split at h
      · cases h
        exact .outside _ _ rfl rfl
      · cases h
        exact .given _ _ rfl
  · split at h
    · next hfree =>
        subst hfree
        cases h
        exact .entered _ _ rfl (by rintro _ _ ⟨⟩)
    · cases h
  · cases h
    exact advanced_refreshCurrent
  · cases h
    exact .quiet _ _ _ (fun _ h => h) (fun _ => .inl rfl) (by rintro _ _ ⟨⟩)
  · split at h
    · cases h
      exact .ended _ _ _
    · next hcredential =>
        cases h
        exact .minted _ _ _ _ _ hcredential
  · cases h
    exact .saved _ _
  · split at h
    · cases h
      exact .ended _ _ _
    · cases h
      exact .outside _ _ rfl rfl
  · split at h
    · cases h
      exact .ended _ _ _
    · cases h
      exact .outside _ _ rfl rfl
  · split at h
    · cases h
      exact .ended _ _ _
    · split at h
      · cases h
        exact .ended _ _ _
      · split at h
        · cases h
          exact .ended _ _ _
        · split at h
          · cases h
            exact .outside _ _ rfl rfl
          · cases h
            exact .outside _ _ rfl rfl
  · cases h
    exact .outside _ _ rfl rfl
  · split at h
    · next hfree =>
        subst hfree
        cases h
        exact .entered _ _ rfl (by rintro _ _ ⟨⟩)
    · cases h
  · split at h
    · next hfree =>
        subst hfree
        cases h
        exact .entered _ _ rfl (by rintro _ _ ⟨⟩)
    · cases h
  · cases h
    exact .removed
  · cases h
    exact .ended _ _ _
  · cases h
  · cases h
    exact .ended _ _ _
  · split at h
    · cases h
      exact .ended _ _ _
    · cases h
  · cases h

def Entry.stores (value : Option CredentialDisk) : Entry → Option CredentialDisk
  | refreshed _ credential => some credential
  | loggedIn credential => some credential
  | removed => none
  | requested _ | handed _ _ => value

def replay (history : List Entry) : Option CredentialDisk := history.foldl Entry.stores none

/-- A refresh replaces the credential that is stored by one of its account, and no caller is handed another account's. -/
def follows (known : List Entry) : Entry → Bool
  | .requested refreshToken => (replay known).map (·.refreshToken) = some refreshToken
  | .refreshed previous credential =>
    replay known = some previous && credential.fingerprint = previous.fingerprint
  | .handed presented credential =>
    presented.all fun generation => (expectedFingerprint generation).all (· = credential.fingerprint)
  | .loggedIn _ | .removed => true

theorem replay_append (history entries : List Entry) : replay (history ++ entries) = entries.foldl Entry.stores (replay history) :=
  List.foldl_append

structure State.Sound (state : State) : Prop where
  guarded : Guarded follows state.history
  stored : replay state.history = state.value
  minted : ∀ credential, state.value = some credential → Minted credential
  permit : ∀ fiber, state.holder = some fiber ↔ ∃ phase, state.calls[fiber]? = some phase ∧ phase.holds = true
  current : ∀ (fiber : Nat) (phase : Phase), state.calls[fiber]? = some phase →
    ∀ credential, phase.current = some credential → state.value = some credential
  saving : ∀ (fiber : Nat) (previous : Option CredentialDisk) (credential : CredentialDisk),
    state.calls[fiber]? = some (.saving previous credential) →
      Minted credential ∧ ∀ old, previous = some old → credential.fingerprint = old.fingerprint

theorem empty_sound : empty.Sound where
  guarded := guarded_nil
  stored := rfl
  minted _ h := by cases h
  permit fiber := by simp [empty]
  current _ _ h := by cases h
  saving _ _ _ h := by cases h

section Steps

variable {free : Bool} {value : Option CredentialDisk} {phase : Phase} {action : Action} {next : Advance}

variable {credential : CredentialDisk}

theorem holds_of_current (h : phase.current = some credential) : phase.holds = true := by
  cases phase <;> first | rfl | cases h

section

variable (h : Advanced platform free value phase action next)

include h

theorem Advanced.holds (hholds : next.phase.holds = true) : phase.holds = true ∨ free = true := by
  cases h with
  | quiet _ _ _ _ hquiet _ => exact hquiet hholds
  | requested | minted => exact .inl rfl
  | given | shown | saved | removed => cases hholds

theorem Advanced.value_eq (hholds : phase.holds = false) : next.value = value := by
  cases h with
  | quiet | given | shown | requested | minted => rfl
  | saved | removed => cases hholds

theorem Advanced.current (hphase : ∀ credential, phase.current = some credential → value = some credential)
    (hcurrent : next.phase.current = some credential) : next.value = some credential := by
  cases h with
  | quiet _ _ _ hquiet _ _ => exact hphase credential (hquiet credential hcurrent)
  | requested current hvalue =>
    cases hcurrent
    exact hvalue
  | minted previous response now random minted _ => exact hphase credential hcurrent
  | given | shown | saved | removed => cases hcurrent

theorem Advanced.saving {previous : Option CredentialDisk}
    (hphase : next.phase = .saving previous credential) :
    Minted credential ∧ ∀ old, previous = some old → credential.fingerprint = old.fingerprint := by
  cases h with
  | quiet _ _ _ _ _ hsaving => exact absurd hphase (hsaving previous credential)
  | minted _ response now random _ hcredential =>
    cases hphase
    exact ⟨minted_of_credentialFrom hcredential, (credentialFrom_eq_ok hcredential).2⟩
  | given | shown | requested | saved | removed => cases hphase

end

end Steps

theorem getElem?_start {call : Call} {fiber : Nat} :
    (state.calls ++ [call.first])[fiber]? = some phase ↔
      state.calls[fiber]? = some phase ∨ fiber = state.calls.length ∧ phase = call.first := by
  by_cases hlt : fiber < state.calls.length
  · rw [List.getElem?_append_left hlt]
    exact ⟨.inl, fun h => h.resolve_right fun h' => Nat.ne_of_lt hlt h'.1⟩
  · rw [List.getElem?_append_right (Nat.le_of_not_lt hlt), List.getElem?_singleton,
      List.getElem?_eq_none (Nat.le_of_not_lt hlt)]
    by_cases heq : fiber = state.calls.length
    · simp [heq, eq_comm]
    · have hne : fiber - state.calls.length ≠ 0 := by omega
      simp [heq, hne]

theorem State.Sound.start (h : state.Sound) (call : Call) : (state.step platform (.start call)).Sound := by
  have hfirst : call.first.holds = false ∧ call.first.current = none := by
    cases call <;> exact ⟨rfl, rfl⟩
  refine ⟨h.guarded, h.stored, h.minted, fun fiber => ?_, fun fiber phase hphase credential hcurrent => ?_,
    fun fiber previous credential hphase => ?_⟩
  · refine (h.permit fiber).trans ⟨fun ⟨phase, hphase, hholds⟩ => ?_, fun ⟨phase, hphase, hholds⟩ => ?_⟩
    · exact ⟨phase, getElem?_start.mpr (.inl hphase), hholds⟩
    · rcases getElem?_start.mp hphase with hphase | ⟨-, rfl⟩
      · exact ⟨phase, hphase, hholds⟩
      · rw [hfirst.1] at hholds
        cases hholds
  · rcases getElem?_start.mp hphase with hphase | ⟨-, rfl⟩
    · exact h.current fiber phase hphase credential hcurrent
    · rw [hfirst.2] at hcurrent
      cases hcurrent
  · rcases getElem?_start.mp hphase with hphase | ⟨-, hsaving⟩
    · exact h.saving fiber previous credential hphase
    · rw [← hsaving] at hfirst
      cases hfirst.1

section Acts

variable {fiber : Nat} {phase : Phase} {action : Action} {next : Advance}

theorem State.Sound.entries (h : state.Sound) (hphase : state.calls[fiber]? = some phase)
    (hnext : Advanced platform state.holder.isNone state.value phase action next) :
    Guarded follows (state.history ++ next.entries) ∧ replay (state.history ++ next.entries) = next.value := by
  have hstored := h.stored
  rw [replay_append, hstored]
  cases hnext with
  | quiet | minted => exact ⟨(List.append_nil state.history).symm ▸ h.guarded, rfl⟩
  | given => exact ⟨h.guarded.concat rfl, rfl⟩
  | shown generation current hvalue haccount =>
    refine ⟨h.guarded.concat ?_, rfl⟩
    change (expectedFingerprint generation).all _ = true
    cases hfingerprint : expectedFingerprint generation with
    | none => rfl
    | some fingerprint => exact decide_eq_true (haccount fingerprint hfingerprint)
  | requested current hvalue =>
    refine ⟨h.guarded.concat ?_, rfl⟩
    simp [follows, hstored, hvalue]
  | saved previous credential =>
    obtain ⟨-, hold⟩ := h.saving fiber previous credential hphase
    cases previous with
    | none =>
      have hlogin : Guarded follows (state.history ++ [.loggedIn credential]) := h.guarded.concat rfl
      exact ⟨by simpa [saved] using hlogin.concat rfl, rfl⟩
    | some old =>
      have hvalue : state.value = some old := h.current fiber _ hphase old rfl
      have hrefreshed : follows state.history (.refreshed old credential) = true := by
        simp [follows, hstored, hvalue, hold old rfl]
      have hhanded : follows (state.history ++ [.refreshed old credential])
          (.handed (some old.generation) credential) = true := by
        simp [follows, show expectedFingerprint old.generation = some old.fingerprint from h.minted old hvalue,
          hold old rfl]
      exact ⟨by simpa [saved] using (h.guarded.concat hrefreshed).concat hhanded, rfl⟩
  | removed => exact ⟨h.guarded.concat rfl, rfl⟩

theorem State.Sound.minted_next (h : state.Sound) (hphase : state.calls[fiber]? = some phase)
    (hnext : Advanced platform state.holder.isNone state.value phase action next) {credential : CredentialDisk}
    (hvalue : next.value = some credential) : Minted credential := by
  cases hnext with
  | quiet | given | shown | requested | minted => exact h.minted credential hvalue
  | saved previous _ =>
    cases hvalue
    exact (h.saving fiber previous credential hphase).1
  | removed => cases hvalue

theorem getElem?_act (hphase : state.calls[fiber]? = some phase) {phase' : Phase} (other : Nat) :
    (state.calls.set fiber phase')[other]? = if other = fiber then some phase' else state.calls[other]? := by
  have hlt : fiber < state.calls.length := (List.getElem?_eq_some_iff.mp hphase).1
  rw [List.getElem?_set]
  by_cases heq : fiber = other
  · subst heq
    simp [hlt]
  · simp [heq, Ne.symm heq]

theorem State.Sound.permit_next (h : state.Sound) (hphase : state.calls[fiber]? = some phase)
    (hnext : Advanced platform state.holder.isNone state.value phase action next) (other : Nat) :
    holderAfter state.holder fiber phase next.phase = some other ↔
      ∃ phase', (state.calls.set fiber next.phase)[other]? = some phase' ∧ phase'.holds = true := by
  have hfiber : state.holder = some fiber ↔ phase.holds = true := by
    rw [h.permit]
    simp [hphase]
  have hmine : phase.holds = true ∨ state.holder = none ∨ next.phase.holds = false := by
    cases hholds : next.phase.holds with
    | false => exact .inr (.inr rfl)
    | true =>
      rcases hnext.holds hholds with hphase | hfree
      · exact .inl hphase
      · exact .inr (.inl (Option.isNone_iff_eq_none.mp hfree))
  rw [getElem?_act hphase, holderAfter]
  by_cases hother : other = fiber
  · subst hother
    cases hholds : next.phase.holds with
    | true => simp [hholds]
    | false =>
      cases hheld : phase.holds with
      | true => simp [hholds]
      | false => simpa [hholds, hheld] using hfiber
  · rw [if_neg hother, ← h.permit]
    cases hholds : next.phase.holds with
    | true =>
      rcases hmine with hheld | hnone | hfalse
      · rw [hfiber.mpr hheld]
        simp
      · simp [hnone, Ne.symm hother]
      · rw [hholds] at hfalse
        cases hfalse
    | false =>
      cases hheld : phase.holds with
      | true => simp [hfiber.mpr hheld, Ne.symm hother]
      | false => simp

theorem State.Sound.act (h : state.Sound) (hphase : state.calls[fiber]? = some phase)
    (hnext : Advanced platform state.holder.isNone state.value phase action next) :
    State.Sound
      { value := next.value
        holder := holderAfter state.holder fiber phase next.phase
        calls := state.calls.set fiber next.phase
        history := state.history ++ next.entries
        drawn := state.drawn ++ action.drawn } := by
  obtain ⟨hguarded, hstored⟩ := h.entries hphase hnext
  refine ⟨hguarded, hstored, fun credential => h.minted_next hphase hnext, h.permit_next hphase hnext,
    fun other phase' hphase' credential hcurrent => ?_, fun other previous credential hphase' => ?_⟩
  · dsimp only at hphase' ⊢
    rw [getElem?_act hphase] at hphase'
    by_cases hother : other = fiber
    · rw [if_pos hother] at hphase'
      cases hphase'
      exact hnext.current (h.current fiber phase hphase) hcurrent
    · rw [if_neg hother] at hphase'
      -- the other call is in its section, so that this one is not
      have hholder : state.holder = some other := (h.permit other).mpr ⟨phase', hphase', holds_of_current hcurrent⟩
      have hholds : phase.holds = false := by
        rw [Bool.eq_false_iff]
        intro hholds
        have hmine : state.holder = some fiber := (h.permit fiber).mpr ⟨phase, hphase, hholds⟩
        exact hother (Option.some.inj (hholder.symm.trans hmine))
      rw [hnext.value_eq hholds]
      exact h.current other phase' hphase' credential hcurrent
  · dsimp only at hphase'
    rw [getElem?_act hphase] at hphase'
    by_cases hother : other = fiber
    · rw [if_pos hother] at hphase'
      exact hnext.saving (Option.some.inj hphase')
    · rw [if_neg hother] at hphase'
      exact h.saving other previous credential hphase'

end Acts

theorem State.Sound.step (h : state.Sound) (event : Event) : (state.step platform event).Sound := by
  cases event with
  | start call => exact h.start call
  | act fiber action =>
    rw [State.step]
    split
    · exact h
    · next phase hphase =>
        split
        · exact h
        · next next hnext => exact h.act hphase (advance_eq_some hnext)

theorem State.Sound.run (h : state.Sound) (events : List Event) : (state.run platform events).Sound := by
  induction events generalizing state with
  | nil => exact h
  | cons event events ih => exact ih (h.step event)

end Rika.OpenAiService
