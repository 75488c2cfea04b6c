import Mathlib.Data.List.Induction
import Mathlib.Data.List.Nodup
import Rika.CredentialRuns

namespace Rika.OpenAiService

open AppendLog

variable {platform : Platform} {state : State}

section History

variable {history before after : List Entry} {generation : Text}

section

variable (generation : Text)

def Entry.refreshes : Entry → Bool
  | refreshed previous _ => previous.generation = generation
  | _ => false

def Entry.storedGeneration : Entry → Option Text
  | refreshed _ credential => some credential.generation
  | loggedIn credential => some credential.generation
  | _ => none

def storedGenerations (history : List Entry) : List Text := history.filterMap Entry.storedGeneration

def refreshes (history : List Entry) : Nat := history.countP (Entry.refreshes generation)

def storedNow (value : Option CredentialDisk) : Nat :=
  if value.any (·.generation = generation) then 1 else 0

theorem storedNow_le (credential : CredentialDisk) :
    storedNow generation (some credential) = [credential.generation].count generation := by
  by_cases h : credential.generation = generation
  · simp [storedNow, h]
  · simp [storedNow, h]

end

/-- A generation is refreshed once for each time it was stored, and not again while it is stored. -/
theorem refreshes_le (h : Guarded follows history) :
    refreshes generation history + storedNow generation (replay history) ≤
      (storedGenerations history).count generation := by
  induction history using List.reverseRecOn with
  | nil => exact Nat.le_refl 0
  | append_singleton history entry ih =>
    obtain ⟨hhistory, hentry⟩ := h.of_concat
    have hle := ih hhistory
    rw [refreshes, List.countP_append, storedGenerations, List.filterMap_append, List.count_append, replay_append]
    change refreshes generation history + _ + _ ≤ (storedGenerations history).count generation + _
    cases entry with
    | requested | handed => exact hle
    | loggedIn credential =>
      change refreshes generation history + 0 + storedNow generation (some credential) ≤
        _ + [credential.generation].count generation
      rw [storedNow_le]
      omega
    | removed =>
      change refreshes generation history + 0 + 0 ≤ _ + 0
      omega
    | refreshed previous credential =>
      have hprevious : replay history = some previous := by
        rw [follows, Bool.and_eq_true, decide_eq_true_eq] at hentry
        exact hentry.1
      have hnow : storedNow generation (replay history) =
          [Entry.refreshed previous credential].countP (Entry.refreshes generation) := by
        rw [hprevious]
        by_cases hsame : previous.generation = generation
        · simp [storedNow, Entry.refreshes, hsame]
        · simp [storedNow, Entry.refreshes, hsame]
      change _ + _ + storedNow generation (some credential) ≤ _ + [credential.generation].count generation
      rw [storedNow_le]
      omega

theorem replay_removed (h : Guarded follows (before ++ .removed :: after))
    (hlogin : ∀ credential, .loggedIn credential ∉ after) : replay (before ++ .removed :: after) = none := by
  induction after using List.reverseRecOn with
  | nil => exact replay_append before [.removed]
  | append_singleton after entry ih =>
    rw [← List.cons_append, ← List.append_assoc] at h ⊢
    obtain ⟨hhistory, hentry⟩ := h.of_concat
    have hnone := ih hhistory fun credential hmem => hlogin credential (List.mem_append_left _ hmem)
    rw [replay_append, hnone]
    cases entry with
    | requested | handed | removed => rfl
    | loggedIn credential => exact absurd (List.mem_append_right _ List.mem_cons_self) (hlogin credential)
    | refreshed previous credential =>
      rw [follows, hnone] at hentry
      cases hentry

end History

section Draws

variable {generations : List Text} {draws : List RandomBytes}

def DrawnFor (generation : Text) (random : RandomBytes) : Prop :=
  ∃ fingerprint, generation = generationOf fingerprint random

theorem DrawnFor.unique {generation : Text} {random random' : RandomBytes} (h : DrawnFor generation random)
    (h' : DrawnFor generation random') : random = random' := by
  obtain ⟨fingerprint, rfl⟩ := h
  obtain ⟨fingerprint', hsame⟩ := h'
  have hfingerprints : some fingerprint = some fingerprint' := by
    have hexpected := congrArg expectedFingerprint hsame
    rwa [generationOf, generationOf, expectedFingerprint_append (notMem_encode _),
      expectedFingerprint_append (notMem_encode _)] at hexpected
  obtain rfl := Option.some.inj hfingerprints
  have hencode := List.cons.inj (List.append_cancel_left hsame)
  have hbytes := congrArg Base64Url.decode hencode.2
  have hlt : ∀ bytes : RandomBytes, ∀ byte ∈ bytes.map (·.val), byte < 256 := by
    intro bytes byte hbyte
    obtain ⟨digit, -, rfl⟩ := List.mem_map.mp hbyte
    exact digit.isLt
  rw [Base64Url.decode_encode (hlt random), Base64Url.decode_encode (hlt random')] at hbytes
  exact List.map_injective_iff.mpr (fun _ _ => Fin.ext) (Option.some.inj hbytes)

theorem nodup_of_drawn (h : List.Forall₂ DrawnFor generations draws) (hdraws : draws.Nodup) : generations.Nodup := by
  induction h with
  | nil => exact List.nodup_nil
  | @cons generation random generations draws hdrawn hrest ih =>
    obtain ⟨hfresh, hnodup⟩ := List.nodup_cons.mp hdraws
    refine List.nodup_cons.mpr ⟨fun hmem => hfresh ?_, ih hnodup⟩
    obtain ⟨i, hi, hget⟩ := List.getElem_of_mem hmem
    have hpair := hrest.get hi (hrest.length_eq ▸ hi)
    rw [List.get_eq_getElem, hget] at hpair
    rw [hdrawn.unique hpair]
    exact List.getElem_mem _

def Phase.pending : Phase → List Text
  | saving _ credential => [credential.generation]
  | _ => []

def State.pending (state : State) : List Text :=
  ((state.holder.bind fun fiber => state.calls[fiber]?).map Phase.pending).getD []

/-- Every generation that was stored or is about to be was drawn for. -/
def State.Drawn (state : State) : Prop :=
  ∃ draws, draws.Sublist state.drawn ∧
    List.Forall₂ DrawnFor (storedGenerations state.history ++ state.pending) draws

theorem State.Drawn.of_pending {state' : State} (h : state.Drawn)
    (hstored : storedGenerations state'.history = storedGenerations state.history)
    (hpending : state'.pending = [] ∨ state'.pending = state.pending) (hdrawn : state.drawn.Sublist state'.drawn) :
    state'.Drawn := by
  obtain ⟨draws, hsub, hdraws⟩ := h
  rcases hpending with hpending | hpending
  · refine ⟨draws.take (storedGenerations state.history).length, (List.take_sublist _ _).trans (hsub.trans hdrawn), ?_⟩
    have htake := List.forall₂_take (storedGenerations state.history).length hdraws
    rw [List.take_left] at htake
    rwa [hstored, hpending, List.append_nil]
  · refine ⟨draws, hsub.trans hdrawn, ?_⟩
    rwa [hstored, hpending]

variable {fiber : Nat} {phase : Phase} {action : Action} {next : Advance}

def State.after (state : State) (fiber : Nat) (phase : Phase) (action : Action) (next : Advance) : State where
  value := next.value
  holder := holderAfter state.holder fiber phase next.phase
  calls := state.calls.set fiber next.phase
  history := state.history ++ next.entries
  drawn := state.drawn ++ action.drawn

theorem pending_of_holds (h : state.Sound) (hphase : state.calls[fiber]? = some phase) (hholds : phase.holds = true) :
    state.pending = phase.pending := by
  have hholder : state.holder = some fiber := (h.permit fiber).mpr ⟨phase, hphase, hholds⟩
  rw [State.pending, hholder, Option.bind_some, hphase]
  rfl

theorem pending_after (h : state.Sound) (hphase : state.calls[fiber]? = some phase) (action : Action) (next : Advance) :
    (state.after fiber phase action next).pending =
      if next.phase.holds then next.phase.pending else if phase.holds then [] else state.pending := by
  rw [State.pending, State.after]
  dsimp only
  rw [holderAfter]
  cases hnew : next.phase.holds with
  | true =>
    rw [if_pos rfl, if_pos rfl, Option.bind_some, getElem?_act hphase, if_pos rfl]
    rfl
  | false =>
    cases hold : phase.holds with
    | true => rfl
    | false =>
      simp only [Bool.false_eq_true, if_false]
      rw [State.pending]
      cases hholder : state.holder with
      | none => rfl
      | some other =>
        have hother : other ≠ fiber := by
          rintro rfl
          obtain ⟨held, hheld, hholds⟩ := (h.permit other).mp hholder
          rw [Option.some.inj (hheld.symm.trans hphase), hold] at hholds
          cases hholds
        rw [Option.bind_some, Option.bind_some, getElem?_act hphase, if_neg hother]

theorem pending_eq_nil {phase : Phase} (h : ∀ previous credential, phase ≠ .saving previous credential) :
    phase.pending = [] := by
  cases phase with
  | saving previous credential => exact absurd rfl (h previous credential)
  | acquiring | waiting | loading | refreshing | minting | authorizing | starting | polling | exchanging | exchanged
    | leaving | removing | ended => rfl

theorem State.Drawn.act (hdrawn : state.Drawn) (h : state.Sound) (hphase : state.calls[fiber]? = some phase)
    (hnext : Advanced platform state.holder.isNone state.value phase action next) :
    (state.after fiber phase action next).Drawn := by
  have hpending := pending_after h hphase action next
  have hsublist : state.drawn.Sublist (state.after fiber phase action next).drawn := List.sublist_append_left _ _
  cases hnext with
  | quiet _ phase' _ _ hholds hsaving =>
    refine hdrawn.of_pending (congrArg storedGenerations (List.append_nil _)) ?_ hsublist
    rw [hpending, pending_eq_nil hsaving]
    split
    · exact .inl rfl
    · split
      · exact .inl rfl
      · exact .inr rfl
  | given | shown | requested =>
    refine hdrawn.of_pending ?_ ?_ hsublist
    · exact List.filterMap_append.trans (List.append_nil _)
    · rw [hpending]
      first | exact .inl rfl | exact .inr rfl
  | minted previous response now random credential hcredential =>
    obtain ⟨draws, hsub, hdraws⟩ := hdrawn
    rw [pending_of_holds h hphase rfl] at hdraws
    refine ⟨draws ++ [random], hsub.append (List.Sublist.refl _), ?_⟩
    rw [hpending]
    change List.Forall₂ DrawnFor (storedGenerations (state.history ++ []) ++ [credential.generation]) _
    rw [List.append_nil]
    change List.Forall₂ DrawnFor (storedGenerations state.history ++ []) draws at hdraws
    rw [List.append_nil] at hdraws
    exact List.rel_append hdraws (.cons ⟨_, (credentialFrom_eq_ok hcredential).1⟩ .nil)
  | saved previous credential =>
    obtain ⟨draws, hsub, hdraws⟩ := hdrawn
    rw [pending_of_holds h hphase rfl] at hdraws
    refine ⟨draws, hsub.trans hsublist, ?_⟩
    rw [hpending]
    have hstored : storedGenerations (state.history ++ saved previous credential) =
        storedGenerations state.history ++ [credential.generation] := by
      rw [storedGenerations, List.filterMap_append]
      cases previous <;> rfl
    change List.Forall₂ DrawnFor (storedGenerations (state.history ++ saved previous credential) ++ []) draws
    rw [hstored, List.append_nil]
    exact hdraws
  | removed =>
    refine hdrawn.of_pending ?_ ?_ hsublist
    · exact List.filterMap_append.trans (List.append_nil _)
    · rw [hpending]
      exact .inl rfl

theorem State.Drawn.start (h : state.Sound) (hdrawn : state.Drawn) (call : Call) :
    (state.step platform (.start call)).Drawn := by
  have hpending : (state.step platform (.start call)).pending = state.pending := by
    rw [State.pending, State.pending]
    change ((state.holder.bind fun fiber => (state.calls ++ [call.first])[fiber]?).map Phase.pending).getD [] = _
    cases hholder : state.holder with
    | none => rfl
    | some fiber =>
      obtain ⟨phase, hphase, -⟩ := (h.permit fiber).mp hholder
      rw [Option.bind_some, Option.bind_some, hphase, getElem?_start.mpr (.inl hphase)]
  exact hdrawn.of_pending rfl (.inr hpending) (List.Sublist.refl _)

theorem State.Drawn.run (h : state.Sound) (hdrawn : state.Drawn) (events : List Event) :
    (state.run platform events).Drawn := by
  induction events generalizing state with
  | nil => exact hdrawn
  | cons event events ih =>
    refine ih (h.step event) ?_
    cases event with
    | start call => exact hdrawn.start h call
    | act fiber action =>
      rw [State.step]
      split
      · exact hdrawn
      · next phase hphase =>
          split
          · exact hdrawn
          · next next hnext => exact hdrawn.act h hphase (advance_eq_some hnext)

end Draws

section Callers

variable {fiber : Nat} {phase : Phase} {action : Action} {next : Advance} {generation : Text}

def Serves (generation : Text) : Phase → Prop
  | .waiting presented | .loading presented => presented = generation
  | .refreshing current => current.generation = generation
  | .minting previous _ | .saving previous _ => ∃ current, previous = some current ∧ current.generation = generation
  | .ended outcome =>
    ∀ credential, outcome = .credential credential → ∀ fingerprint,
      expectedFingerprint generation = some fingerprint → credential.fingerprint = fingerprint
  | _ => False

theorem serves_failed {failure : Failure} : Serves generation (.ended (.failed failure)) := by
  intro credential hcredential
  cases hcredential

theorem serves_refreshCurrent {value : Option CredentialDisk} :
    Serves generation (refreshCurrent value generation).phase := by
  cases value with
  | none => exact serves_failed
  | some current =>
    unfold refreshCurrent
    dsimp only
    split
    · split
      · exact serves_failed
      · next haccount =>
          intro credential hcredential fingerprint hfingerprint
          cases hcredential
          rw [hfingerprint, Option.any_some, decide_eq_true_eq, not_not] at haccount
          exact haccount.symm
    · next hgeneration => exact not_not.mp hgeneration

theorem Serves.advance {free : Bool} {value : Option CredentialDisk} (h : Serves generation phase)
    (hnext : advance platform free value phase action = some next)
    (hsaving : ∀ previous credential, phase = .saving (some previous) credential →
      Minted previous ∧ credential.fingerprint = previous.fingerprint) : Serves generation next.phase := by
  unfold OpenAiService.advance at hnext
  split at hnext
  · cases h
  · split at hnext
    · cases hnext
      exact h
    · cases hnext
  · obtain rfl : _ = generation := h
    cases hnext
    exact serves_refreshCurrent
  · next current response =>
      cases hnext
      exact ⟨current, rfl, h⟩
  · split at hnext
    · cases hnext
      exact serves_failed
    · cases hnext
      exact h
  · next previous credential =>
      cases hnext
      intro handed hhanded fingerprint hfingerprint
      cases hhanded
      obtain ⟨current, rfl, rfl⟩ := h
      obtain ⟨hminted, hsame⟩ := hsaving current credential rfl
      rw [hsame]
      exact Option.some.inj (hminted.symm.trans hfingerprint)
  · cases h
  · cases h
  · cases h
  · cases h
  · cases h
  · cases h
  · cases h
  · cases hnext
    exact serves_failed
  · cases hnext
  · cases hnext
    exact serves_failed
  · split at hnext
    · cases hnext
      intro credential hcredential
      cases hcredential
    · cases hnext
  · cases hnext

theorem State.Sound.minted_saving (h : state.Sound) (hphase : state.calls[fiber]? = some phase)
    {previous credential : CredentialDisk} (hsaving : phase = .saving (some previous) credential) :
    Minted previous ∧ credential.fingerprint = previous.fingerprint := by
  subst hsaving
  exact ⟨h.minted previous (h.current fiber _ hphase previous rfl), (h.saving fiber _ _ hphase).2 previous rfl⟩

theorem serves_step (h : state.Sound) (event : Event)
    (hserves : ∀ phase, state.calls[fiber]? = some phase → Serves generation phase) (hlt : fiber < state.calls.length) :
    fiber < (state.step platform event).calls.length ∧
      ∀ phase, (state.step platform event).calls[fiber]? = some phase → Serves generation phase := by
  cases event with
  | start call =>
    refine ⟨?_, fun phase hphase => ?_⟩
    · change fiber < (state.calls ++ [call.first]).length
      rw [List.length_append]
      exact Nat.lt_add_right _ hlt
    · rcases getElem?_start.mp hphase with hphase | ⟨heq, -⟩
      · exact hserves phase hphase
      · exact absurd heq (Nat.ne_of_lt hlt)
  | act other action =>
    rw [State.step]
    split
    · exact ⟨hlt, hserves⟩
    · next phase hphase =>
        split
        · exact ⟨hlt, hserves⟩
        · next next hnext =>
            refine ⟨by rwa [List.length_set], fun phase' hphase' => ?_⟩
            rw [getElem?_act hphase] at hphase'
            by_cases heq : fiber = other
            · subst heq
              rw [if_pos rfl] at hphase'
              obtain rfl := Option.some.inj hphase'
              exact (hserves phase hphase).advance hnext fun _ _ => h.minted_saving hphase
            · rw [if_neg heq] at hphase'
              exact hserves phase' hphase'

theorem serves_run (h : state.Sound) (events : List Event)
    (hserves : ∀ phase, state.calls[fiber]? = some phase → Serves generation phase) (hlt : fiber < state.calls.length)
    (hphase : (state.run platform events).calls[fiber]? = some phase) : Serves generation phase := by
  induction events generalizing state with
  | nil => exact hserves phase hphase
  | cons event events ih =>
    obtain ⟨hlt', hserves'⟩ := serves_step h event hserves hlt
    exact ih (h.step event) hserves' hlt' hphase

theorem handed_of_presented {before after : List Event} {fingerprint : Text} {credential : CredentialDisk}
    (haccount : expectedFingerprint generation = some fingerprint)
    (hended : (empty.run platform (before ++ .start (.refreshRejected generation) :: after)).calls[
      (empty.run platform before).calls.length]? = some (.ended (.credential credential))) :
    credential.fingerprint = fingerprint := by
  have hsound : (empty.run platform before).Sound := empty_sound.run before
  rw [State.run, List.foldl_append, List.foldl_cons] at hended
  have hserves : Serves generation (.ended (.credential credential)) := by
    refine serves_run (hsound.start (.refreshRejected generation)) after (fun phase hphase => ?_) ?_ hended
    · rcases getElem?_start.mp hphase with hphase | ⟨-, rfl⟩
      · exact absurd (List.getElem?_eq_some_iff.mp hphase).1 (Nat.lt_irrefl _)
      · rfl
    · change _ < (_ ++ [Call.first _]).length
      rw [List.length_append]
      exact Nat.lt_succ_self _
  exact hserves credential rfl fingerprint haccount

end Callers

theorem empty_drawn : empty.Drawn := ⟨[], List.Sublist.refl _, .nil⟩

/-- In every run the credential is what its replacements leave, a refresh keeps the account, and no caller gets another
account's. -/
theorem one_refresh_per_generation (platform : Platform) (events : List Event) :
    let state := empty.run platform events
    replay state.history = state.value ∧
      (∀ generation, refreshes generation state.history ≤ (storedGenerations state.history).count generation) ∧
      (state.drawn.Nodup → ∀ generation, refreshes generation state.history ≤ 1) ∧
      (∀ before after refreshToken, state.history = before ++ .requested refreshToken :: after →
        ∃ current, replay before = some current ∧ current.refreshToken = refreshToken) ∧
      (∀ before after previous credential, state.history = before ++ .refreshed previous credential :: after →
        replay before = some previous ∧ credential.fingerprint = previous.fingerprint) ∧
      (∀ before after, state.history = before ++ .removed :: after → (∀ credential, .loggedIn credential ∉ after) →
        state.value = none) ∧
      ∀ before after generation fingerprint credential,
        events = before ++ .start (.refreshRejected generation) :: after →
          expectedFingerprint generation = some fingerprint →
            state.calls[(empty.run platform before).calls.length]? = some (.ended (.credential credential)) →
              credential.fingerprint = fingerprint := by
  intro state
  have hsound : state.Sound := empty_sound.run events
  have hle : ∀ generation, refreshes generation state.history ≤ (storedGenerations state.history).count generation :=
    fun generation => Nat.le_of_add_right_le (refreshes_le hsound.guarded)
  refine ⟨hsound.stored, hle, fun hdrawn generation => ?_, fun before after refreshToken hhistory => ?_,
    fun before after previous credential hhistory => ?_, fun before after hhistory hlogin => ?_,
    fun before after generation fingerprint credential hevents haccount hended => ?_⟩
  · obtain ⟨draws, hsub, hdraws⟩ := empty_drawn.run empty_sound events
    have hnodup := (List.nodup_append.mp (nodup_of_drawn hdraws (hdrawn.sublist hsub))).1
    exact Nat.le_trans (hle generation) (List.nodup_iff_count_le_one.mp hnodup generation)
  · have hguarded := hsound.guarded
    rw [hhistory] at hguarded
    have hfollows := of_decide_eq_true hguarded.split
    exact Option.map_eq_some_iff.mp hfollows
  · have hguarded := hsound.guarded
    rw [hhistory] at hguarded
    have hfollows := hguarded.split
    rw [follows, Bool.and_eq_true, decide_eq_true_eq, decide_eq_true_eq] at hfollows
    exact hfollows
  · have hguarded := hsound.guarded
    rw [hhistory] at hguarded
    rw [← hsound.stored, hhistory]
    exact replay_removed hguarded hlogin
  · subst hevents
    exact handed_of_presented haccount hended

section Sample

def samplePlatform : Platform where
  digest := id
  utf8 text := text.map Char.toNat
  decodeBase64UrlString := some
  identityClaims text := some ⟨some text, some text, none⟩
  expiryClaims _ := none

def sampleResponse (refreshToken : String) : TokenResponse :=
  ⟨some "access".toList, some "head.account.tail".toList, some refreshToken.toList, some 60⟩

def sampleLogin : List Event :=
  [.start (.loginBrowser "state".toList), .act 0 (.authorize "state".toList), .act 0 (.answer (sampleResponse "first")),
    .act 0 .enter, .act 0 (.mint 0 [0]), .act 0 .save]

def sampleGeneration : Text :=
  generationOf (fingerprintOf samplePlatform "account".toList "account".toList) [0]

def sampleEvents : List Event :=
  sampleLogin ++
    [.start .acquire, .start (.refreshRejected sampleGeneration), .act 1 (.load 0), .act 2 .enter, .act 2 .loadCurrent,
      .act 2 (.answer (sampleResponse "second")), .act 1 .enter, .act 2 (.mint 0 [1]), .act 2 .save, .act 1 .enter,
      .act 1 .loadCurrent]

theorem one_refresh_per_generation_sample :
    (∀ generation, refreshes generation (empty.run samplePlatform sampleEvents).history ≤ 1) ∧
      refreshes sampleGeneration (empty.run samplePlatform sampleEvents).history = 1 ∧
      (empty.run samplePlatform sampleEvents).value.map (·.refreshToken) = some "second".toList :=
  ⟨(one_refresh_per_generation samplePlatform sampleEvents).2.2.1 (by decide +kernel), by decide +kernel, by decide +kernel⟩

end Sample

end Rika.OpenAiService
