import Rika.BoxProvider

namespace Rika.BoxProvider

section Answers

variable (codecs : Codecs) (operation : BoxProviderOperation) (select : String → Option Box)

def errorCode (response : Response) : Option String :=
  match decodeResponse codecs operation codecs.errorResponse response with
  | .ok error => some error.code
  | .error _ => none

section

variable (answer : Option Exchange)

def Acknowledged : Prop :=
  ∃ response box, answer = some (.responded response) ∧ response.ok = true ∧
    decodeResponse codecs operation select response = .ok box

/-- The answer is a response that is neither a success nor a server error. -/
def Rejected : Prop :=
  ∃ response, answer = some (.responded response) ∧ response.ok = false ∧ response.status < 500

def InProgress : Prop :=
  ∃ response, answer = some (.responded response) ∧ response.status = 409 ∧
    errorCode codecs operation response = some "idempotency_in_progress"

/-- The answers by which the provider says that the request had no effect. -/
def RefusedForGood : Prop :=
  ∃ response code, answer = some (.responded response) ∧ 400 ≤ response.status ∧ response.status < 500 ∧
    errorCode codecs operation response = some code ∧ code ≠ "idempotency_in_progress"

/-- The answer leaves open what became of the request, and the call goes on. -/
def InVain : Prop :=
  ¬ Acknowledged codecs operation select answer ∧ (Rejected answer → InProgress codecs operation answer)

end

end Answers

def ClockRefused (request : BillableRequest) (now : Int) : Prop :=
  request.expiresAtMillis - request.issuedAtMillis ≠ idempotencyWindowMillis ∨ now < request.issuedAtMillis

/-- The window is of the right length and the clock stands in it. -/
def Admitted (request : BillableRequest) (now : Int) : Prop :=
  request.expiresAtMillis - request.issuedAtMillis = idempotencyWindowMillis ∧ request.issuedAtMillis ≤ now ∧
    now < request.expiresAtMillis

def Call.operation : Call → BoxProviderOperation
  | .create _ => .create
  | .fork _ => .fork
  | .resume _ => .resume
  | .stop _ => .stop

def Call.billed : Call → Option BillableRequest
  | .create input => input
  | .fork input => input.map ForkRequest.toBillableRequest
  | .resume _ | .stop _ => none

def Call.acted : Call → Option ActionRequest
  | .create _ | .fork _ => none
  | .resume input | .stop input => input

def Call.select (codecs : Codecs) : Call → String → Option Box
  | .create _ => codecs.createResponse
  | .fork _ => fun text => (codecs.actionResponse text).map (ActionResponse.selected .provisioning false)
  | .resume _ => fun text => (codecs.actionResponse text).map (ActionResponse.selected .provisioning true)
  | .stop _ => fun text => (codecs.actionResponse text).map (ActionResponse.selected .archiving false)

/-- Which attempts may have taken effect, as far as the answers tell: one at most,
and none that was refused for good. -/
structure Possible (codecs : Codecs) (operation : BoxProviderOperation) (rounds : Nat → Round) (took : Nat → Prop) :
    Prop where
  once : ∀ i j, took i → took j → i = j
  refused : ∀ i, took i → ¬ RefusedForGood codecs operation (rounds i).answer

/-- A definite failure means that no attempt took effect, and an attempt repeats the request's key and body within its
window. -/
structure Honest (codecs : Codecs) (options : BoxHttpProviderOptions) (call : Call) (rounds : Nat → Round) : Prop where
  untaken : ∀ took, Possible codecs call.operation rounds took → ∀ error,
    (perform codecs options rounds call).outcome = .error error → error.kind.Definite →
      ∀ i, 1 ≤ i → i ≤ (perform codecs options rounds call).sent.length → ¬ took i
  unchanged : ∀ request, call.billed = some request → ∀ sent ∈ (perform codecs options rounds call).sent,
    sent.request.body = request.body ∧ sent.request.idempotencyKey = some request.idempotencyKey ∧
      ∃ now, sent.admittedAt = some now ∧ Admitted request now

/-- Its clock or a rejection ends a billable call at its first attempt only, and a rejection that ends a call refuses it
for good. -/
structure Conclusive (codecs : Codecs) (options : BoxHttpProviderOptions) (call : Call) (rounds : Nat → Round) :
    Prop where
  billable : ∀ request, call.billed = some request → ∀ n, 1 ≤ n → n ≤ options.retryAttempts →
    (∀ m, 1 ≤ m → m < n → Admitted request (rounds m).now ∧
      InVain codecs call.operation (call.select codecs) (rounds m).answer) →
    (ClockRefused request (rounds n).now → n = 1) ∧
      (Admitted request (rounds n).now → Rejected (rounds n).answer →
        ¬ InProgress codecs call.operation (rounds n).answer →
        n = 1 ∧ RefusedForGood codecs call.operation (rounds n).answer)
  action : ∀ request, call.acted = some request → Rejected (rounds 1).answer →
    RefusedForGood codecs call.operation (rounds 1).answer

section Exchanges

variable {codecs : Codecs} {operation : BoxProviderOperation} {select : String → Option Box} {answer : Option Exchange}
  {response : Response} {error : BoxProviderError}

theorem responseText_error (h : responseText codecs operation response = .error error) :
    error.kind = .invalidResponse ∧ error.status = some response.status := by
  rw [responseText] at h
  split at h
  · cases h
  · next body _ =>
      split at h
      · cases h
        exact ⟨rfl, rfl⟩
      · split at h
        · cases h
          exact ⟨rfl, rfl⟩
        · cases hread : readBody codecs body with
          | error message =>
            rw [hread] at h
            cases h
            exact ⟨rfl, rfl⟩
          | ok text =>
            rw [hread] at h
            cases h
      · cases hread : readBody codecs body with
        | error message =>
          rw [hread] at h
          cases h
          exact ⟨rfl, rfl⟩
        | ok text =>
          rw [hread] at h
          cases h

theorem decodeResponse_error {α : Type} {schema : String → Option α}
    (h : decodeResponse codecs operation schema response = .error error) :
    error.kind = .invalidResponse ∧ error.status = some response.status := by
  rw [decodeResponse] at h
  cases htext : responseText codecs operation response with
  | error failure =>
    rw [htext] at h
    cases h
    exact responseText_error htext
  | ok text =>
    rw [htext] at h
    dsimp only [bind, Except.bind] at h
    cases hschema : schema text with
    | some decoded =>
      rw [hschema] at h
      cases h
    | none =>
      rw [hschema] at h
      cases h
      exact ⟨rfl, rfl⟩

theorem rejected_spec (codecs : Codecs) (operation : BoxProviderOperation) (response : Response) :
    (rejected codecs operation response).status = some response.status ∧
    (rejected codecs operation response).code = errorCode codecs operation response ∧
    ((rejected codecs operation response).kind = .providerRejected ∨
      (rejected codecs operation response).kind = .idempotencyReused) := by
  rw [rejected, errorCode]
  cases decodeResponse codecs operation codecs.errorResponse response with
  | error _ => exact ⟨rfl, rfl, .inl rfl⟩
  | ok decoded =>
    by_cases hreused : decoded.code = "idempotency_key_reused"
    · simp [hreused]
    · simp [hreused]

theorem definite_of_rejected {kind : BoxProviderErrorKind} (h : kind = .providerRejected ∨ kind = .idempotencyReused) :
    kind.Definite := by
  rcases h with rfl | rfl
  · exact ⟨by decide, by decide, by decide⟩
  · exact ⟨by decide, by decide, by decide⟩

theorem not_rejected_none : ¬ Rejected none := by
  rintro ⟨_, h, -⟩
  cases h

theorem not_rejected_failed : ¬ Rejected (some .failed) := by
  rintro ⟨_, h, -⟩
  cases h

theorem not_rejected_of_acknowledged (h : Acknowledged codecs operation select answer) : ¬ Rejected answer := by
  obtain ⟨response, box, rfl, hok, -⟩ := h
  rintro ⟨_, ⟨⟩, hnot, -⟩
  rw [hok] at hnot
  cases hnot

theorem billableExchange_cases (codecs : Codecs) (operation : BoxProviderOperation) (select : String → Option Box)
    (answer : Option Exchange) :
    (∃ box, withinTimeout operation false (answer.map (billableExchange codecs operation select)) = .ok box ∧
      Acknowledged codecs operation select answer) ∨
    (∃ error, withinTimeout operation false (answer.map (billableExchange codecs operation select)) = .error error ∧
      isRetryableBillableError error = true ∧ InVain codecs operation select answer) ∨
    ∃ error, withinTimeout operation false (answer.map (billableExchange codecs operation select)) = .error error ∧
      isRetryableBillableError error = false ∧ error.kind.Definite ∧ Rejected answer ∧
      ¬ InProgress codecs operation answer := by
  match answer with
  | none =>
    refine .inr (.inl ⟨_, rfl, rfl, ?_, fun h => absurd h not_rejected_none⟩)
    rintro ⟨_, _, h, -⟩
    cases h
  | some .failed =>
    refine .inr (.inl ⟨_, rfl, rfl, ?_, fun h => absurd h not_rejected_failed⟩)
    rintro ⟨_, _, h, -⟩
    cases h
  | some (.responded response) =>
    have hexchange : withinTimeout operation false
        ((some (.responded response)).map (billableExchange codecs operation select)) =
        if response.ok then decodeResponse codecs operation select response
        else .error (rejected codecs operation response) := rfl
    rw [hexchange]
    by_cases hok : response.ok = true
    · rw [if_pos hok]
      cases hdecode : decodeResponse codecs operation select response with
      | ok box => exact .inl ⟨box, rfl, response, box, rfl, hok, hdecode⟩
      | error error =>
        obtain ⟨hkind, hstatus⟩ := decodeResponse_error hdecode
        refine .inr (.inl ⟨error, rfl, ?_, ?_, ?_⟩)
        · rw [Response.ok, Bool.and_eq_true] at hok
          rw [isRetryableBillableError, hkind, hstatus]
          simp only [hok.1, hok.2]
          simp
        · rintro ⟨_, box, ⟨⟩, -, hbox⟩
          rw [hdecode] at hbox
          cases hbox
        · rintro ⟨_, ⟨⟩, hnot, -⟩
          rw [hok] at hnot
          cases hnot
    · rw [if_neg hok]
      obtain ⟨hstatus, hcode, hkind⟩ := rejected_spec codecs operation response
      have hunacknowledged : ¬ Acknowledged codecs operation select (some (.responded response)) := by
        rintro ⟨_, _, ⟨⟩, h, -⟩
        exact hok h
      have hretryable : isRetryableBillableError (rejected codecs operation response) = true ↔
          500 ≤ response.status ∨
            response.status = 409 ∧ errorCode codecs operation response = some "idempotency_in_progress" := by
        rw [isRetryableBillableError, hstatus, hcode]
        rcases hkind with hkind | hkind
        · simp [hkind]
        · simp [hkind]
      by_cases hretry : isRetryableBillableError (rejected codecs operation response) = true
      · refine .inr (.inl ⟨_, rfl, hretry, hunacknowledged, ?_⟩)
        rintro ⟨_, ⟨⟩, -, hlt⟩
        rcases hretryable.mp hretry with hle | hprogress
        · omega
        · exact ⟨response, rfl, hprogress⟩
      · refine .inr (.inr ⟨_, rfl, Bool.not_eq_true _ ▸ hretry, ?_, ?_, ?_⟩)
        · exact definite_of_rejected hkind
        · refine ⟨response, rfl, Bool.not_eq_true _ ▸ hok, ?_⟩
          by_contra hle
          exact hretry (hretryable.mpr (.inl (Nat.le_of_not_lt hle)))
        · rintro ⟨_, ⟨⟩, hprogress⟩
          exact hretry (hretryable.mpr (.inr hprogress))

end Exchanges

section Attempts

variable {codecs : Codecs} {options : BoxHttpProviderOptions} {operation : BoxProviderOperation} {path : String}
  {request : BillableRequest} {select : String → Option Box} {rounds : Nat → Round}

theorem not_admitted_of_clockRefused {now : Int} (h : ClockRefused request now) : ¬ Admitted request now := by
  rintro ⟨hwindow, hissued, -⟩
  rcases h with h | h
  · exact h hwindow
  · omega

/-- How the attempt `last` ends a call, and how many requests it sends. -/
inductive EndsAt (codecs : Codecs) (options : BoxHttpProviderOptions) (operation : BoxProviderOperation)
    (request : BillableRequest) (select : String → Option Box) (rounds : Nat → Round) (last : Nat) :
    Nat → Except BoxProviderError Box → Prop
  | clockRefused (error : BoxProviderError) (refused : ClockRefused request (rounds last).now)
      (kind : error.kind = .invalidRequest) : EndsAt codecs options operation request select rounds last 0 (.error error)
  | expired (error : BoxProviderError) (refused : ¬ ClockRefused request (rounds last).now)
      (expired : ¬ Admitted request (rounds last).now) (kind : error.kind = .idempotencyExpired) :
      EndsAt codecs options operation request select rounds last 0 (.error error)
  | acknowledged (box : Box) (admitted : Admitted request (rounds last).now)
      (acknowledged : Acknowledged codecs operation select (rounds last).answer) :
      EndsAt codecs options operation request select rounds last 1 (.ok box)
  | rejected (error : BoxProviderError) (admitted : Admitted request (rounds last).now)
      (rejected : Rejected (rounds last).answer) (ended : ¬ InProgress codecs operation (rounds last).answer)
      (kind : error.kind.Definite) :
      EndsAt codecs options operation request select rounds last 1 (.error error)
  | exhausted (error : BoxProviderError) (admitted : Admitted request (rounds last).now)
      (exhausted : options.retryAttempts ≤ last) (kind : error.kind = .retryExhausted)
      (inVain : InVain codecs operation select (rounds last).answer) :
      EndsAt codecs options operation request select rounds last 1 (.error error)

theorem billableAttempt_ends (codecs : Codecs) (options : BoxHttpProviderOptions) (operation : BoxProviderOperation)
    (path : String) (request : BillableRequest) (select : String → Option Box) (rounds : Nat → Round) (number : Nat) :
    ∃ last beyond, number ≤ last ∧ (last = number ∨ last ≤ options.retryAttempts) ∧
      (billableAttempt codecs options operation path request select rounds number).sent.length + number =
        last + beyond ∧
      EndsAt codecs options operation request select rounds last beyond
        (billableAttempt codecs options operation path request select rounds number).outcome ∧
      ∀ m, number ≤ m → m < last → Admitted request (rounds m).now ∧
        InVain codecs operation select (rounds m).answer := by
  have hnone : ∀ m, number ≤ m → m < number → Admitted request (rounds m).now ∧
      InVain codecs operation select (rounds m).answer := by
    intro m hle hlt
    omega
  rw [billableAttempt]
  by_cases hrefused : request.expiresAtMillis - request.issuedAtMillis ≠ idempotencyWindowMillis ∨
      (rounds number).now < request.issuedAtMillis
  · rw [if_pos hrefused]
    exact ⟨number, 0, Nat.le_refl _, .inl rfl, by simp, .clockRefused _ hrefused rfl, hnone⟩
  · rw [if_neg hrefused]
    by_cases hexpired : request.expiresAtMillis ≤ (rounds number).now
    · rw [if_pos hexpired]
      refine ⟨number, 0, Nat.le_refl _, .inl rfl, by simp, .expired _ hrefused ?_ rfl, hnone⟩
      intro hadmitted
      exact absurd hadmitted.2.2 (by omega)
    · rw [if_neg hexpired]
      have hadmitted : Admitted request (rounds number).now := by
        rw [not_or, not_not] at hrefused
        exact ⟨hrefused.1, by omega, by omega⟩
      obtain ⟨box, hok, hack⟩ | ⟨error, herror, hretry, hvain⟩ | ⟨error, herror, hretry, hkind, hrejected, hended⟩ :=
        billableExchange_cases codecs operation select (rounds number).answer
      · rw [hok]
        exact ⟨number, 1, Nat.le_refl _, .inl rfl, by simp; omega, .acknowledged box hadmitted hack, hnone⟩
      · rw [herror]
        simp only [hretry, not_true_eq_false, if_false]
        by_cases hlast : options.retryAttempts ≤ number
        · rw [if_pos hlast]
          exact ⟨number, 1, Nat.le_refl _, .inl rfl, by simp; omega, .exhausted _ hadmitted hlast rfl hvain, hnone⟩
        · rw [if_neg hlast]
          obtain ⟨last, beyond, hle, hbound, hlength, hends, hbefore⟩ :=
            billableAttempt_ends codecs options operation path request select rounds (number + 1)
          refine ⟨last, beyond, by omega, by omega, ?_, hends, ?_⟩
          · rw [List.length_cons]
            omega
          · intro m hm hmlast
            by_cases hfirst : m = number
            · rw [hfirst]
              exact ⟨hadmitted, hvain⟩
            · exact hbefore m (by omega) hmlast
      · rw [herror]
        simp only [hretry, Bool.false_eq_true, not_false_eq_true, if_true]
        exact ⟨number, 1, Nat.le_refl _, .inl rfl, by simp; omega, .rejected _ hadmitted hrejected hended hkind,
          hnone⟩
termination_by options.retryAttempts - number

theorem billableAttempt_sent (codecs : Codecs) (options : BoxHttpProviderOptions) (operation : BoxProviderOperation)
    (path : String) (request : BillableRequest) (select : String → Option Box) (rounds : Nat → Round) (number : Nat) :
    ∀ sent ∈ (billableAttempt codecs options operation path request select rounds number).sent,
      sent.request = ⟨path, request.body, some request.idempotencyKey⟩ ∧
        ∃ now, sent.admittedAt = some now ∧ Admitted request now := by
  intro sent hsent
  rw [billableAttempt] at hsent
  by_cases hrefused : request.expiresAtMillis - request.issuedAtMillis ≠ idempotencyWindowMillis ∨
      (rounds number).now < request.issuedAtMillis
  · rw [if_pos hrefused] at hsent
    cases hsent
  · rw [if_neg hrefused] at hsent
    by_cases hexpired : request.expiresAtMillis ≤ (rounds number).now
    · rw [if_pos hexpired] at hsent
      cases hsent
    · rw [if_neg hexpired] at hsent
      have hadmitted : Admitted request (rounds number).now := by
        rw [not_or, not_not] at hrefused
        exact ⟨hrefused.1, by omega, by omega⟩
      have hfirst : sent ∈ [(⟨⟨path, request.body, some request.idempotencyKey⟩, some (rounds number).now⟩ : Sent)] →
          sent.request = ⟨path, request.body, some request.idempotencyKey⟩ ∧
            ∃ now, sent.admittedAt = some now ∧ Admitted request now := by
        intro hmem
        obtain rfl := List.mem_singleton.mp hmem
        exact ⟨rfl, _, rfl, hadmitted⟩
      split at hsent
      · exact hfirst hsent
      · split at hsent
        · exact hfirst hsent
        · split at hsent
          · exact hfirst hsent
          · rcases List.mem_cons.mp hsent with hsame | hrest
            · exact hfirst (List.mem_singleton.mpr hsame)
            · exact billableAttempt_sent codecs options operation path request select rounds (number + 1) sent hrest
termination_by options.retryAttempts - number

theorem not_refusedForGood_of_inVain {answer : Option Exchange} (h : InVain codecs operation select answer) :
    ¬ RefusedForGood codecs operation answer := by
  rintro ⟨response, code, rfl, hle, hlt, hcode, hne⟩
  have hok : response.ok = false := by
    rw [Response.ok, Bool.and_eq_false_iff]
    exact .inr (decide_eq_false (by omega))
  obtain ⟨_, ⟨⟩, -, hprogress⟩ := h.2 ⟨response, rfl, hok, hlt⟩
  rw [hcode] at hprogress
  exact hne (Option.some_inj.mp hprogress)

theorem possible_singleton {n : Nat} (h : ¬ RefusedForGood codecs operation (rounds n).answer) :
    Possible codecs operation rounds (· = n) where
  once := by
    intro i j hi hj
    rw [hi, hj]
  refused := by
    intro i hi
    rw [hi]
    exact h

theorem billable_untaken (codecs : Codecs) (options : BoxHttpProviderOptions) (operation : BoxProviderOperation)
    (path : String) (request : BillableRequest) (select : String → Option Box) (rounds : Nat → Round) :
    (∀ took, Possible codecs operation rounds took → ∀ error,
      (billable codecs options operation path request select rounds).outcome = .error error → error.kind.Definite →
        ∀ i, 1 ≤ i → i ≤ (billable codecs options operation path request select rounds).sent.length → ¬ took i) ↔
      ∀ n, 1 ≤ n → n ≤ options.retryAttempts →
        (∀ m, 1 ≤ m → m < n → Admitted request (rounds m).now ∧ InVain codecs operation select (rounds m).answer) →
        (ClockRefused request (rounds n).now → n = 1) ∧
          (Admitted request (rounds n).now → Rejected (rounds n).answer →
            ¬ InProgress codecs operation (rounds n).answer →
            n = 1 ∧ RefusedForGood codecs operation (rounds n).answer) := by
  obtain ⟨last, beyond, hfirst, hlast, hlength, hends, hbefore⟩ :=
    billableAttempt_ends codecs options operation path request select rounds 1
  have hbounds := options.retryAttempts_bounds
  rw [billable]
  generalize billableAttempt codecs options operation path request select rounds 1 = ended at hlength hends ⊢
  obtain ⟨sent, outcome⟩ := ended
  dsimp only at hlength hends ⊢
  constructor
  · intro huntaken n hn hbound hvain
    -- an attempt that is refused is not in vain, so it is the one that ends the call
    have hends_at : ¬ (Admitted request (rounds n).now ∧ InVain codecs operation select (rounds n).answer) →
        n = last := by
      intro hnot
      by_contra hne
      rcases Nat.lt_or_gt_of_ne hne with hlt | hlt
      · exact hnot (hbefore n hn hlt)
      · have hpast := hvain last hfirst hlt
        cases hends with
        | clockRefused _ hrefused => exact not_admitted_of_clockRefused hrefused hpast.1
        | expired _ _ hexpired => exact hexpired hpast.1
        | acknowledged _ _ hack => exact hpast.2.1 hack
        | rejected _ _ hrejected hended => exact hended (hpast.2.2 hrejected)
        | exhausted _ _ hexhausted => omega
    have hone : ∀ error, outcome = .error error → error.kind.Definite → n = last → n = 1 := by
      intro error herror hkind hsame
      by_contra hne
      have hvain := (hbefore 1 (Nat.le_refl _) (by omega)).2
      exact huntaken _ (possible_singleton (not_refusedForGood_of_inVain hvain)) error herror hkind 1 (Nat.le_refl _)
        (by omega) rfl
    constructor
    · intro hrefused
      have hsame := hends_at fun hpast => not_admitted_of_clockRefused hrefused hpast.1
      subst hsame
      cases hends with
      | clockRefused error _ hkind => exact hone error rfl (by rw [hkind]; exact ⟨by decide, by decide, by decide⟩) rfl
      | expired _ hnot => exact absurd hrefused hnot
      | acknowledged _ hadmitted | rejected _ hadmitted | exhausted _ hadmitted =>
        exact absurd hadmitted (not_admitted_of_clockRefused hrefused)
    · intro hadmitted hrejected hended
      have hsame := hends_at fun hpast => hended (hpast.2.2 hrejected)
      subst hsame
      cases hends with
      | clockRefused error hrefused => exact absurd hadmitted (not_admitted_of_clockRefused hrefused)
      | expired _ _ hexpired => exact absurd hadmitted hexpired
      | acknowledged _ _ hack => exact absurd hrejected (not_rejected_of_acknowledged hack)
      | rejected error _ _ _ hkind =>
        refine ⟨hone error rfl hkind rfl, ?_⟩
        by_contra hgood
        exact huntaken _ (possible_singleton hgood) error rfl hkind n hn (by omega) rfl
      | exhausted _ _ _ _ hvain => exact absurd (hvain.2 hrejected) hended
  · intro hconclusive took hpossible error herror hkind i hi hle
    have hcondition := hconclusive last hfirst (by omega) hbefore
    cases hends with
    | clockRefused _ hrefused =>
      have hone := hcondition.1 hrefused
      omega
    | expired _ _ _ hexpired =>
      obtain rfl := Except.error.inj herror
      exact absurd hexpired hkind.2.1
    | acknowledged _ _ _ => cases herror
    | rejected _ hadmitted hrejected hended _ =>
      obtain ⟨hone, hgood⟩ := hcondition.2 hadmitted hrejected hended
      intro htook
      have hsame : i = last := by omega
      rw [hsame] at htook
      exact hpossible.refused last htook hgood
    | exhausted _ _ _ hexhausted =>
      obtain rfl := Except.error.inj herror
      exact absurd hexhausted hkind.1

end Attempts

section Actions

variable {codecs : Codecs} {operation : BoxProviderOperation} {path body : String} {select : String → Option Box}
  {rounds : Nat → Round}

section

variable (codecs : Codecs) (operation : BoxProviderOperation) (path body : String) (select : String → Option Box)

theorem action_definite (answer : Option Exchange) :
    (∃ error, (action codecs operation path body select answer).outcome = .error error ∧ error.kind.Definite) ↔
      Rejected answer := by
  match answer with
  | none =>
    constructor
    · rintro ⟨error, herror, hkind⟩
      cases herror
      exact absurd rfl hkind.2.2
    · intro h
      exact absurd h not_rejected_none
  | some .failed =>
    constructor
    · rintro ⟨error, herror, hkind⟩
      cases herror
      exact absurd rfl hkind.2.2
    · intro h
      exact absurd h not_rejected_failed
  | some (.responded response) =>
    have houtcome : (action codecs operation path body select (some (.responded response))).outcome =
        (if response.ok then decodeResponse codecs operation select response
        else if 500 ≤ response.status then
          .error ⟨operation, .outcomeUnknown, "Box provider did not confirm the lifecycle outcome", none, none⟩
        else .error (rejected codecs operation response)).mapError fun error =>
          if error.kind = .transport ∨ error.kind = .invalidResponse then
            ⟨operation, .outcomeUnknown, "Box provider did not confirm the lifecycle outcome", none, none⟩
          else error := rfl
    rw [houtcome]
    by_cases hok : response.ok = true
    · rw [if_pos hok]
      constructor
      · rintro ⟨error, herror, hkind⟩
        cases hdecode : decodeResponse codecs operation select response with
        | ok box =>
          rw [hdecode] at herror
          cases herror
        | error failure =>
          rw [hdecode, Except.mapError, if_pos (.inr (decodeResponse_error hdecode).1)] at herror
          cases herror
          exact absurd rfl hkind.2.2
      · rintro ⟨_, ⟨⟩, hnot, -⟩
        rw [hok] at hnot
        cases hnot
    · rw [if_neg hok]
      by_cases hserver : 500 ≤ response.status
      · rw [if_pos hserver]
        constructor
        · rintro ⟨error, herror, hkind⟩
          cases herror
          exact absurd rfl hkind.2.2
        · rintro ⟨_, ⟨⟩, -, hlt⟩
          omega
      · rw [if_neg hserver]
        refine iff_of_true ⟨rejected codecs operation response, ?_, ?_⟩
          ⟨response, rfl, Bool.not_eq_true _ ▸ hok, Nat.lt_of_not_le hserver⟩
        · rw [Except.mapError, if_neg]
          rcases (rejected_spec codecs operation response).2.2 with hkind | hkind
          · rw [hkind]
            decide
          · rw [hkind]
            decide
        · exact definite_of_rejected (rejected_spec codecs operation response).2.2

theorem action_untaken (rounds : Nat → Round) :
    (∀ took, Possible codecs operation rounds took → ∀ error,
      (action codecs operation path body select (rounds 1).answer).outcome = .error error → error.kind.Definite →
        ∀ i, 1 ≤ i → i ≤ (action codecs operation path body select (rounds 1).answer).sent.length → ¬ took i) ↔
      (Rejected (rounds 1).answer → RefusedForGood codecs operation (rounds 1).answer) := by
  constructor
  · intro huntaken hrejected
    obtain ⟨error, herror, hkind⟩ := (action_definite codecs operation path body select _).mpr hrejected
    by_contra hgood
    exact huntaken _ (possible_singleton hgood) error herror hkind 1 (Nat.le_refl _) (Nat.le_refl _) rfl
  · intro hconclusive took hpossible error herror hkind i hi hle htook
    have hrejected := (action_definite codecs operation path body select _).mp ⟨error, herror, hkind⟩
    have hone : i = 1 := Nat.le_antisymm hle hi
    rw [hone] at htook
    exact hpossible.refused 1 htook (hconclusive hrejected)

end

end Actions

section Calls

variable {codecs : Codecs} {options : BoxHttpProviderOptions} {call : Call} {rounds : Nat → Round}

theorem honest_of_invalid {operation : BoxProviderOperation}
    (hperform : perform codecs options rounds call = invalidRequest operation) (hbilled : call.billed = none)
    (hacted : call.acted = none) : Honest codecs options call rounds ↔ Conclusive codecs options call rounds := by
  refine iff_of_true ⟨?_, ?_⟩ ⟨?_, ?_⟩
  · intro took _ error _ _ i hi hle
    rw [hperform] at hle
    exact absurd (Nat.le_trans hi hle) (Nat.not_succ_le_zero 0)
  · intro request hrequest
    rw [hbilled] at hrequest
    cases hrequest
  · intro request hrequest
    rw [hbilled] at hrequest
    cases hrequest
  · intro request hrequest
    rw [hacted] at hrequest
    cases hrequest

theorem honest_of_billed {path : String} {request : BillableRequest}
    (hperform : perform codecs options rounds call =
      billable codecs options call.operation path request (call.select codecs) rounds)
    (hbilled : call.billed = some request) (hacted : call.acted = none) :
    Honest codecs options call rounds ↔ Conclusive codecs options call rounds := by
  have huntaken := billable_untaken codecs options call.operation path request (call.select codecs) rounds
  rw [← hperform] at huntaken
  constructor
  · intro hhonest
    refine ⟨?_, ?_⟩
    · intro request' hrequest'
      obtain rfl := Option.some_inj.mp (hbilled.symm.trans hrequest')
      exact huntaken.mp hhonest.untaken
    · intro action haction
      rw [hacted] at haction
      cases haction
  · intro hconclusive
    refine ⟨huntaken.mpr (hconclusive.billable request hbilled), ?_⟩
    intro request' hrequest' sent hsent
    obtain rfl := Option.some_inj.mp (hbilled.symm.trans hrequest')
    rw [hperform] at hsent
    obtain ⟨hsame, hadmitted⟩ := billableAttempt_sent codecs options call.operation path request _ rounds 1 sent hsent
    rw [hsame]
    exact ⟨rfl, rfl, hadmitted⟩

theorem honest_of_acted {path : String} {request : ActionRequest}
    (hperform : perform codecs options rounds call =
      action codecs call.operation path request.body (call.select codecs) (rounds 1).answer)
    (hbilled : call.billed = none) (hacted : call.acted = some request) :
    Honest codecs options call rounds ↔ Conclusive codecs options call rounds := by
  have huntaken := action_untaken codecs call.operation path request.body (call.select codecs) rounds
  rw [← hperform] at huntaken
  constructor
  · intro hhonest
    refine ⟨?_, fun _ _ => huntaken.mp hhonest.untaken⟩
    intro request' hrequest'
    rw [hbilled] at hrequest'
    cases hrequest'
  · intro hconclusive
    refine ⟨huntaken.mpr (hconclusive.action request hacted), ?_⟩
    intro request' hrequest'
    rw [hbilled] at hrequest'
    cases hrequest'

end Calls

/-- A call is honest just when its answers and clock readings are conclusive. -/
theorem outcomes_honest (codecs : Codecs) (options : BoxHttpProviderOptions) (call : Call) (rounds : Nat → Round) :
    Honest codecs options call rounds ↔ Conclusive codecs options call rounds := by
  match call with
  | .create none => exact honest_of_invalid rfl rfl rfl
  | .create (some _) => exact honest_of_billed rfl rfl rfl
  | .fork none => exact honest_of_invalid rfl rfl rfl
  | .fork (some _) => exact honest_of_billed rfl rfl rfl
  | .resume none => exact honest_of_invalid rfl rfl rfl
  | .resume (some _) => exact honest_of_acted rfl rfl rfl
  | .stop none => exact honest_of_invalid rfl rfl rfl
  | .stop (some _) => exact honest_of_acted rfl rfl rfl

def paymentRequired : String := "\x7b\"status\":402,\"code\":\"payment_required\"\x7d"

def createTemplate : BillableRequest where
  idempotencyKey := "key"
  issuedAtMillis := 0
  expiresAtMillis := idempotencyWindowMillis
  body := "\x7b\"from\":\"template\",\"noEnv\":true,\"env\":\x7b\x7d,\"ttlSeconds\":60\x7d"

def paymentCodecs : Codecs where
  utf8 bytes := some (String.ofList (bytes.map fun byte => Char.ofNat byte.toNat))
  createResponse _ := none
  actionResponse _ := none
  errorResponse text := if text = paymentRequired then some ⟨402, "payment_required"⟩ else none

/-- A first attempt without a response, and a refusal of the next. -/
def lostThenRefused (number : Nat) : Round where
  now := 0
  answer :=
    if number = 1 then some .failed
    else some (.responded {
      status := 402, body := some ⟨[paymentRequired.toList.map fun c => UInt8.ofNat c.toNat], true⟩ })

/-- The second attempt is refused for good and the call fails as rejected,
although the first may have created the box. -/
theorem lost_attempt_denied :
    ¬ Honest paymentCodecs ⟨2, by decide, by decide⟩ (.create (some createTemplate)) lostThenRefused := by
  intro hhonest
  have hconclusive := ((honest_of_billed rfl rfl rfl).mp hhonest).billable _ rfl 2 (by decide) (by decide)
  have hvain : InVain paymentCodecs .create paymentCodecs.createResponse (lostThenRefused 1).answer := by
    refine ⟨?_, fun h => absurd h not_rejected_failed⟩
    rintro ⟨_, _, h, -⟩
    cases h
  have hadmitted (n : Nat) : Admitted createTemplate (lostThenRefused n).now :=
    ⟨rfl, Int.le_refl 0, (by decide : (0 : Int) < idempotencyWindowMillis)⟩
  have hsecond := hconclusive fun m hm hlt => by
    obtain rfl : m = 1 := by omega
    exact ⟨hadmitted 1, hvain⟩
  refine absurd (hsecond.2 (hadmitted 2) ⟨_, rfl, rfl, ?_⟩ ?_).1 (by decide)
  · exact (by decide : 402 < 500)
  · rintro ⟨_, ⟨⟩, hstatus, -⟩
    exact absurd hstatus (by decide)

end Rika.BoxProvider
