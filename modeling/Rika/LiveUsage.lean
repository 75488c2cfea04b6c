import Mathlib.Algebra.BigOperators.Group.Finset.Piecewise
import Rika.Usage

namespace Rika.LiveUsage

open Usage

inductive TokenKind
  | total
  | inputTotal
  | uncached
  | cacheRead
  | cacheWrite
  | outputTotal
  | text
  | reasoning
  | failedProviderTotal

inductive CacheKind
  | reportedAttempts
  | hitAttempts
  | inputTokens
  | readTokens

inductive AttemptKind
  | priced
  | unpriced
  | included
  | counted
  | uncounted

inductive Component
  | cost
  | tokens (kind : TokenKind)
  | cache (kind : CacheKind)
  | attempts (kind : AttemptKind)

def TokenKind.field : TokenKind → TokenTotals → Option Nat
  | .total => (·.total)
  | .inputTotal => (·.input.total)
  | .uncached => (·.input.uncached)
  | .cacheRead => (·.input.cacheRead)
  | .cacheWrite => (·.input.cacheWrite)
  | .outputTotal => (·.output.total)
  | .text => (·.output.text)
  | .reasoning => (·.output.reasoning)
  | .failedProviderTotal => (·.failedProviderTotal)

def CacheKind.field : CacheKind → CacheUsage → Nat
  | .reportedAttempts => (·.reportedAttempts)
  | .hitAttempts => (·.hitAttempts)
  | .inputTokens => (·.inputTokens)
  | .readTokens => (·.readTokens)

def AttemptKind.field : AttemptKind → UsageState → Nat
  | .priced => (·.pricedAttempts)
  | .unpriced => (·.unpricedAttempts)
  | .included => (·.includedAttempts.getD 0)
  | .counted => (·.countedAttempts)
  | .uncounted => (·.uncountedAttempts)

def amount : Component → UsageState → Nat
  | .cost, usage => usage.costNanoUsd.getD 0
  | .tokens kind, usage => (usage.tokens.bind kind.field).getD 0
  | .cache kind, usage => (usage.cache.map kind.field).getD 0
  | .attempts kind, usage => kind.field usage

def amountOf (component : Component) (usage : Option UsageState) : Nat := (usage.map (amount component)).getD 0

structure UsageUpdate where
  turnId : String
  usage : UsageState
  compaction : Option ContextCapacity

structure Live where
  shown : ThreadViewUsage
  known : String → Option UsageState

def Live.update (live : Live) (update : UsageUpdate) : Live where
  shown := threadUsageNext live.shown (live.known update.turnId) update.usage update.compaction
  known := Function.update live.known update.turnId (some update.usage)

def Live.run (live : Live) (updates : List UsageUpdate) : Live := updates.foldl Live.update live

def Grows (live : Live) (update : UsageUpdate) : Prop :=
  ∀ component, amountOf component (live.known update.turnId) ≤ amount component update.usage

/-- The turn's cache stays as it was, and there is a priced attempt in the thread or nothing that one would cost. -/
structure Counted (live : Live) (update : UsageUpdate) : Prop where
  cache : ∀ kind, amount (.cache kind) update.usage = amountOf (.cache kind) (live.known update.turnId)
  priced : 0 < live.shown.state.pricedAttempts + (update.usage.pricedAttempts - amountOf (.attempts .priced) (live.known update.turnId)) ∨
    amount .cost live.shown.state = 0 ∧ amount .cost update.usage = amountOf .cost (live.known update.turnId)

inductive Along (P : Live → UsageUpdate → Prop) : Live → List UsageUpdate → Prop
  | nil (live : Live) : Along P live []
  | cons {live : Live} {update : UsageUpdate} {updates : List UsageUpdate} : P live update → Along P (live.update update) updates →
      Along P live (update :: updates)

section Steps

theorem getD_addOptional (left right : Option Nat) : (addOptional [left, right]).getD 0 = left.getD 0 + right.getD 0 := by
  cases left <;> cases right <;> simp [addOptional]

theorem getD_difference (next previous : Option Nat) : (difference next previous).getD 0 = next.getD 0 - previous.getD 0 := by
  cases next with
  | none => cases previous <;> simp [difference]
  | some next => rfl

theorem bind_sumTokenTotals (kind : TokenKind) (left right : Option TokenTotals) :
    ((sumTokenTotals [left, right]).bind kind.field).getD 0 = (left.bind kind.field).getD 0 + (right.bind kind.field).getD 0 := by
  rw [← getD_addOptional]
  cases left with
  | none =>
    cases right with
    | none => rfl
    | some right => cases kind <;> rfl
  | some left => cases kind <;> rfl

theorem bind_tokenDifference (kind : TokenKind) (next previous : Option TokenTotals) :
    ((tokenDifference next previous).bind kind.field).getD 0 = (next.bind kind.field).getD 0 - (previous.bind kind.field).getD 0 := by
  cases next with
  | none => simp [tokenDifference]
  | some next =>
    have hfield : (tokenDifference (some next) previous).bind kind.field = difference (kind.field next) (previous.bind kind.field) := by
      cases kind <;> rfl
    rw [hfield, getD_difference]
    rfl

theorem amount_prior (component : Component) (previous : Option UsageState) :
    amount component (previous.getD emptyUsageState) = amountOf component previous := by
  cases previous with
  | none => cases component with
    | cost => rfl
    | tokens kind => rfl
    | cache kind => rfl
    | attempts kind => cases kind <;> rfl
  | some previous => rfl

section

variable (live : Live) (update : UsageUpdate)

theorem amount_update_attempts (kind : AttemptKind) :
    amount (.attempts kind) (live.update update).shown.state = amount (.attempts kind) live.shown.state +
      (amount (.attempts kind) update.usage - amountOf (.attempts kind) (live.known update.turnId)) := by
  rw [← amount_prior]
  cases kind <;> simp [amount, AttemptKind.field, Live.update, threadUsageNext, aggregateUsage, usageDelta]

theorem amount_update_tokens (kind : TokenKind) :
    amount (.tokens kind) (live.update update).shown.state = amount (.tokens kind) live.shown.state +
      (amount (.tokens kind) update.usage - amountOf (.tokens kind) (live.known update.turnId)) := by
  rw [← amount_prior]
  have htokens : (live.update update).shown.state.tokens = sumTokenTotals [live.shown.state.tokens,
      tokenDifference update.usage.tokens ((live.known update.turnId).getD emptyUsageState).tokens] := rfl
  rw [amount, htokens, bind_sumTokenTotals, bind_tokenDifference]
  rfl

theorem amount_update_cache (kind : CacheKind) :
    amount (.cache kind) (live.update update).shown.state = amount (.cache kind) live.shown.state := by
  have hcache : (live.update update).shown.state.cache =
      if [live.shown.state.cache, none].filterMap id = [] then none else some (sumCacheUsage ([live.shown.state.cache, none].filterMap id)) := by
    cases hc : live.shown.state.cache <;> simp [Live.update, threadUsageNext, aggregateUsage, usageDelta, hc]
  rw [amount, amount, hcache]
  cases live.shown.state.cache with
  | none => rfl
  | some cache => cases kind <;> simp [sumCacheUsage, CacheKind.field]

theorem amount_update_cost : amount .cost (live.update update).shown.state =
    if 0 < live.shown.state.pricedAttempts + (update.usage.pricedAttempts - amountOf (.attempts .priced) (live.known update.turnId)) then
      amount .cost live.shown.state + (amount .cost update.usage - amountOf .cost (live.known update.turnId)) else 0 := by
  have hpriced : amountOf (.attempts .priced) (live.known update.turnId) = ((live.known update.turnId).getD emptyUsageState).pricedAttempts :=
    (amount_prior (.attempts .priced) _).symm
  have hcost : (live.update update).shown.state.costNanoUsd =
      if 0 < live.shown.state.pricedAttempts + (update.usage.pricedAttempts - ((live.known update.turnId).getD emptyUsageState).pricedAttempts)
      then addOptional [live.shown.state.costNanoUsd, difference update.usage.costNanoUsd ((live.known update.turnId).getD emptyUsageState).costNanoUsd]
      else none := by
    simp [Live.update, threadUsageNext, aggregateUsage, usageDelta]
  rw [amount, hcost, hpriced]
  split
  · rw [getD_addOptional, getD_difference, ← amount_prior]
    rfl
  · rfl

def Adds : Prop :=
  ∀ component, (amount component (live.update update).shown.state : Int) =
    amount component live.shown.state + (amount component update.usage - amountOf component (live.known update.turnId))

end

theorem adds_iff {live : Live} {update : UsageUpdate} (h : Grows live update) : Adds live update ↔ Counted live update := by
  constructor
  · intro hadds
    constructor
    · intro kind
      have hcache := hadds (.cache kind)
      rw [amount_update_cache] at hcache
      omega
    · have hcost := hadds .cost
      have hgrows := h .cost
      rw [amount_update_cost] at hcost
      split at hcost
      · next hpriced => exact .inl hpriced
      · exact .inr (by omega)
  · intro hcounted component
    have hgrows := h component
    cases component with
    | attempts kind =>
      rw [amount_update_attempts]
      omega
    | tokens kind =>
      rw [amount_update_tokens]
      omega
    | cache kind =>
      have hcache := hcounted.cache kind
      rw [amount_update_cache]
      omega
    | cost =>
      rw [amount_update_cost]
      split
      · omega
      · next hpriced =>
          rcases hcounted.priced with hpos | hnone
          · exact absurd hpos hpriced
          · omega

end Steps

section Runs

/-- What is shown is what was shown at the start and what each turn has come to since. -/
def Telescopes (start : Live) (turns : Finset String) (updates : List UsageUpdate) : Prop :=
  ∀ component, (amount component (start.run updates).shown.state : Int) = amount component start.shown.state +
    ∑ turnId ∈ turns, ((amountOf component ((start.run updates).known turnId) : Int) - amountOf component (start.known turnId))

theorem run_concat (start : Live) (updates : List UsageUpdate) (update : UsageUpdate) :
    start.run (updates ++ [update]) = (start.run updates).update update := by
  rw [Live.run, List.foldl_concat]
  rfl

variable {start : Live} {updates : List UsageUpdate} {update : UsageUpdate} {turns : Finset String}

theorem along_concat {P : Live → UsageUpdate → Prop} :
    Along P start (updates ++ [update]) ↔ Along P start updates ∧ P (start.run updates) update := by
  induction updates generalizing start with
  | nil =>
    constructor
    · intro h
      cases h with
      | cons hfirst _ => exact ⟨.nil start, hfirst⟩
    · intro h
      exact .cons h.2 (.nil _)
  | cons first updates ih =>
    constructor
    · intro h
      cases h with
      | cons hfirst hrest =>
        obtain ⟨hupdates, hlast⟩ := ih.mp hrest
        exact ⟨.cons hfirst hupdates, hlast⟩
    · intro h
      obtain ⟨hall, hlast⟩ := h
      cases hall with
      | cons hfirst hupdates => exact .cons hfirst (ih.mpr ⟨hupdates, hlast⟩)

theorem sum_update (component : Component) (live : Live) (update : UsageUpdate) (h : update.turnId ∈ turns)
    (base : String → Int) : ∑ turnId ∈ turns, ((amountOf component ((live.update update).known turnId) : Int) - base turnId) =
      ∑ turnId ∈ turns, ((amountOf component (live.known turnId) : Int) - base turnId) +
        (amount component update.usage - amountOf component (live.known update.turnId)) := by
  rw [← Finset.add_sum_erase turns _ h, ← Finset.add_sum_erase turns (fun turnId => (amountOf component (live.known turnId) : Int) - base turnId) h]
  have hothers : ∑ turnId ∈ turns.erase update.turnId, ((amountOf component ((live.update update).known turnId) : Int) - base turnId) =
      ∑ turnId ∈ turns.erase update.turnId, ((amountOf component (live.known turnId) : Int) - base turnId) := by
    refine Finset.sum_congr rfl fun turnId hturn => ?_
    have hother : (live.update update).known turnId = live.known turnId := Function.update_of_ne (Finset.ne_of_mem_erase hturn) _ _
    rw [hother]
  have hself : (live.update update).known update.turnId = some update.usage := Function.update_self _ _ _
  rw [hothers, hself]
  have hamount : amountOf component (some update.usage) = amount component update.usage := rfl
  rw [hamount]
  omega

theorem telescopes_concat (hmem : update.turnId ∈ turns) (h : Telescopes start turns updates) :
    Telescopes start turns (updates ++ [update]) ↔ Adds (start.run updates) update := by
  rw [Telescopes, run_concat, Adds]
  refine forall_congr' fun component => ?_
  have hsum := sum_update component (start.run updates) update hmem fun turnId => amountOf component (start.known turnId)
  have hbefore := h component
  rw [hsum]
  omega

theorem telescopes_nil (start : Live) (turns : Finset String) : Telescopes start turns [] := by
  intro component
  have hsum : ∑ turnId ∈ turns, ((amountOf component (start.known turnId) : Int) - amountOf component (start.known turnId)) = 0 :=
    Finset.sum_eq_zero fun turnId _ => sub_self _
  change (amount component start.shown.state : Int) = amount component start.shown.state + _
  rw [Live.run, List.foldl_nil, hsum, add_zero]

/-- What is shown stays right exactly when no update changes its turn's cache, nor has a cost with no priced attempt. -/
theorem telescopes_iff {start : Live} {turns : Finset String} {updates : List UsageUpdate} (hgrows : Along Grows start updates)
    (hturns : ∀ update ∈ updates, update.turnId ∈ turns) :
    (∀ first, first <+: updates → Telescopes start turns first) ↔ Along Counted start updates := by
  induction updates using List.reverseRecOn with
  | nil =>
    refine ⟨fun _ => .nil start, fun _ first hfirst => ?_⟩
    rw [List.prefix_nil.mp hfirst]
    exact telescopes_nil start turns
  | append_singleton updates update ih =>
    obtain ⟨hbefore, hlast⟩ := along_concat.mp hgrows
    have hmem : update.turnId ∈ turns := hturns update (List.mem_append_right _ List.mem_cons_self)
    have ih := ih hbefore fun other hother => hturns other (List.mem_append_left _ hother)
    rw [along_concat, ← ih, ← adds_iff hlast]
    constructor
    · intro h
      refine ⟨fun first hfirst => h first (hfirst.trans (List.prefix_append _ _)), ?_⟩
      exact (telescopes_concat hmem (h updates (List.prefix_append _ _))).mp (h _ (List.prefix_refl _))
    · intro h first hfirst
      obtain ⟨hall, hadds⟩ := h
      rcases List.prefix_concat_iff.mp hfirst with rfl | hshorter
      · exact (telescopes_concat hmem (hall updates (List.prefix_refl _))).mpr hadds
      · exact hall first hshorter

def freshLive : Live := ⟨⟨emptyUsageState, none⟩, fun _ => none⟩

def pricedUpdate (turnId : String) (cost attempts : Nat) : UsageUpdate :=
  ⟨turnId, { emptyUsageState with costNanoUsd := some cost, pricedAttempts := attempts }, none⟩

/-- Two turns that take turns. -/
theorem telescopes_iff_sample :
    (∀ first, first <+: [pricedUpdate "one" 5 1, pricedUpdate "two" 7 1, pricedUpdate "one" 9 2] →
      Telescopes freshLive {"one", "two"} first) ↔
    Along Counted freshLive [pricedUpdate "one" 5 1, pricedUpdate "two" 7 1, pricedUpdate "one" 9 2] := by
  refine telescopes_iff (.cons ?_ (.cons ?_ (.cons ?_ (.nil _)))) (by decide)
  all_goals
    intro component
    cases component with
    | cost => decide
    | tokens kind => cases kind <;> decide
    | cache kind => cases kind <;> decide
    | attempts kind => cases kind <;> decide

def cacheUpdate : UsageUpdate := ⟨"turn", { emptyUsageState with cache := some ⟨1, 1, 10, 5⟩ }, none⟩

/-- The cache of a turn that used none before is not shown. -/
theorem cache_not_shown : Along Grows freshLive [cacheUpdate] ∧ ¬Telescopes freshLive {"turn"} [cacheUpdate] := by
  constructor
  · exact .cons (fun component => Nat.zero_le _) (.nil _)
  · intro h
    exact absurd (h (.cache .readTokens)) (by decide)

end Runs

end Rika.LiveUsage
