import Mathlib.Algebra.BigOperators.Group.List.Basic
import Mathlib.Tactic.Ring
import Rika.Usage

namespace Rika.Usage

structure OptionalSum where
  sum : Int := 0
  present : Int := 0

structure CacheTotal where
  reportedAttempts : Int := 0
  hitAttempts : Int := 0
  inputTokens : Int := 0
  readTokens : Int := 0

structure UsageAccumulator where
  cache : Option CacheTotal := none
  contributions : Int := 0
  incomplete : Int := 0
  costNanoUsd : OptionalSum := {}
  tokens : Int := 0
  tokenTotal : OptionalSum := {}
  inputTotal : OptionalSum := {}
  inputUncached : OptionalSum := {}
  inputCacheRead : OptionalSum := {}
  inputCacheWrite : OptionalSum := {}
  outputTotal : OptionalSum := {}
  outputText : OptionalSum := {}
  outputReasoning : OptionalSum := {}
  failedProviderTotal : OptionalSum := {}
  pricedAttempts : Int := 0
  unpricedAttempts : Int := 0
  includedAttempts : Int := 0
  countedAttempts : Int := 0
  uncountedAttempts : Int := 0
  activeAvailable : Int := 0
  activeAccumulatedMillis : Finite := 0

def emptyAccumulator : UsageAccumulator := {}

def count (condition : Bool) : Int := if condition then 1 else 0

def replaceOptional (current : OptionalSum) (previous next : Option Nat) : OptionalSum where
  sum := current.sum - previous.getD 0 + next.getD 0
  present := current.present - count previous.isSome + count next.isSome

def activeMillis (usage : Option UsageState) : Finite := ((usage.map (·.active)).bind (·.accumulated)).getD 0

def CacheUsage.total (cache : CacheUsage) : CacheTotal where
  reportedAttempts := cache.reportedAttempts
  hitAttempts := cache.hitAttempts
  inputTokens := cache.inputTokens
  readTokens := cache.readTokens

def replaceCache (current : Option CacheTotal) (previous next : Option CacheUsage) : CacheTotal :=
  let total := current.getD {}
  let before := (previous.map (·.total)).getD {}
  let after := (next.map (·.total)).getD {}
  { reportedAttempts := total.reportedAttempts - before.reportedAttempts + after.reportedAttempts
    hitAttempts := total.hitAttempts - before.hitAttempts + after.hitAttempts
    inputTokens := total.inputTokens - before.inputTokens + after.inputTokens
    readTokens := total.readTokens - before.readTokens + after.readTokens }

/-- `total - (previous?.attempts ?? 0) + next.attempts`. -/
def replaceAttempts (attempts : UsageState → Nat) (total : Int) (previous : Option UsageState) (next : UsageState) :
    Int :=
  total - (previous.map attempts).getD 0 + attempts next

def replaceContribution (current : UsageAccumulator) (previous : Option UsageState) (next : UsageState) :
    UsageAccumulator :=
  let token (sum : OptionalSum) (field : TokenTotals → Option Nat) : OptionalSum :=
    replaceOptional sum ((previous.bind (·.tokens)).bind field) (next.tokens.bind field)
  { inputTotal := token current.inputTotal (·.input.total)
    inputUncached := token current.inputUncached (·.input.uncached)
    inputCacheRead := token current.inputCacheRead (·.input.cacheRead)
    inputCacheWrite := token current.inputCacheWrite (·.input.cacheWrite)
    tokenTotal := token current.tokenTotal (·.total)
    outputTotal := token current.outputTotal (·.output.total)
    outputText := token current.outputText (·.output.text)
    outputReasoning := token current.outputReasoning (·.output.reasoning)
    failedProviderTotal := token current.failedProviderTotal (·.failedProviderTotal)
    contributions := current.contributions + count previous.isNone
    incomplete :=
      current.incomplete - count ((previous.map (·.sourceComplete)) = some false) + count (!next.sourceComplete)
    costNanoUsd := replaceOptional current.costNanoUsd (previous.bind (·.costNanoUsd)) next.costNanoUsd
    tokens := current.tokens - count (previous.bind (·.tokens)).isSome + count next.tokens.isSome
    pricedAttempts := replaceAttempts (·.pricedAttempts) current.pricedAttempts previous next
    unpricedAttempts := replaceAttempts (·.unpricedAttempts) current.unpricedAttempts previous next
    includedAttempts := replaceAttempts (·.includedAttempts.getD 0) current.includedAttempts previous next
    countedAttempts := replaceAttempts (·.countedAttempts) current.countedAttempts previous next
    uncountedAttempts := replaceAttempts (·.uncountedAttempts) current.uncountedAttempts previous next
    cache := some (replaceCache current.cache (previous.bind (·.cache)) next.cache)
    activeAvailable :=
      current.activeAvailable - count ((previous.map (·.active)).bind (·.accumulated)).isSome +
        count next.active.accumulated.isSome
    activeAccumulatedMillis := current.activeAccumulatedMillis - activeMillis previous + activeMillis (some next) }

/-- `optional`, as a count of the summary: a negative sum has no encoding. -/
def OptionalSum.optional (value : OptionalSum) : Option Nat :=
  if value.present = 0 then none else some value.sum.toNat

def CacheTotal.usage (cache : CacheTotal) : CacheUsage where
  reportedAttempts := cache.reportedAttempts.toNat
  hitAttempts := cache.hitAttempts.toNat
  inputTokens := cache.inputTokens.toNat
  readTokens := cache.readTokens.toNat

section

variable (accumulator : UsageAccumulator)

def activeUsage (activeSince : Option Finite) : ActiveTime :=
  if accumulator.activeAvailable = 0 then .unavailable
  else .available accumulator.activeAccumulatedMillis activeSince

def tokenTotals : TokenTotals where
  total := accumulator.tokenTotal.optional
  input :=
    { total := accumulator.inputTotal.optional
      uncached := accumulator.inputUncached.optional
      cacheRead := accumulator.inputCacheRead.optional
      cacheWrite := accumulator.inputCacheWrite.optional }
  output :=
    { total := accumulator.outputTotal.optional
      text := accumulator.outputText.optional
      reasoning := accumulator.outputReasoning.optional }
  failedProviderTotal := accumulator.failedProviderTotal.optional

/-- The usage of `summarize`. -/
def summarize (newest context : Option UsageState) (activeSince : Option Finite) : UsageState where
  pricedAttempts := accumulator.pricedAttempts.toNat
  unpricedAttempts := accumulator.unpricedAttempts.toNat
  includedAttempts := some accumulator.includedAttempts.toNat
  countedAttempts := accumulator.countedAttempts.toNat
  uncountedAttempts := accumulator.uncountedAttempts.toNat
  sourceComplete := 0 < accumulator.contributions && accumulator.incomplete = 0
  contextPending := (newest.map (·.contextPending)).getD false
  active := activeUsage accumulator activeSince
  cache := (accumulator.cache.filter fun cache => 0 < cache.reportedAttempts).map (·.usage)
  costNanoUsd := if 0 < accumulator.pricedAttempts then accumulator.costNanoUsd.optional else none
  tokens := if 0 < accumulator.tokens then some (tokenTotals accumulator) else none
  context := context.bind (·.context)

end

section

variable {α : Type*}

section

variable (measure : α → Int)

def total (values : List α) : Int := (values.map measure).sum

def optionalTotal (field : α → Option Nat) (values : List α) : OptionalSum where
  sum := total (fun value => (field value).getD 0) values
  present := total (fun value => count (field value).isSome) values

@[simp] theorem total_cons (value : α) (values : List α) :
    total measure (value :: values) = measure value + total measure values := List.sum_cons

theorem total_perm {values values' : List α} (h : values.Perm values') :
    total measure values = total measure values' := (h.map measure).sum_eq

theorem optionalTotal_perm (field : α → Option Nat) {values values' : List α} (h : values.Perm values') :
    optionalTotal field values = optionalTotal field values' := by
  rw [optionalTotal, optionalTotal, total_perm _ h, total_perm _ h]

theorem total_natCast (measure : α → Nat) (values : List α) :
    total (fun value => (measure value : Int)) values = ((values.map measure).sum : Nat) := by
  induction values with
  | nil => rfl
  | cons value values ih => rw [total_cons, ih, List.map_cons, List.sum_cons, Nat.cast_add]

theorem total_count (p : α → Bool) (values : List α) :
    total (fun value => count (p value)) values = (values.countP p : Nat) := by
  induction values with
  | nil => rfl
  | cons value values ih =>
    rw [total_cons, ih, List.countP_cons]
    cases p value with
    | false => simp [count]
    | true => simp [count, Int.add_comm]

theorem total_replace (previous : Option α) (next : α) (rest : List α) :
    total measure (previous.toList ++ rest) - (previous.map measure).getD 0 + measure next =
      total measure (next :: rest) := by
  cases previous with
  | none => simp [Int.add_comm]
  | some previous =>
    simp only [Option.toList_some, List.singleton_append, total_cons, Option.map_some, Option.getD_some]
    omega

end

theorem replaceOptional_optionalTotal (field : α → Option Nat) (previous : Option α) (next : α) (rest : List α) :
    replaceOptional (optionalTotal field (previous.toList ++ rest)) (previous.bind field) (field next) =
      optionalTotal field (next :: rest) := by
  have hsum := total_replace (fun value => ((field value).getD 0 : Int)) previous next rest
  have hpresent := total_replace (fun value => count (field value).isSome) previous next rest
  rw [replaceOptional, optionalTotal, optionalTotal, OptionalSum.mk.injEq, ← hsum, ← hpresent]
  cases previous with
  | none => exact ⟨rfl, rfl⟩
  | some previous => exact ⟨rfl, rfl⟩

theorem optional_optionalTotal (field : α → Option Nat) (values : List α) :
    (optionalTotal field values).optional = addOptional (values.map field) := by
  have hpresent : (optionalTotal field values).present = 0 ↔ ¬(values.map field).any Option.isSome = true := by
    rw [optionalTotal, total_count, List.any_map, List.any_eq_true]
    simp only [Int.natCast_eq_zero, List.countP_eq_zero, not_exists, not_and, Function.comp_apply]
  have hsum : (optionalTotal field values).sum.toNat = ((values.map field).map (·.getD 0)).sum := by
    rw [optionalTotal, List.map_map]
    exact congrArg Int.toNat (total_natCast (fun value => (field value).getD 0) values)
  rw [OptionalSum.optional, addOptional, hsum]
  by_cases hany : (values.map field).any Option.isSome = true
  · rw [if_pos hany, if_neg fun hzero => hpresent.mp hzero hany]
  · rw [if_neg hany, if_pos (hpresent.mpr hany)]

end

def UsageState.cacheTotal (usage : UsageState) : CacheTotal := (usage.cache.map CacheUsage.total).getD {}

def cacheTotal (values : List UsageState) : CacheTotal where
  reportedAttempts := total (fun usage => usage.cacheTotal.reportedAttempts) values
  hitAttempts := total (fun usage => usage.cacheTotal.hitAttempts) values
  inputTokens := total (fun usage => usage.cacheTotal.inputTokens) values
  readTokens := total (fun usage => usage.cacheTotal.readTokens) values

def accumulated (values : List UsageState) : UsageAccumulator :=
  let token (field : TokenTotals → Option Nat) : OptionalSum := optionalTotal (fun usage => usage.tokens.bind field) values
  { cache := if values = [] then none else some (cacheTotal values)
    contributions := values.length
    incomplete := total (fun usage => count (!usage.sourceComplete)) values
    costNanoUsd := optionalTotal (·.costNanoUsd) values
    tokens := total (fun usage => count usage.tokens.isSome) values
    tokenTotal := token (·.total)
    inputTotal := token (·.input.total)
    inputUncached := token (·.input.uncached)
    inputCacheRead := token (·.input.cacheRead)
    inputCacheWrite := token (·.input.cacheWrite)
    outputTotal := token (·.output.total)
    outputText := token (·.output.text)
    outputReasoning := token (·.output.reasoning)
    failedProviderTotal := token (·.failedProviderTotal)
    pricedAttempts := total (fun usage => usage.pricedAttempts) values
    unpricedAttempts := total (fun usage => usage.unpricedAttempts) values
    includedAttempts := total (fun usage => usage.includedAttempts.getD 0) values
    countedAttempts := total (fun usage => usage.countedAttempts) values
    uncountedAttempts := total (fun usage => usage.uncountedAttempts) values
    activeAvailable := total (fun usage => count usage.active.accumulated.isSome) values
    activeAccumulatedMillis := (values.map fun usage => usage.active.accumulated.getD 0).sum }

theorem accumulated_perm {values values' : List UsageState} (h : values.Perm values') :
    accumulated values = accumulated values' := by
  have hnil : values = [] ↔ values' = [] := by rw [← List.length_eq_zero_iff, h.length_eq, List.length_eq_zero_iff]
  have hmillis : (values.map fun usage => usage.active.accumulated.getD 0).sum =
      (values'.map fun usage => usage.active.accumulated.getD 0).sum := (h.map _).sum_eq
  simp only [accumulated, cacheTotal, total_perm _ h, optionalTotal_perm _ h, h.length_eq, hnil, hmillis]

theorem replaceAttempts_total (attempts : UsageState → Nat) (previous : Option UsageState) (next : UsageState)
    (rest : List UsageState) :
    replaceAttempts attempts (total (fun usage => attempts usage) (previous.toList ++ rest)) previous next =
      total (fun usage => attempts usage) (next :: rest) := by
  rw [← total_replace _ previous, replaceAttempts]
  cases previous <;> rfl

section

variable (previous : Option UsageState) (next : UsageState) (rest : List UsageState)

theorem replaceCache_cacheTotal :
    replaceCache (accumulated (previous.toList ++ rest)).cache (previous.bind (·.cache)) next.cache =
      cacheTotal (next :: rest) := by
  have hcurrent : (accumulated (previous.toList ++ rest)).cache.getD {} = cacheTotal (previous.toList ++ rest) := by
    rw [accumulated]
    dsimp only
    split
    · next h => rw [h]; rfl
    · rfl
  have hfield (field : CacheTotal → Int) (hzero : field {} = 0)
      (hcache : ∀ values, field (cacheTotal values) = total (fun usage => field usage.cacheTotal) values) :
      field (cacheTotal (previous.toList ++ rest)) - field (((previous.bind (·.cache)).map (·.total)).getD {}) +
        field next.cacheTotal = field (cacheTotal (next :: rest)) := by
    rw [hcache, hcache, ← total_replace _ previous]
    cases previous with
    | none => rw [Option.bind_none, Option.map_none, Option.getD_none, hzero]; rfl
    | some previous => rfl
  rw [replaceCache, hcurrent, CacheTotal.mk.injEq]
  exact ⟨hfield (·.reportedAttempts) rfl fun _ => rfl, hfield (·.hitAttempts) rfl fun _ => rfl,
    hfield (·.inputTokens) rfl fun _ => rfl, hfield (·.readTokens) rfl fun _ => rfl⟩

theorem replaceContribution_accumulated :
    replaceContribution (accumulated (previous.toList ++ rest)) previous next = accumulated (next :: rest) := by
  have hcache := replaceCache_cacheTotal previous next rest
  have htoken (field : TokenTotals → Option Nat) :
      replaceOptional (optionalTotal (fun usage => usage.tokens.bind field) (previous.toList ++ rest))
          ((previous.bind (·.tokens)).bind field) (next.tokens.bind field) =
        optionalTotal (fun usage => usage.tokens.bind field) (next :: rest) := by
    rw [Option.bind_assoc]
    exact replaceOptional_optionalTotal (fun usage => usage.tokens.bind field) previous next rest
  have hcost := replaceOptional_optionalTotal (·.costNanoUsd) previous next rest
  have hcount (p : UsageState → Bool) (q : Option UsageState → Bool) (hnone : q none = false)
      (hsome : ∀ usage, q (some usage) = p usage) :
      total (fun usage => count (p usage)) (previous.toList ++ rest) - count (q previous) + count (p next) =
        total (fun usage => count (p usage)) (next :: rest) := by
    rw [← total_replace _ previous]
    cases previous with
    | none => rw [hnone]; rfl
    | some previous => rw [hsome]; rfl
  have hlength : ((previous.toList ++ rest).length : Int) + count previous.isNone = (next :: rest).length := by
    cases previous <;> simp [count]
  have hmillis : ((previous.toList ++ rest).map fun usage => usage.active.accumulated.getD 0).sum -
      activeMillis previous + activeMillis (some next) =
        ((next :: rest).map fun usage => usage.active.accumulated.getD 0).sum := by
    cases previous with
    | none => simp [activeMillis, add_comm]
    | some previous =>
      simp only [Option.toList_some, List.singleton_append, List.map_cons, List.sum_cons, activeMillis,
        Option.map_some, Option.bind_some]
      ring
  unfold replaceContribution
  rw [hcache]
  simp only [accumulated, htoken, hcost, hlength, hmillis, replaceAttempts_total]
  rw [hcount (fun usage => !usage.sourceComplete)
      (fun usage => decide (usage.map (·.sourceComplete) = some false)) rfl (fun usage => by simp),
    hcount (fun usage => usage.tokens.isSome) (fun usage => (usage.bind (·.tokens)).isSome) rfl (fun _ => rfl),
    hcount (fun usage => usage.active.accumulated.isSome)
      (fun usage => ((usage.map (·.active)).bind (·.accumulated)).isSome) rfl (fun _ => rfl)]
  simp

end

section

variable (values : List UsageState)

def reportsCache : Prop := ∃ usage ∈ values, ∃ cache, usage.cache = some cache ∧ 0 < cache.reportedAttempts

instance : Decidable (reportsCache values) :=
  inferInstanceAs (Decidable (∃ usage ∈ values, ∃ cache, usage.cache = some cache ∧ 0 < cache.reportedAttempts))

theorem total_toNat {α : Type*} (measure : α → Nat) (values : List α) :
    (total (fun value => (measure value : Int)) values).toNat = (values.map measure).sum := by
  rw [total_natCast, Int.toNat_natCast]

theorem total_cacheTotal {field : CacheTotal → Int} {count : CacheUsage → Nat} (hzero : field {} = 0)
    (hfield : ∀ cache, field (CacheUsage.total cache) = count cache) :
    total (fun usage => field usage.cacheTotal) values = (((values.filterMap (·.cache)).map count).sum : Nat) := by
  induction values with
  | nil => rfl
  | cons usage values ih =>
    rw [total_cons, ih, UsageState.cacheTotal]
    cases hcache : usage.cache with
    | none => simp [hcache, hzero]
    | some cache => simp [hcache, hfield]

theorem cacheTotal_usage : (cacheTotal values).usage = sumCacheUsage (values.filterMap (·.cache)) := by
  rw [cacheTotal, CacheTotal.usage, sumCacheUsage, total_cacheTotal values rfl fun _ => rfl,
    total_cacheTotal values rfl fun _ => rfl, total_cacheTotal values rfl fun _ => rfl,
    total_cacheTotal values rfl fun _ => rfl]
  rfl

theorem reportsCache_iff : reportsCache values ↔ 0 < (cacheTotal values).reportedAttempts := by
  have htotal : (cacheTotal values).reportedAttempts =
      (((values.filterMap (·.cache)).map (·.reportedAttempts)).sum : Nat) :=
    total_cacheTotal values rfl fun _ => rfl
  rw [htotal, Int.natCast_pos, List.sum_pos_iff_exists_pos_nat]
  simp only [reportsCache, List.mem_map, List.mem_filterMap]
  constructor
  · intro ⟨usage, husage, cache, hcache, hpos⟩
    exact ⟨_, ⟨cache, ⟨usage, husage, hcache⟩, rfl⟩, hpos⟩
  · intro ⟨_, ⟨cache, ⟨usage, husage, hcache⟩, hreported⟩, hpos⟩
    exact ⟨usage, husage, cache, hcache, hreported ▸ hpos⟩

theorem tokenTotals_accumulated :
    (if 0 < (accumulated values).tokens then some (tokenTotals (accumulated values)) else none) =
      sumTokenTotals (values.map (·.tokens)) := by
  have hpos : 0 < (accumulated values).tokens ↔ (values.map (·.tokens)).any Option.isSome = true := by
    have htokens : (accumulated values).tokens = (values.countP fun usage => usage.tokens.isSome : Nat) :=
      total_count (fun usage : UsageState => usage.tokens.isSome) values
    rw [htokens, Int.natCast_pos, List.countP_pos_iff, List.any_map, List.any_eq_true]
    rfl
  have hfield (field : TokenTotals → Option Nat) :
      (optionalTotal (fun usage : UsageState => usage.tokens.bind field) values).optional =
        addOptional ((values.map (·.tokens)).map (·.bind field)) := by
    rw [optional_optionalTotal, List.map_map]
    rfl
  rw [sumTokenTotals]
  by_cases hany : (values.map (·.tokens)).any Option.isSome = true
  · rw [if_pos hany, if_pos (hpos.mpr hany)]
    simp only [tokenTotals, accumulated, hfield]
  · rw [if_neg hany, if_neg fun h => hany (hpos.mp h)]

theorem activeUsage_accumulated :
    activeUsage (accumulated values) (values.filterMap (·.active.since)).min? = sumActive (values.map (·.active)) := by
  have havailable : (accumulated values).activeAvailable = 0 ↔
      (values.map (·.active)).filterMap (·.accumulated) = [] := by
    have hcount : (accumulated values).activeAvailable =
        (values.countP fun usage => usage.active.accumulated.isSome : Nat) :=
      total_count (fun usage : UsageState => usage.active.accumulated.isSome) values
    rw [hcount, Int.natCast_eq_zero, List.countP_eq_zero, List.filterMap_eq_nil_iff]
    simp
  have hmillis : (accumulated values).activeAccumulatedMillis =
      ((values.map (·.active)).filterMap (·.accumulated)).sum := by
    rw [accumulated]
    clear havailable
    induction values with
    | nil => rfl
    | cons usage values ih =>
      dsimp only at ih ⊢
      rw [List.map_cons, List.sum_cons, ih, List.map_cons, List.filterMap_cons]
      cases usage.active.accumulated <;> simp
  rw [activeUsage, sumActive, hmillis]
  cases hactive : (values.map (·.active)).filterMap (·.accumulated) with
  | nil => rw [if_pos (havailable.mpr hactive)]
  | cons millis rest =>
    rw [if_neg fun hzero => List.cons_ne_nil millis rest (hactive ▸ havailable.mp hzero), List.filterMap_map]
    rfl

theorem sourceComplete_accumulated (hne : values ≠ []) :
    (decide (0 < (accumulated values).contributions) && decide ((accumulated values).incomplete = 0)) =
      values.all (·.sourceComplete) := by
  have hpos : 0 < (accumulated values).contributions := by
    rw [accumulated]
    exact Int.natCast_pos.mpr (List.length_pos_iff.mpr hne)
  have hincomplete : (accumulated values).incomplete = (values.countP fun usage => !usage.sourceComplete : Nat) :=
    total_count (fun usage : UsageState => !usage.sourceComplete) values
  rw [decide_eq_true hpos, Bool.true_and, hincomplete, Bool.eq_iff_iff, decide_eq_true_iff, Int.natCast_eq_zero,
    List.countP_eq_zero, List.all_eq_true]
  simp

/-- A summary shows what the recomputation does, but for a cache that no
attempt reported. -/
theorem summarize_accumulated (hne : values ≠ []) (context : Option UsageState)
    (hcontext : context.bind (·.context) = values.reverse.findSome? (·.context)) :
    summarize (accumulated values) values.getLast? context (values.filterMap (·.active.since)).min? =
      { aggregateUsage values with cache := if reportsCache values then (aggregateUsage values).cache else none } := by
  have hpriced : (accumulated values).pricedAttempts = ((values.map (·.pricedAttempts)).sum : Nat) :=
    total_natCast (fun usage : UsageState => usage.pricedAttempts) values
  have hcost : (accumulated values).costNanoUsd.optional = addOptional (values.map (·.costNanoUsd)) :=
    optional_optionalTotal (fun usage : UsageState => usage.costNanoUsd) values
  have hattempts (attempts : UsageState → Nat) :
      (total (fun usage => (attempts usage : Int)) values).toNat = (values.map attempts).sum :=
    total_toNat attempts values
  have hcache : ((accumulated values).cache.filter fun cache => decide (0 < cache.reportedAttempts)).map (·.usage) =
      if reportsCache values then (aggregateUsage values).cache else none := by
    have haccumulated : (accumulated values).cache = some (cacheTotal values) := by
      rw [accumulated]
      exact if_neg hne
    rw [haccumulated]
    by_cases hreports : reportsCache values
    · obtain ⟨usage, husage, cache, hcache, -⟩ := id hreports
      have hsome : values.filterMap (·.cache) ≠ [] :=
        List.ne_nil_of_mem (List.mem_filterMap.mpr ⟨usage, husage, hcache⟩)
      rw [if_pos hreports, Option.filter_some_pos (by simpa using (reportsCache_iff values).mp hreports),
        Option.map_some, cacheTotal_usage, aggregateUsage, if_neg hne]
      exact (if_neg hsome).symm
    · rw [if_neg hreports, Option.filter_some_neg (by simpa using (reportsCache_iff values).not.mp hreports)]
      rfl
  rw [summarize, hcache, tokenTotals_accumulated, activeUsage_accumulated, sourceComplete_accumulated values hne,
    hcontext, hcost, hpriced, aggregateUsage, if_neg hne]
  simp only [accumulated, hattempts, Int.natCast_pos, Int.toNat_natCast]

theorem aggregateUsage_cache_eq_none :
    (aggregateUsage values).cache = none ↔ ∀ usage ∈ values, usage.cache = none := by
  rw [aggregateUsage]
  split
  · next h => simp [h, emptyUsageState]
  · next hne =>
      rw [← List.filterMap_eq_nil_iff]
      dsimp only
      split
      · next hnone => simp [hnone]
      · next hsome => simp [hsome]

end

end Rika.Usage
