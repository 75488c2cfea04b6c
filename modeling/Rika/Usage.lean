import Rika.TranscriptUnit

namespace Rika.Usage

structure InputTokenTotals where
  total : Option Nat := none
  uncached : Option Nat := none
  cacheRead : Option Nat := none
  cacheWrite : Option Nat := none
deriving DecidableEq

structure OutputTokenTotals where
  total : Option Nat := none
  text : Option Nat := none
  reasoning : Option Nat := none
deriving DecidableEq

structure TokenTotals where
  total : Option Nat := none
  input : InputTokenTotals
  output : OutputTokenTotals
  failedProviderTotal : Option Nat := none
deriving DecidableEq

structure ContextReading where
  requestOrdinal : Nat
  inputTokens : Nat
deriving DecidableEq

inductive ActiveTime
  | unavailable
  | available (accumulatedMillis : Finite) (activeSince : Option Finite)
deriving DecidableEq

structure CacheUsage where
  reportedAttempts : Nat
  hitAttempts : Nat
  inputTokens : Nat
  readTokens : Nat
deriving DecidableEq

structure UsageState where
  costNanoUsd : Option Nat := none
  tokens : Option TokenTotals := none
  cache : Option CacheUsage := none
  pricedAttempts : Nat
  unpricedAttempts : Nat
  includedAttempts : Option Nat := none
  countedAttempts : Nat
  uncountedAttempts : Nat
  sourceComplete : Bool
  context : Option ContextReading := none
  contextPending : Bool
  active : ActiveTime
deriving DecidableEq

structure ContextCapacity where
  contextWindow : Finite
  reserveTokens : Finite
deriving DecidableEq

structure ThreadViewUsage where
  state : UsageState
  contextCapacity : Option ContextCapacity

def emptyUsageState : UsageState where
  pricedAttempts := 0
  unpricedAttempts := 0
  includedAttempts := some 0
  countedAttempts := 0
  uncountedAttempts := 0
  sourceComplete := false
  contextPending := false
  active := .unavailable

def addOptional (values : List (Option Nat)) : Option Nat :=
  if values.any Option.isSome then some ((values.map (·.getD 0)).sum) else none

def sumTokenTotals (values : List (Option TokenTotals)) : Option TokenTotals :=
  let sum (field : TokenTotals → Option Nat) := addOptional (values.map (·.bind field))
  if values.any Option.isSome then
    some
      { total := sum (·.total)
        input :=
          { total := sum (·.input.total)
            uncached := sum (·.input.uncached)
            cacheRead := sum (·.input.cacheRead)
            cacheWrite := sum (·.input.cacheWrite) }
        output :=
          { total := sum (·.output.total)
            text := sum (·.output.text)
            reasoning := sum (·.output.reasoning) }
        failedProviderTotal := sum (·.failedProviderTotal) }
  else none

def sumCacheUsage (values : List CacheUsage) : CacheUsage where
  reportedAttempts := (values.map (·.reportedAttempts)).sum
  hitAttempts := (values.map (·.hitAttempts)).sum
  inputTokens := (values.map (·.inputTokens)).sum
  readTokens := (values.map (·.readTokens)).sum

def ActiveTime.accumulated : ActiveTime → Option Finite
  | .unavailable => none
  | .available accumulatedMillis _ => some accumulatedMillis

def ActiveTime.since : ActiveTime → Option Finite
  | .unavailable => none
  | .available _ activeSince => activeSince

def sumActive (values : List ActiveTime) : ActiveTime :=
  match values.filterMap (·.accumulated) with
  | [] => .unavailable
  | accumulated => .available accumulated.sum (values.filterMap (·.since)).min?

def aggregateUsage (values : List UsageState) : UsageState :=
  let pricedAttempts := (values.map (·.pricedAttempts)).sum
  let cache := values.filterMap (·.cache)
  if values = [] then emptyUsageState
  else
    { costNanoUsd := if 0 < pricedAttempts then addOptional (values.map (·.costNanoUsd)) else none
      tokens := sumTokenTotals (values.map (·.tokens))
      cache := if cache = [] then none else some (sumCacheUsage cache)
      pricedAttempts := pricedAttempts
      unpricedAttempts := (values.map (·.unpricedAttempts)).sum
      includedAttempts := some (values.map (·.includedAttempts.getD 0)).sum
      countedAttempts := (values.map (·.countedAttempts)).sum
      uncountedAttempts := (values.map (·.uncountedAttempts)).sum
      sourceComplete := values.all (·.sourceComplete)
      context := values.reverse.findSome? (·.context)
      contextPending := (values.getLast?.map (·.contextPending)).getD false
      active := sumActive (values.map (·.active)) }

def difference (next previous : Option Nat) : Option Nat :=
  match next with
  | none => if previous.isNone then none else some 0
  | some next => some (next - previous.getD 0)

def tokenDifference (next previous : Option TokenTotals) : Option TokenTotals :=
  next.map fun next =>
    let change (field : TokenTotals → Option Nat) := difference (field next) (previous.bind field)
    { total := change (·.total)
      input :=
        { total := change (·.input.total)
          uncached := change (·.input.uncached)
          cacheRead := change (·.input.cacheRead)
          cacheWrite := change (·.input.cacheWrite) }
      output :=
        { total := change (·.output.total)
          text := change (·.output.text)
          reasoning := change (·.output.reasoning) }
      failedProviderTotal := change (·.failedProviderTotal) }

def usageDelta (previous : Option UsageState) (next : UsageState) : UsageState :=
  let prior := previous.getD emptyUsageState
  { costNanoUsd := difference next.costNanoUsd prior.costNanoUsd
    tokens := tokenDifference next.tokens prior.tokens
    pricedAttempts := next.pricedAttempts - prior.pricedAttempts
    unpricedAttempts := next.unpricedAttempts - prior.unpricedAttempts
    includedAttempts := some (next.includedAttempts.getD 0 - prior.includedAttempts.getD 0)
    countedAttempts := next.countedAttempts - prior.countedAttempts
    uncountedAttempts := next.uncountedAttempts - prior.uncountedAttempts
    sourceComplete := next.sourceComplete
    contextPending := next.contextPending
    active :=
      match next.active with
      | .unavailable => .unavailable
      | .available nextActive _ => .available (max 0 (nextActive - prior.active.accumulated.getD 0)) none }

def currentActive (aggregate next : UsageState) : ActiveTime :=
  match aggregate.active with
  | .unavailable => .unavailable
  | .available accumulatedMillis _ => .available accumulatedMillis next.active.since

/-- `threadUsage.next`, with the compaction route of the turn if it is an
agent execution. -/
def threadUsageNext (current : ThreadViewUsage) (previous : Option UsageState) (next : UsageState)
    (compaction : Option ContextCapacity) : ThreadViewUsage :=
  let aggregate := aggregateUsage [current.state, usageDelta previous next]
  let contextCapacity :=
    if next.context.isSome && compaction.isSome then compaction else current.contextCapacity
  { state :=
      { aggregate with
        sourceComplete := next.sourceComplete
        contextPending := next.contextPending
        active := currentActive aggregate next
        context := next.context.or <| current.state.context.or aggregate.context }
    contextCapacity }

end Rika.Usage
