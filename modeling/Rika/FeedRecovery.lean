import Mathlib.Data.List.Induction
import Mathlib.Data.List.Pairwise
import Rika.EventFeed
import Rika.Fold

namespace Rika.EventFeed

open Fold

def critical (log : List InteractiveEvent) : List InteractiveEvent := log.filter isCritical

/-- The latest event of a log that `f` reads. -/
def latest {α : Type} (f : InteractiveEvent → Option α) (log : List InteractiveEvent) : Option α :=
  log.foldl (fun found event => (f event).or found) none

def activation : InteractiveEvent → Option ThreadActivated
  | .threadActivated event => some event
  | _ => none

def listing : InteractiveEvent → Option (List String)
  | .threadsListed threads => some threads
  | _ => none

def invalidation (key : String) : InteractiveEvent → Option ModelPreviewChanged
  | .executionModelPreviewChanged event => if event.key = key then event.invalidation else none
  | _ => none

section Latest

variable {α : Type} {f : InteractiveEvent → Option α}

theorem foldl_latest (log : List InteractiveEvent) (found : Option α) :
    log.foldl (fun found event => (f event).or found) found = (latest f log).or found := by
  induction log generalizing found with
  | nil => rfl
  | cons event log ih =>
    rw [latest, List.foldl_cons, List.foldl_cons, ih, ih ((f event).or none), Option.or_assoc, Option.or_none]

theorem latest_append (before after : List InteractiveEvent) :
    latest f (before ++ after) = (latest f after).or (latest f before) := by
  rw [latest, List.foldl_append, foldl_latest]
  rfl

theorem latest_singleton (event : InteractiveEvent) : latest f [event] = f event := Option.or_none

theorem exists_mem_of_latest {log : List InteractiveEvent} {a : α} (h : latest f log = some a) :
    ∃ event ∈ log, f event = some a := by
  by_contra hnone
  push Not at hnone
  induction log with
  | nil => cases h
  | cons event log ih =>
    rw [← List.singleton_append, latest_append, latest_singleton, Option.or_eq_some_iff] at h
    rcases h with h | ⟨-, h⟩
    · exact ih h fun other hmem => hnone other (List.mem_cons_of_mem _ hmem)
    · exact hnone event List.mem_cons_self h

end Latest

def settled : InteractiveEvent → Option TurnSettled
  | .turnSettled event => some event
  | _ => none

def isKept (event : InteractiveEvent) : Bool := isCritical event && (settled event).isNone

def settledAt (sequence : Int) (log : List InteractiveEvent) : List TurnSettled :=
  (log.filterMap settled).filter fun event => event.activitySequence = sequence

theorem settledAt_append (sequence : Int) (before after : List InteractiveEvent) :
    settledAt sequence (before ++ after) = settledAt sequence before ++ settledAt sequence after := by
  rw [settledAt, List.filterMap_append, List.filter_append]
  rfl

/-- Two orders of the same events that a recovery cannot tell apart. -/
structure Agree (remembered log : List InteractiveEvent) : Prop where
  kept : remembered.filter isKept = log.filter isKept
  settlements : ∀ sequence, settledAt sequence remembered = settledAt sequence log
  activation : latest activation remembered = latest activation log
  listing : latest listing remembered = latest listing log
  invalidation : ∀ key, latest (invalidation key) remembered = latest (invalidation key) log

theorem Agree.refl (log : List InteractiveEvent) : Agree log log := ⟨rfl, fun _ => rfl, rfl, rfl, fun _ => rfl⟩

theorem Agree.trans {first second third : List InteractiveEvent} (h : Agree first second) (h' : Agree second third) :
    Agree first third :=
  ⟨h.kept.trans h'.kept, fun sequence => (h.settlements sequence).trans (h'.settlements sequence),
    h.activation.trans h'.activation, h.listing.trans h'.listing,
    fun key => (h.invalidation key).trans (h'.invalidation key)⟩

variable {remembered log newer : List InteractiveEvent} {α : Type} {event : InteractiveEvent} {p : α → Bool} {state : State}
    {f : α → InteractiveEvent}

theorem Agree.append (h : Agree remembered log) (after : List InteractiveEvent) :
    Agree (remembered ++ after) (log ++ after) where
  kept := by rw [List.filter_append, List.filter_append, h.kept]
  settlements := fun sequence => by rw [settledAt_append, settledAt_append, h.settlements]
  activation := by rw [latest_append, latest_append, h.activation]
  listing := by rw [latest_append, latest_append, h.listing]
  invalidation := fun key => by rw [latest_append, latest_append, h.invalidation]

/-- The event may be remembered after newer ones: none of them is of its kind. Settled
turns go by their sequence. -/
structure Older (newer : List InteractiveEvent) (event : InteractiveEvent) : Prop where
  kept : isKept event = true → newer.filter isKept = []
  settlements : ∀ turn, settled event = some turn → settledAt turn.activitySequence newer = []
  activation : (activation event).isSome = true → latest activation newer = none
  listing : (listing event).isSome = true → latest listing newer = none
  invalidation : ∀ key, (invalidation key event).isSome = true → latest (invalidation key) newer = none

theorem latest_swap {f : InteractiveEvent → Option α} (h : (f event).isSome = true → latest f newer = none) :
    latest f (newer ++ [event]) = latest f ([event] ++ newer) := by
  rw [latest_append, latest_append, latest_singleton]
  cases hevent : f event with
  | none => rw [Option.none_or, Option.or_none]
  | some a => rw [h (by rw [hevent]; rfl), Option.or_none, Option.none_or]

theorem filter_swap {newer : List α} {x : α} (h : p x = true → newer.filter p = []) :
    (newer ++ [x]).filter p = ([x] ++ newer).filter p := by
  rw [List.filter_append, List.filter_append]
  by_cases hx : p x = true
  · rw [h hx, List.append_nil, List.nil_append]
  · rw [List.filter_cons_of_neg hx, List.filter_nil, List.append_nil, List.nil_append]

theorem settledAt_swap (h : ∀ turn, settled event = some turn → settledAt turn.activitySequence newer = []) (sequence : Int) :
    settledAt sequence (newer ++ [event]) = settledAt sequence ([event] ++ newer) := by
  rw [settledAt, settledAt, List.filterMap_append, List.filterMap_append]
  cases hevent : settled event with
  | none => rw [List.filterMap_cons_none hevent, List.filterMap_nil, List.append_nil, List.nil_append]
  | some turn =>
    rw [List.filterMap_cons_some hevent, List.filterMap_nil]
    apply filter_swap
    intro hsequence
    rw [decide_eq_true_eq] at hsequence
    rw [← hsequence]
    exact h turn hevent

theorem Older.agree (h : Older newer event)
    (before : List InteractiveEvent) : Agree (before ++ (newer ++ [event])) (before ++ ([event] ++ newer)) where
  kept := by rw [List.filter_append, filter_swap h.kept, ← List.filter_append]
  settlements := fun sequence => by rw [settledAt_append, settledAt_swap h.settlements, ← settledAt_append]
  activation := by rw [latest_append before, latest_swap h.activation, ← latest_append]
  listing := by rw [latest_append before, latest_swap h.listing, ← latest_append]
  invalidation := fun key => by rw [latest_append before, latest_swap (h.invalidation key), ← latest_append]

theorem Agree.drain {before : List InteractiveEvent} (h : Agree remembered (before ++ newer))
    {queued : List InteractiveEvent} (hqueued : ∀ event ∈ queued, Older newer event) :
    Agree (remembered ++ queued) (before ++ queued ++ newer) := by
  induction queued generalizing remembered before with
  | nil =>
    rw [List.append_nil, List.append_nil]
    exact h
  | cons event queued ih =>
    have hfirst : Agree (remembered ++ [event]) ((before ++ [event]) ++ newer) := by
      have hagree := (hqueued event List.mem_cons_self).agree before
      rw [← List.append_assoc, ← List.append_assoc] at hagree
      exact (h.append [event]).trans hagree
    have hrest := ih hfirst fun other hmem => hqueued other (List.mem_cons_of_mem _ hmem)
    rw [List.append_cons remembered, List.append_cons before]
    exact hrest

/-- The critical events come in the order a recovery gives them: settled turns last, each
turn once, by their sequence. -/
def SettledLast (log : List InteractiveEvent) : Prop :=
  (critical log).Pairwise fun
    | .turnSettled earlier, .turnSettled later =>
      earlier.key ≠ later.key ∧ earlier.activitySequence ≤ later.activitySequence
    | .turnSettled _, _ => False
    | _, _ => True

structure Recorded (state : State) (log : List InteractiveEvent) : Prop where
  critical : state.critical = log.filter isKept
  activated : state.activated = latest activation log
  summaries : state.summaries = latest listing log
  previews : ∀ key, state.previewInvalidations.get key = latest (invalidation key) log

theorem recorded_make : Recorded .make [] := ⟨rfl, rfl, rfl, fun _ => rfl⟩

theorem criticalOverflowed_rememberSettled (state : State) (event : TurnSettled) :
    (rememberSettled state event).criticalOverflowed = state.criticalOverflowed := by
  rw [rememberSettled]
  split <;> rfl

theorem criticalOverflowed_of_remember
    (h : (remember state event).criticalOverflowed = false) : state.criticalOverflowed = false := by
  cases event with
  | turnSettled settled => exact (criticalOverflowed_rememberSettled state settled).symm.trans h
  | _ =>
    by_contra hover
    rw [Bool.not_eq_false] at hover
    revert h
    simp [remember, hover]

/-- What remembering an event does to what is kept of the earlier ones. -/
structure Adds (state : State) (event : InteractiveEvent) (next : State) : Prop where
  critical : next.critical = state.critical ++ [event].filter isKept
  activated : next.activated = (activation event).or state.activated
  summaries : next.summaries = (listing event).or state.summaries
  previews : ∀ key, next.previewInvalidations.get key = (invalidation key event).or (state.previewInvalidations.get key)

theorem adds_of_other {next : State} (hkept : isKept event = false)
    (hactivation : activation event = none) (hlisting : listing event = none)
    (hinvalidation : ∀ key, invalidation key event = none) (hsame : next.critical = state.critical)
    (hactivated : next.activated = state.activated) (hsummaries : next.summaries = state.summaries)
    (hpreviews : next.previewInvalidations = state.previewInvalidations) : Adds state event next where
  critical := by
    rw [hsame, List.filter_cons_of_neg (by simp [hkept]), List.filter_nil, List.append_nil]
  activated := by rw [hactivated, hactivation, Option.none_or]
  summaries := by rw [hsummaries, hlisting, Option.none_or]
  previews := fun key => by rw [hpreviews, hinvalidation, Option.none_or]

theorem adds_rememberPreview {event : ModelPreviewChanged} (hkept : (rememberPreview state event).criticalOverflowed = false) :
    Adds state (.executionModelPreviewChanged event) (rememberPreview state event) := by
  have hinvalidation : ∀ key, invalidation key (.executionModelPreviewChanged event) =
      if event.key = key then event.invalidation else none := fun _ => rfl
  unfold rememberPreview at hkept ⊢
  split at hkept
  · next hnone =>
      refine adds_of_other rfl rfl rfl (fun key => ?_) rfl rfl rfl rfl
      rw [hinvalidation, hnone, ite_self]
  · next cleared hcleared =>
      split at hkept
      · cases hkept
      · next hroom =>
          rw [if_neg hroom]
          refine ⟨(List.append_nil _).symm, rfl, rfl, fun key => ?_⟩
          rw [hinvalidation, hcleared, InsertionMap.get_set]
          by_cases hkey : key = event.key
          · rw [if_pos hkey, if_pos hkey.symm, Option.some_or]
          · rw [if_neg hkey, if_neg (Ne.symm hkey), Option.none_or]

theorem adds_remember
    (hkept : (remember state event).criticalOverflowed = false) : Adds state event (remember state event) := by
  have hbefore := criticalOverflowed_of_remember hkept
  cases event with
  | turnSettled settled =>
    rw [remember, rememberSettled]
    split <;> exact adds_of_other rfl rfl rfl (fun _ => rfl) rfl rfl rfl rfl
  | executionModelPreviewChanged event =>
    have hstep : remember state (.executionModelPreviewChanged event) = rememberPreview state event := by
      simp [remember, hbefore]
    rw [hstep] at hkept ⊢
    exact adds_rememberPreview hkept
  | critical tag selectionEpoch threadId payload =>
    simp only [remember, hbefore, rememberCritical, Bool.false_eq_true, if_false] at hkept ⊢
    split at hkept
    · cases hkept
    · next hroom =>
        rw [if_neg hroom]
        exact ⟨rfl, rfl, rfl, fun _ => rfl⟩
  | transcript tag selectionEpoch id payload | queue tag selectionEpoch id payload =>
    simp only [remember, hbefore, Bool.false_eq_true, if_false] at hkept ⊢
    split at hkept
    · cases hkept
    · next threadIds hthreadIds =>
        exact adds_of_other rfl rfl rfl (fun _ => rfl) rfl rfl rfl rfl
  | threadActivated activated | threadsListed summaries =>
    simp only [remember, hbefore, Bool.false_eq_true, if_false]
    exact ⟨(List.append_nil _).symm, rfl, rfl, fun _ => rfl⟩
  | threadRefolding refolding | passing tag selectionEpoch threadId payload =>
    simp only [remember, hbefore, Bool.false_eq_true, if_false]
    exact adds_of_other rfl rfl rfl (fun _ => rfl) rfl rfl rfl rfl

theorem settlements_remember (state : State) (h : settled event = none) :
    (remember state event).settlements = state.settlements := by
  unfold remember
  cases event with
  | turnSettled event => cases h
  | executionModelPreviewChanged event =>
    dsimp only
    split
    · rfl
    · unfold rememberPreview
      split
      · rfl
      · split <;> rfl
  | critical =>
    dsimp only
    split
    · rfl
    · rw [rememberCritical]
      split <;> rfl
  | transcript | queue =>
    dsimp only
    split
    · rfl
    · split <;> rfl
  | _ =>
    dsimp only
    split <;> rfl

theorem Recorded.concat (h : Recorded state log) (hkept : (remember state event).criticalOverflowed = false) :
    Recorded (remember state event) (log ++ [event]) := by
  have hadds := adds_remember hkept
  constructor
  · rw [hadds.critical, h.critical, List.filter_append]
  · rw [hadds.activated, h.activated, latest_append, latest_singleton]
  · rw [hadds.summaries, h.summaries, latest_append, latest_singleton]
  · intro key
    rw [hadds.previews, h.previews, latest_append, latest_singleton]

def record (log : List InteractiveEvent) : State := log.foldl remember .make

theorem record_concat (log : List InteractiveEvent) (event : InteractiveEvent) :
    record (log ++ [event]) = remember (record log) event := by
  rw [record, List.foldl_append]
  rfl

theorem recorded_record (hkept : (record log).criticalOverflowed = false) : Recorded (record log) log := by
  induction log using List.reverseRecOn with
  | nil => exact recorded_make
  | append_singleton log event ih =>
    rw [record_concat] at hkept ⊢
    exact (ih (criticalOverflowed_of_remember hkept)).concat hkept

theorem settlements_record (hdistinct : (log.filterMap settled).Pairwise fun earlier later => earlier.key ≠ later.key) :
    (record log).settlements.entries = (log.filterMap settled).map fun event => (event.key, event) := by
  induction log using List.reverseRecOn with
  | nil => rfl
  | append_singleton log event ih =>
    rw [List.filterMap_append, List.pairwise_append] at hdistinct
    obtain ⟨hlog, -, hevent⟩ := hdistinct
    rw [record_concat, List.filterMap_append, List.map_append, ← ih hlog]
    cases event with
    | turnSettled event =>
      have hnone : (record log).settlements.get event.key = none := by
        rw [InsertionMap.get_eq_none, InsertionMap.keys, ih hlog, List.map_map, List.mem_map]
        rintro ⟨earlier, hmem, hkey⟩
        exact hevent earlier hmem event (List.mem_singleton.mpr rfl) hkey
      rw [remember, rememberSettled, hnone, Option.all_none, if_pos rfl]
      exact InsertionMap.entries_set_of_get_none hnone event
    | _ => rw [settlements_remember _ rfl, List.filterMap_cons_none rfl, List.filterMap_nil, List.map_nil, List.append_nil]

theorem filter_append_filter_not {α : Type*} {p : α → Bool} {xs : List α}
    (h : xs.Pairwise fun earlier later => p earlier = false → p later = false) :
    xs.filter p ++ xs.filter (fun x => !p x) = xs := by
  induction xs with
  | nil => rfl
  | cons x xs ih =>
    rw [List.pairwise_cons] at h
    cases hx : p x with
    | true =>
      rw [List.filter_cons_of_pos hx, List.filter_cons_of_neg (by simp [hx]), List.cons_append, ih h.2]
    | false =>
      have hrest : ∀ y ∈ xs, p y = false := fun y hy => h.1 y hy hx
      rw [List.filter_cons_of_neg (by simp [hx]), List.filter_cons_of_pos (by simp [hx]),
        List.filter_eq_nil_iff.mpr (by simpa using hrest), List.nil_append,
        List.filter_eq_self.mpr (by simpa using hrest)]

theorem filterMap_settled_critical (log : List InteractiveEvent) :
    (critical log).filterMap settled = log.filterMap settled := by
  rw [critical, List.filterMap_filter]
  congr 1
  funext event
  cases event <;> rfl

theorem settledLast_split (h : SettledLast log) : critical log = log.filter isKept ++
      (log.filterMap settled).map .turnSettled := by
  have hfirst : (critical log).filter (fun event => (settled event).isNone) =
      log.filter isKept := by
    rw [critical, List.filter_filter]
    congr 1
    funext event
    rw [isKept, Bool.and_comm]
  have hsettled : (critical log).filter (fun event => !(settled event).isNone) =
      (log.filterMap settled).map .turnSettled := by
    rw [← filterMap_settled_critical]
    clear h hfirst
    induction critical log with
    | nil => rfl
    | cons event log ih =>
      cases event with
      | turnSettled event =>
        rw [List.filter_cons_of_pos (by rfl), ih, List.filterMap_cons_some (by rfl), List.map_cons]
      | _ => rw [List.filter_cons_of_neg (by simp [settled]), ih, List.filterMap_cons_none (by rfl)]
  rw [← hfirst, ← hsettled]
  refine (filter_append_filter_not ?_).symm
  refine List.Pairwise.imp ?_ h
  intro earlier later hrelated hearlier
  cases earlier with
  | turnSettled =>
    cases later with
    | turnSettled => rfl
    | _ => exact hrelated.elim
  | _ => cases hearlier

theorem settledLast_settled (h : SettledLast log) :
    (log.filterMap settled).Pairwise fun earlier later =>
      earlier.key ≠ later.key ∧ earlier.activitySequence ≤ later.activitySequence := by
  rw [← filterMap_settled_critical]
  refine List.Pairwise.filterMap settled ?_ h
  intro earlier later hrelated turn hturn turn' hturn'
  cases earlier with
  | turnSettled earlier =>
    cases later with
    | turnSettled later =>
      cases hturn
      cases hturn'
      exact hrelated
    | _ => cases hturn'
  | _ => cases hturn

theorem Agree.settled_perm (h : Agree remembered log) : (remembered.filterMap settled).Perm (log.filterMap settled) := by
  rw [List.perm_iff_count]
  intro turn
  have hat := congrArg (List.count turn) (h.settlements turn.activitySequence)
  rwa [settledAt, settledAt, List.count_filter (by simp), List.count_filter (by simp)] at hat

theorem toSorted_settled (h : Agree remembered log) (hlast : SettledLast log) :
    StableSort.toSorted compareSequences (remembered.filterMap settled) = log.filterMap settled := by
  have hle : ∀ left right : TurnSettled, (compareSequences left right).isLE = true ↔
      left.activitySequence ≤ right.activitySequence := fun left right => by
    rw [compareSequences]
    exact Ordering.ne_gt_iff_isLE.symm.trans compare_le_iff_le
  have htrans : Std.TransCmp compareSequences :=
    StableSort.compareOn_trans TurnSettled.activitySequence compare
  apply StableSort.eq_of_filter_eq TurnSettled.activitySequence
  · exact (StableSort.toSorted_sorted _).imp fun {left right} hleft => (hle left right).mp hleft
  · exact (settledLast_settled hlast).imp fun hpair => hpair.2
  · intro sequence
    rw [StableSort.filter_toSorted]
    · exact h.settlements sequence
    · intro left right hleft hright
      rw [decide_eq_true_eq] at hleft hright
      rw [hle, hleft, hright]

theorem critical_append (before after : List InteractiveEvent) :
    critical (before ++ after) = critical before ++ critical after := List.filter_append ..

theorem critical_map_nil (h : ∀ x, isCritical (f x) = false) (xs : List α) : critical (xs.map f) = [] := by
  rw [critical, List.filter_eq_nil_iff]
  intro event hmem
  obtain ⟨x, -, rfl⟩ := List.mem_map.mp hmem
  rw [h]
  exact Bool.false_ne_true

theorem critical_map_self (h : ∀ x, isCritical (f x) = true) (xs : List α) : critical (xs.map f) = xs.map f := by
  rw [critical, List.filter_eq_self]
  intro event hmem
  obtain ⟨x, -, rfl⟩ := List.mem_map.mp hmem
  exact h x

theorem critical_kept (log : List InteractiveEvent) : critical (log.filter isKept) = log.filter isKept := by
  rw [critical, List.filter_eq_self]
  intro event hmem
  exact (Bool.and_eq_true_iff.mp (List.mem_filter.mp hmem).2).1

theorem critical_events (h : Agree remembered log) (hlast : SettledLast log)
    (hkept : (record remembered).criticalOverflowed = false) (selectionEpoch : Int) (reason : String) :
    critical (events (record remembered) selectionEpoch reason) = critical log := by
  have hrecorded := recorded_record hkept
  have hdistinct : (remembered.filterMap settled).Pairwise fun earlier later => earlier.key ≠ later.key :=
    h.settled_perm.symm.pairwise ((settledLast_settled hlast).imp fun hpair => hpair.1) fun hne => hne.symm
  have hvalues : (record remembered).settlements.values = remembered.filterMap settled := by
    rw [InsertionMap.values, settlements_record hdistinct, List.map_map]
    exact List.map_id _
  rw [events, hvalues, toSorted_settled h hlast, hrecorded.critical, settledLast_split hlast, h.kept, Option.toList_map,
    Option.toList_map]
  simp only [critical_append]
  rw [critical_map_nil (fun _ => rfl), critical_map_nil (fun _ => rfl), critical_kept, critical_map_self (fun _ => rfl),
    critical_map_nil (fun _ => rfl), critical_map_nil (fun _ => rfl), critical_map_nil (fun _ => rfl),
    critical_map_nil (fun _ => rfl)]
  simp only [List.nil_append, List.append_nil]

theorem key_of_invalidation {key : String} {cleared : ModelPreviewChanged}
    (h : invalidation key event = some cleared) : cleared.key = key := by
  cases event with
  | executionModelPreviewChanged event =>
    have hread : (if event.key = key then event.invalidation else none) = some cleared := h
    rw [Option.ite_none_right_eq_some] at hread
    obtain ⟨rfl, hcleared⟩ := hread
    obtain ⟨threadId, turnId, preview⟩ := event
    cases preview with
    | usage => cases hcleared
    | _ =>
      cases hcleared
      rfl
  | _ => cases h

/-- The activation, the list and the cleared previews recovered are the latest of the log. -/
structure Fresh (recovered log : List InteractiveEvent) : Prop where
  activation : ∀ event, .threadActivated event ∈ recovered ↔ latest activation log = some event
  listing : ∀ threads, .threadsListed threads ∈ recovered ↔ latest listing log = some threads
  invalidation : ∀ event, .executionModelPreviewChanged event ∈ recovered ↔
    latest (invalidation event.key) log = some event

theorem fresh_events (h : Agree remembered log)
    (hkept : (record remembered).criticalOverflowed = false) (selectionEpoch : Int) (reason : String) :
    Fresh (events (record remembered) selectionEpoch reason) log := by
  have hrecorded := recorded_record hkept
  constructor
  · intro event
    rw [← h.activation, ← hrecorded.activated]
    simp [events, hrecorded.critical, isKept, isCritical]
  · intro threads
    rw [← h.listing, ← hrecorded.summaries]
    simp [events, hrecorded.critical, isKept, isCritical]
  · intro event
    have hmem : .executionModelPreviewChanged event ∈ events (record remembered) selectionEpoch reason ↔
        event ∈ (record remembered).previewInvalidations.values := by
      simp [events, hrecorded.critical, isKept, isCritical]
    rw [hmem, InsertionMap.mem_values]
    constructor
    · rintro ⟨key, hget⟩
      rw [hrecorded.previews, h.invalidation] at hget
      obtain ⟨other, -, hcleared⟩ := exists_mem_of_latest hget
      rw [key_of_invalidation hcleared]
      exact hget
    · intro hlatest
      refine ⟨event.key, ?_⟩
      rw [hrecorded.previews, h.invalidation, hlatest]

end Rika.EventFeed
