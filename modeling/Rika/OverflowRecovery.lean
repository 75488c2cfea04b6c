import Rika.FeedRecovery

namespace Rika.EventFeed

def transcriptThread : InteractiveEvent → Option String
  | .transcript _ _ id _ => some id
  | _ => none

def queueThread : InteractiveEvent → Option String
  | .queue _ _ id _ => some id
  | _ => none

def refolding (threadId : String) : InteractiveEvent → Option ThreadRefolding
  | .threadRefolding event => if event.threadId = threadId then some event else none
  | _ => none

def previewed : InteractiveEvent → Option ModelPreviewChanged
  | .executionModelPreviewChanged event => some event
  | _ => none

variable {log : List InteractiveEvent} {event : InteractiveEvent} {state next : State}

structure Touched (thread : InteractiveEvent → Option String) (log : List InteractiveEvent) (threadIds : List String) : Prop where
  once : threadIds.Nodup
  mem_iff : ∀ id, id ∈ threadIds ↔ ∃ event ∈ log, thread event = some id

section Threads

variable {thread : InteractiveEvent → Option String} {threadIds threadIds' : List String} {id : String}

theorem Touched.other (h : Touched thread log threadIds) (hnone : thread event = none) :
    Touched thread (log ++ [event]) threadIds := by
  refine ⟨h.once, fun id => (h.mem_iff id).trans ?_⟩
  simp [or_and_right, exists_or, hnone]

theorem Touched.remembered (h : Touched thread log threadIds) (hthread : thread event = some id)
    (hnext : rememberThread threadIds id = some threadIds') : Touched thread (log ++ [event]) threadIds' := by
  have hmem : ∀ other, (∃ event' ∈ log ++ [event], thread event' = some other) ↔ other ∈ threadIds ∨ other = id := by
    intro other
    rw [h.mem_iff]
    simp [or_and_right, exists_or, hthread, eq_comm]
  rw [rememberThread] at hnext
  split at hnext
  · next hold =>
      cases hnext
      refine ⟨h.once, fun other => ?_⟩
      rw [hmem]
      exact (or_iff_left_of_imp fun heq => heq ▸ hold).symm
  · next hnew =>
      split at hnext
      · cases hnext
      · cases hnext
        refine ⟨?_, fun other => ?_⟩
        · rw [← List.concat_eq_append]
          exact h.once.concat hnew
        · rw [hmem, List.mem_append, List.mem_singleton]

end Threads

/-- The settlement kept for a turn is one of the log, and none of the log has a greater sequence. -/
structure Settlements (log : List InteractiveEvent) (settlements : InsertionMap String TurnSettled) : Prop where
  known : ∀ key event, settlements.get key = some event → .turnSettled event ∈ log ∧ event.key = key
  newest : ∀ event, .turnSettled event ∈ log →
    ∃ kept, settlements.get event.key = some kept ∧ event.activitySequence ≤ kept.activitySequence

theorem Settlements.other {settlements : InsertionMap String TurnSettled} (h : Settlements log settlements)
    (hnone : settled event = none) : Settlements (log ++ [event]) settlements := by
  refine ⟨fun key turn hturn => ?_, fun turn hmem => ?_⟩
  · obtain ⟨hmem, hkey⟩ := h.known key turn hturn
    exact ⟨List.mem_append_left _ hmem, hkey⟩
  · rcases List.mem_append.mp hmem with hbefore | hlast
    · exact h.newest turn hbefore
    · rw [← List.mem_singleton.mp hlast] at hnone
      cases hnone

theorem Settlements.remembered (h : Settlements log state.settlements) (turn : TurnSettled) :
    Settlements (log ++ [.turnSettled turn]) (rememberSettled state turn).settlements := by
  have hlast : InteractiveEvent.turnSettled turn ∈ log ++ [.turnSettled turn] :=
    List.mem_append_right _ (List.mem_singleton_self _)
  rw [rememberSettled]
  split
  · next hnewer =>
      refine ⟨fun key found hfound => ?_, fun other hmem => ?_⟩
      · rw [InsertionMap.get_set] at hfound
        split at hfound
        · next hkey =>
            cases hfound
            exact ⟨hlast, hkey.symm⟩
        · obtain ⟨hmem, hkey⟩ := h.known key found hfound
          exact ⟨List.mem_append_left _ hmem, hkey⟩
      · rw [InsertionMap.get_set]
        rcases List.mem_append.mp hmem with hbefore | hsame
        · obtain ⟨kept, hkept, hle⟩ := h.newest other hbefore
          by_cases hkey : other.key = turn.key
          · rw [hkey] at hkept
            rw [hkept, Option.all_some, decide_eq_true_eq] at hnewer
            exact ⟨turn, if_pos hkey, hle.trans (Int.le_of_lt hnewer)⟩
          · exact ⟨kept, (if_neg hkey).trans hkept, hle⟩
        · obtain rfl := InteractiveEvent.turnSettled.inj (List.mem_singleton.mp hsame)
          exact ⟨other, if_pos rfl, Int.le_refl _⟩
  · next holder =>
      refine ⟨fun key found hfound => ?_, fun other hmem => ?_⟩
      · obtain ⟨hmem, hkey⟩ := h.known key found hfound
        exact ⟨List.mem_append_left _ hmem, hkey⟩
      · rcases List.mem_append.mp hmem with hbefore | hsame
        · exact h.newest other hbefore
        · obtain rfl := InteractiveEvent.turnSettled.inj (List.mem_singleton.mp hsame)
          cases hkept : state.settlements.get other.key with
          | none => exact absurd (by rw [hkept]; rfl) holder
          | some kept =>
            rw [hkept, Option.all_some, decide_eq_true_eq] at holder
            exact ⟨kept, rfl, Int.not_lt.mp holder⟩

structure Gathered (state : State) (log : List InteractiveEvent) : Prop where
  transcripts : Touched transcriptThread log state.transcriptThreadIds
  queues : Touched queueThread log state.queueThreadIds
  settlements : Settlements log state.settlements
  refolds : ∀ id, state.refolds.get id = latest (refolding id) log

theorem gathered_make : Gathered .make [] := by
  have hnone : ∀ thread, Touched thread [] [] := fun _ => ⟨List.nodup_nil, fun _ => by simp⟩
  exact ⟨hnone _, hnone _, ⟨fun _ _ h => (by cases h), nofun⟩, fun _ => rfl⟩

theorem latest_concat_none {α : Type} {f : InteractiveEvent → Option α} (h : f event = none) :
    latest f (log ++ [event]) = latest f log := by
  rw [latest_append, latest_singleton, h, Option.none_or]

theorem Gathered.other (h : Gathered state log) (htranscript : transcriptThread event = none) (hqueue : queueThread event = none)
    (hsettled : settled event = none) (hrefolding : ∀ id, refolding id event = none)
    (htranscripts : next.transcriptThreadIds = state.transcriptThreadIds)
    (hqueues : next.queueThreadIds = state.queueThreadIds) (hsettlements : next.settlements = state.settlements)
    (hrefolds : next.refolds = state.refolds) : Gathered next (log ++ [event]) := by
  constructor
  · rw [htranscripts]
    exact h.transcripts.other htranscript
  · rw [hqueues]
    exact h.queues.other hqueue
  · rw [hsettlements]
    exact h.settlements.other hsettled
  · intro id
    rw [hrefolds, latest_concat_none (hrefolding id)]
    exact h.refolds id

theorem Gathered.concat (h : Gathered state log) (hkept : (remember state event).criticalOverflowed = false) :
    Gathered (remember state event) (log ++ [event]) := by
  have hbefore := criticalOverflowed_of_remember hkept
  cases event with
  | turnSettled turn =>
    have hsettlements := h.settlements.remembered turn
    rw [remember]
    refine ⟨?_, ?_, hsettlements, fun id => ?_⟩
    · rw [rememberSettled]
      split <;> exact h.transcripts.other rfl
    · rw [rememberSettled]
      split <;> exact h.queues.other rfl
    · rw [latest_concat_none rfl, rememberSettled]
      split <;> exact h.refolds id
  | executionModelPreviewChanged event =>
    have hstep : remember state (.executionModelPreviewChanged event) = rememberPreview state event := by
      simp [remember, hbefore]
    rw [hstep, rememberPreview]
    split
    · exact h.other rfl rfl rfl (fun _ => rfl) rfl rfl rfl rfl
    · split <;> exact h.other rfl rfl rfl (fun _ => rfl) rfl rfl rfl rfl
  | critical tag selectionEpoch threadId payload =>
    simp only [remember, hbefore, rememberCritical, Bool.false_eq_true, if_false]
    split <;> exact h.other rfl rfl rfl (fun _ => rfl) rfl rfl rfl rfl
  | transcript tag selectionEpoch id payload =>
    simp only [remember, hbefore, Bool.false_eq_true, if_false] at hkept ⊢
    split at hkept
    · cases hkept
    · next threadIds hthreadIds =>
        refine ⟨h.transcripts.remembered rfl hthreadIds, h.queues.other rfl, h.settlements.other rfl, fun id => ?_⟩
        rw [latest_concat_none rfl]
        exact h.refolds id
  | queue tag selectionEpoch id payload =>
    simp only [remember, hbefore, Bool.false_eq_true, if_false] at hkept ⊢
    split at hkept
    · cases hkept
    · next threadIds hthreadIds =>
        refine ⟨h.transcripts.other rfl, h.queues.remembered rfl hthreadIds, h.settlements.other rfl, fun id => ?_⟩
        rw [latest_concat_none rfl]
        exact h.refolds id
  | threadRefolding event =>
    simp only [remember, hbefore, Bool.false_eq_true, if_false]
    refine ⟨h.transcripts.other rfl, h.queues.other rfl, h.settlements.other rfl, fun id => ?_⟩
    rw [InsertionMap.get_set, latest_append, latest_singleton, refolding, h.refolds]
    by_cases hid : id = event.threadId
    · rw [if_pos hid, if_pos hid.symm, Option.some_or]
    · rw [if_neg hid, if_neg (Ne.symm hid), Option.none_or]
  | threadActivated | threadsListed | passing =>
    simp only [remember, hbefore, Bool.false_eq_true, if_false]
    exact h.other rfl rfl rfl (fun _ => rfl) rfl rfl rfl rfl

theorem gathered_record (hkept : (record log).criticalOverflowed = false) : Gathered (record log) log := by
  induction log using List.reverseRecOn with
  | nil => exact gathered_make
  | append_singleton log event ih =>
    rw [record_concat] at hkept ⊢
    exact (ih (criticalOverflowed_of_remember hkept)).concat hkept

/-- What a recovery shows of an event that was remembered. A usage is not shown, and of the
events that pass nothing is said. -/
def Shown (recovered : List InteractiveEvent) (selectionEpoch : Int) (reason : String) : InteractiveEvent → Prop
  | .critical tag epoch threadId payload => .critical tag epoch threadId payload ∈ recovered
  | .turnSettled event => ∃ kept, .turnSettled kept ∈ recovered ∧ kept.key = event.key ∧
      event.activitySequence ≤ kept.activitySequence
  | .transcript _ _ id _ => .transcript .executionProjectionResyncRequired none id "" ∈ recovered
  | .queue _ _ id _ => .queue .threadViewResyncRequired selectionEpoch id reason ∈ recovered
  | .threadActivated _ => ∃ activated, .threadActivated activated ∈ recovered
  | .threadsListed _ => ∃ threads, .threadsListed threads ∈ recovered
  | .threadRefolding event => ∃ latest, .threadRefolding latest ∈ recovered ∧ latest.threadId = event.threadId
  | .executionModelPreviewChanged event => event.invalidation = none ∨
      ∃ cleared, .executionModelPreviewChanged cleared ∈ recovered ∧ cleared.key = event.key
  | .passing .. => True

structure Recovery (log recovered : List InteractiveEvent) (selectionEpoch : Int) (reason : String) : Prop where
  critical : recovered.filter isKept = log.filter isKept
  known : ∀ event, .turnSettled event ∈ recovered → .turnSettled event ∈ log
  settledOnce : ((recovered.filterMap settled).map TurnSettled.key).Nodup
  settledInOrder : (recovered.filterMap settled).Pairwise fun earlier later =>
    earlier.activitySequence ≤ later.activitySequence
  transcripts : Touched transcriptThread log (recovered.filterMap transcriptThread)
  queues : Touched queueThread log (recovered.filterMap queueThread)
  refolds : ∀ event, .threadRefolding event ∈ recovered ↔ latest (refolding event.threadId) log = some event
  fresh : Fresh recovered log
  invalidatedOnce : ((recovered.filterMap previewed).map ModelPreviewChanged.key).Nodup
  shown : ∀ event ∈ log, Shown recovered selectionEpoch reason event

theorem filterMap_kept {α : Type} {f : InteractiveEvent → Option α} (h : ∀ event, isKept event = true → f event = none)
    (log : List InteractiveEvent) : (log.filter isKept).filterMap f = [] :=
  List.filterMap_eq_nil_iff.mpr fun event hmem => h event (List.mem_filter.mp hmem).2

section Parts

variable {selectionEpoch : Int} {reason : String}

section

variable (h : state.critical = log.filter isKept)

include h

theorem kept_events : (events state selectionEpoch reason).filter isKept = log.filter isKept := by
  have hnone : ∀ {α : Type} {f : α → InteractiveEvent} (xs : List α), (∀ x, isKept (f x) = false) →
      (xs.map f).filter isKept = [] := by
    intro α f xs hf
    rw [List.filter_map, Function.comp_def, funext hf, List.filter_false, List.map_nil]
  rw [events, h, Option.toList_map, Option.toList_map]
  simp only [List.filter_append, List.filter_filter, Bool.and_self]
  rw [hnone _ fun _ => rfl, hnone _ fun _ => rfl, hnone _ fun _ => rfl, hnone _ fun _ => rfl, hnone _ fun _ => rfl,
    hnone _ fun _ => rfl, hnone _ fun _ => rfl]
  simp

theorem settled_events :
    (events state selectionEpoch reason).filterMap settled = StableSort.toSorted compareSequences state.settlements.values := by
  have hkept := @filterMap_kept _ settled (fun event hkept => by cases event <;> first | rfl | cases hkept) log
  simp [events, h, hkept, Option.toList_map, List.filterMap_map, Function.comp_def, settled]

theorem transcripts_events :
    (events state selectionEpoch reason).filterMap transcriptThread = state.transcriptThreadIds := by
  have hkept := @filterMap_kept _ transcriptThread (fun event hkept => by cases event <;> first | rfl | cases hkept) log
  simp [events, h, hkept, Option.toList_map, List.filterMap_map, Function.comp_def, transcriptThread]

theorem queues_events :
    (events state selectionEpoch reason).filterMap queueThread = state.queueThreadIds := by
  have hkept := @filterMap_kept _ queueThread (fun event hkept => by cases event <;> first | rfl | cases hkept) log
  simp [events, h, hkept, Option.toList_map, List.filterMap_map, Function.comp_def, queueThread]

theorem previews_events :
    (events state selectionEpoch reason).filterMap previewed = state.previewInvalidations.values := by
  have hkept := @filterMap_kept _ previewed (fun event hkept => by cases event <;> first | rfl | cases hkept) log
  simp [events, h, hkept, Option.toList_map, List.filterMap_map, Function.comp_def, previewed]

end

end Parts

theorem nodup_keys {ν : Type} {m : InsertionMap String ν} {key : ν → String} (h : ∀ k v, m.get k = some v → key v = k) :
    (m.values.map key).Nodup := by
  have hkeys : m.values.map key = m.keys := by
    rw [InsertionMap.values, InsertionMap.keys, List.map_map]
    exact List.map_congr_left fun entry hentry => h entry.1 entry.2 (InsertionMap.get_eq_some.mpr hentry)
  exact hkeys ▸ m.nodupKeys

theorem isSome_latest {α : Type} {f : InteractiveEvent → Option α} {a : α} (hmem : event ∈ log) (hevent : f event = some a) :
    ∃ b, latest f log = some b := by
  obtain ⟨before, after, rfl⟩ := List.append_of_mem hmem
  rw [latest_append, ← List.singleton_append, latest_append, latest_singleton, hevent]
  cases latest f after with
  | none => exact ⟨a, rfl⟩
  | some b => exact ⟨b, rfl⟩

theorem threadId_of_refolding {id : String} {newest : ThreadRefolding} (h : latest (refolding id) log = some newest) :
    newest.threadId = id := by
  obtain ⟨event, -, hevent⟩ := exists_mem_of_latest h
  cases event with
  | threadRefolding event =>
    obtain ⟨hid, hsome⟩ := Option.ite_none_right_eq_some.mp hevent
    exact Option.some_inj.mp hsome ▸ hid
  | _ => cases hevent

/-- What overflows is recovered as far as it was remembered: only usages and events that pass are lost of it. -/
theorem overflow_recovers (log : List InteractiveEvent) (selectionEpoch : Int) (reason : String)
    (hkept : (record log).criticalOverflowed = false) :
    Recovery log (events (record log) selectionEpoch reason) selectionEpoch reason := by
  have hgathered := @gathered_record log hkept
  have hrecorded := @recorded_record log hkept
  have hcritical := hrecorded.critical
  have hfresh := fresh_events (.refl log) hkept selectionEpoch reason
  have hpreviews : ∀ key cleared, (record log).previewInvalidations.get key = some cleared → cleared.key = key := by
    intro key cleared hget
    rw [hrecorded.previews] at hget
    obtain ⟨event, -, hcleared⟩ := exists_mem_of_latest hget
    exact key_of_invalidation hcleared
  have hturns : ∀ event, .turnSettled event ∈ events (record log) selectionEpoch reason ↔
      ∃ key, (record log).settlements.get key = some event := by
    intro event
    rw [← InsertionMap.mem_values]
    simp [events, hcritical, isKept, isCritical, settled]
  have hrefolds : ∀ event, .threadRefolding event ∈ events (record log) selectionEpoch reason ↔
      ∃ key, latest (refolding key) log = some event := by
    intro event
    simp only [← hgathered.refolds]
    rw [← InsertionMap.mem_values]
    simp [events, hcritical, isKept, isCritical]
  refine ⟨kept_events hcritical, fun event hmem => ?_, ?_, ?_, ?_, ?_, fun event => ?_, hfresh, ?_, fun event hmem => ?_⟩
  · obtain ⟨key, hkey⟩ := (hturns event).mp hmem
    exact (hgathered.settlements.known key event hkey).1
  · rw [settled_events hcritical]
    refine ((StableSort.toSorted_perm _ _).map _).nodup_iff.mpr (nodup_keys fun key event hkey => ?_)
    exact (hgathered.settlements.known key event hkey).2
  · have htrans : Std.TransCmp compareSequences := StableSort.compareOn_trans TurnSettled.activitySequence compare
    rw [settled_events hcritical]
    exact (StableSort.toSorted_sorted _).imp fun hle => compare_le_iff_le.mp (Ordering.ne_gt_iff_isLE.mpr hle)
  · rw [transcripts_events hcritical]
    exact hgathered.transcripts
  · rw [queues_events hcritical]
    exact hgathered.queues
  · rw [hrefolds]
    constructor
    · rintro ⟨key, hkey⟩
      rwa [threadId_of_refolding hkey]
    · exact fun hlatest => ⟨_, hlatest⟩
  · rw [previews_events hcritical]
    exact nodup_keys hpreviews
  · cases event with
    | critical tag epoch threadId payload =>
      have hfilter : .critical tag epoch threadId payload ∈ log.filter isKept := List.mem_filter.mpr ⟨hmem, rfl⟩
      rw [← kept_events hcritical] at hfilter
      exact (List.mem_filter.mp hfilter).1
    | turnSettled event =>
      obtain ⟨kept, hkey, hle⟩ := hgathered.settlements.newest event hmem
      exact ⟨kept, (hturns kept).mpr ⟨_, hkey⟩, (hgathered.settlements.known _ kept hkey).2, hle⟩
    | transcript tag epoch id payload =>
      have hid := (hgathered.transcripts.mem_iff id).mpr ⟨_, hmem, rfl⟩
      simp [Shown, events, hid]
    | queue tag epoch id payload =>
      have hid := (hgathered.queues.mem_iff id).mpr ⟨_, hmem, rfl⟩
      simp [Shown, events, hid]
    | threadActivated event =>
      obtain ⟨activated, hlatest⟩ := @isSome_latest log _ _ activation event hmem rfl
      exact ⟨activated, (hfresh.activation activated).mpr hlatest⟩
    | threadsListed threads =>
      obtain ⟨listed, hlatest⟩ := @isSome_latest log _ _ listing threads hmem rfl
      exact ⟨listed, (hfresh.listing listed).mpr hlatest⟩
    | threadRefolding event =>
      obtain ⟨newest, hlatest⟩ := @isSome_latest log _ _ (refolding event.threadId) event hmem (if_pos rfl)
      exact ⟨newest, (hrefolds newest).mpr ⟨_, hlatest⟩, threadId_of_refolding hlatest⟩
    | executionModelPreviewChanged event =>
      cases hinvalidation : event.invalidation with
      | none => exact .inl hinvalidation
      | some cleared =>
        obtain ⟨newest, hlatest⟩ := @isSome_latest log _ _ (invalidation event.key) cleared hmem
          ((if_pos rfl).trans hinvalidation)
        obtain ⟨other, -, hcleared⟩ := exists_mem_of_latest hlatest
        have hkey := key_of_invalidation hcleared
        exact .inr ⟨newest, (hfresh.invalidation newest).mpr (hkey ▸ hlatest), hkey⟩
    | passing => trivial

def samplePreview (preview : ModelPreview) : InteractiveEvent :=
  .executionModelPreviewChanged ⟨"thread", "turn", preview⟩

def sampleLog : List InteractiveEvent :=
  [samplePreview (.frame "run" none 1 "text"), .critical .executionControlled (some 1) (some "thread") "",
    .queue .queueUpdated 1 "thread" "", samplePreview (.frame "run" none 1 "more")]

theorem overflow_recovers_sample :
    Recovery sampleLog (events (record sampleLog) 1 "overflow") 1 "overflow" :=
  overflow_recovers sampleLog 1 "overflow" (by decide +kernel)

/-- A usage or a scheduled retry leaves nothing behind, and two turns may have one key. -/
theorem usage_unrecovered :
    (∀ event ∈ [samplePreview (.usage "run" none ""), .passing .turnRetryScheduled 0 "thread" ""],
      (record [event]).criticalOverflowed = false ∧ events (record [event]) 1 "overflow" = []) ∧
    events (record [.turnSettled ⟨1, 1, "a:b", "c", .completed, none⟩, .turnSettled ⟨1, 2, "a", "b:c", .failed, none⟩]) 1
      "overflow" = [.turnSettled ⟨1, 2, "a", "b:c", .failed, none⟩] := by decide +kernel

end Rika.EventFeed
