import Rika.Fold
import Rika.TerminalQueue

namespace Rika.TerminalQueue

/-- A change on the server, with its place; a delta names the place only where a turn is put back. -/
inductive ServerChange
  | added (item : QueueItem) (place : Nat) (positioned : Bool)
  | updated (item : QueueItem)
  | removed (turnId : String)

def ServerChange.delta : ServerChange → QueueChange
  | added item place positioned => .added item (if positioned then some place else none)
  | updated item => .updated item
  | removed turnId => .removed turnId

def ServerChange.apply (queue : List QueueItem) : ServerChange → List QueueItem
  | added item place _ => splice queue place item
  | updated item => queue.map fun other => if other.id = item.id then item else other
  | removed turnId => queue.filter fun item => item.id ≠ turnId

def ServerChange.isPossible (queue : List QueueItem) : ServerChange → Bool
  | added item place _ => !item.provisional && !holds queue item.id && place ≤ queue.length
  | updated item => !item.provisional && holds queue item.id
  | removed turnId => holds queue turnId

abbrev History := List ServerChange

def queueAt (history : History) (revision : Nat) : List QueueItem :=
  (history.take revision).foldl ServerChange.apply []

def confirmed (queue : List QueueItem) : List QueueItem := queue.filter fun item => !item.provisional

structure System (Activity : Type) where
  histories : String → History
  model : Model Activity

def System.start (Activity : Type) : System Activity := ⟨fun _ => [], Model.initial⟩

inductive Event (Activity : Type)
  | change (threadId : String) (change : ServerChange)
  | deliver (threadId : String) (index : Nat) (counted : Bool)
  | reset (threadId : String) (revision : Nat)
  | resetOverlaid (threadId : String) (revision : Nat) (sending : Activity)
  | select (threadId : Option String)
  | submit (submissionId prompt : String)
  | promptAdmitted (submissionId : Option String) (turnId : String) (status : Option AdmissionStatus) (prompt : Option String)
  | reject (submissionId : Option String)

variable {Activity : Type}

section

variable (system : System Activity)

def deliver (threadId : String) (index : Nat) (counted : Bool) : QueueDeltaResult Activity :=
  match (system.histories threadId)[index]? with
  | none => ⟨system.model, false⟩
  | some change =>
    applyQueueDelta system.model threadId (index + 1) change.delta
      (if counted then some (queueAt (system.histories threadId) (index + 1)).length else none)

def reset (threadId : String) (revision : Nat) : Model Activity :=
  if revision ≤ (system.histories threadId).length then
    resetQueue system.model threadId revision (queueAt (system.histories threadId) revision)
  else system.model

def step : Event Activity → System Activity
  | .change threadId change =>
    let history := system.histories threadId
    if change.isPossible (queueAt history history.length) then
      { system with histories := Function.update system.histories threadId (history ++ [change]) }
    else system
  | .deliver threadId index counted => { system with model := (deliver system threadId index counted).model }
  | .reset threadId revision => { system with model := reset system threadId revision }
  | .resetOverlaid threadId revision sending =>
    { system with model := overlayPendingSubmissions (reset system threadId revision) sending system.model }
  | .select threadId => { system with model := { system.model with currentThreadId := threadId } }
  | .submit submissionId prompt => { system with model := submitQueued system.model submissionId prompt }
  | .promptAdmitted submissionId turnId status prompt =>
    { system with model := TerminalQueue.promptAdmitted system.model submissionId turnId status prompt }
  | .reject submissionId => { system with model := dropProvisionalQueueItem system.model submissionId }

def run (events : List (Event Activity)) : System Activity := events.foldl step (System.start Activity)

/-- The items that are no provisional ones are the server's queue at the model's revision. -/
def Tracks : Prop :=
  ∀ threadId revision, system.model.queueThreadId = some threadId → system.model.queueRevision = some revision →
    confirmed system.model.queue = queueAt (system.histories threadId) revision

/-- The change lands at the server's place, behind as many confirmed items as the server put before it, and without
provisional ones before it. -/
def lands (queue : List QueueItem) : ServerChange → Bool
  | .added item place positioned =>
    match queue.findIdx? fun other => other.id = item.id with
    | some index => (confirmed (queue.take index)).length = place
    | none =>
      if positioned then (queue.take place).all fun other => !other.provisional
      else (confirmed queue).length = place
  | .updated item => (queue.find? fun other => other.id = item.id).all fun other => !other.provisional
  | .removed turnId => (queue.find? fun other => other.id = turnId).all fun other => !other.provisional

def isNext (model : Model Activity) (threadId : String) (index : Nat) : Bool :=
  model.currentThreadId.all (fun current => current = threadId) && model.queueThreadId = some threadId &&
    model.queueRevision = some index

/-- A delta that is applied lands at the server's place. -/
def LandsNext : Event Activity → Prop
  | .deliver threadId index _ =>
    isNext system.model threadId index = true → ∀ change ∈ (system.histories threadId)[index]?, lands system.model.queue change = true
  | .change _ _ | .reset _ _ | .resetOverlaid _ _ _ | .select _ | .submit _ _ | .promptAdmitted _ _ _ _ | .reject _ => True

end

section Changes

variable {queue server : List QueueItem}

theorem confirmed_append (queue others : List QueueItem) : confirmed (queue ++ others) = confirmed queue ++ confirmed others :=
  List.filter_append _ _

variable {item : QueueItem} {id : String}

theorem confirmed_cons_of_provisional (h : item.provisional = true) (queue : List QueueItem) :
    confirmed (item :: queue) = confirmed queue :=
  List.filter_cons_of_neg (by rw [h]; exact Bool.false_ne_true)

theorem confirmed_cons_of_confirmed (h : item.provisional = false) (queue : List QueueItem) :
    confirmed (item :: queue) = item :: confirmed queue :=
  List.filter_cons_of_pos (by rw [h]; rfl)

theorem holds_iff : holds queue id = true ↔ ∃ item ∈ queue, item.id = id := by
  rw [holds, List.any_eq_true]
  simp only [decide_eq_true_eq]

theorem split_of_findIdx {p : QueueItem → Bool} {index : Nat} (h : queue.findIdx? p = some index) :
    ∃ before item after, queue = before ++ item :: after ∧ before.length = index ∧ p item = true ∧
      (∀ other ∈ before, p other = false) ∧ queue.find? p = some item := by
  induction queue generalizing index with
  | nil => cases h
  | cons first rest ih =>
    rw [List.findIdx?_cons] at h
    cases hfirst : p first with
    | true =>
      rw [hfirst, if_pos rfl] at h
      cases h
      refine ⟨[], first, rest, rfl, rfl, hfirst, fun other hother => ?_, ?_⟩
      · cases hother
      · rw [List.find?_cons_of_pos hfirst]
    | false =>
      rw [hfirst, if_neg Bool.false_ne_true] at h
      obtain ⟨index, hindex, rfl⟩ := Option.map_eq_some_iff.mp h
      obtain ⟨before, item, after, rfl, rfl, hitem, hbefore, hfind⟩ := ih hindex
      refine ⟨first :: before, item, after, rfl, rfl, hitem, List.forall_mem_cons.mpr ⟨hfirst, hbefore⟩, ?_⟩
      rw [List.find?_cons_of_neg (by rw [hfirst]; exact Bool.false_ne_true)]
      exact hfind

theorem splice_inj (hnew : item ∉ server) {m n : Nat} (hm : m ≤ server.length) (hn : n ≤ server.length) :
    splice server m item = splice server n item ↔ m = n := by
  refine ⟨fun heq => ?_, fun h => by rw [h]⟩
  have hindex : ∀ k, k ≤ server.length → (splice server k item).findIdx? (fun other => other = item) = some k := by
    intro k hk
    have hbefore : (server.take k).findIdx? (fun other => decide (other = item)) = none := by
      rw [List.findIdx?_eq_none_iff]
      intro other hother
      refine decide_eq_false fun h => hnew ?_
      rw [← h]
      exact List.mem_of_mem_take hother
    rw [splice, List.findIdx?_append, hbefore, List.findIdx?_cons, decide_eq_true rfl, if_pos rfl, List.length_take_of_le hk,
      Option.none_or, Option.map_some, Nat.zero_add]
  have hsome := (hindex m hm).symm.trans ((congrArg _ heq).trans (hindex n hn))
  exact Option.some.inj hsome

theorem confirmed_splice (hitem : item.provisional = false) (before after : List QueueItem) :
    confirmed (before ++ item :: after) = splice (confirmed (before ++ after)) (confirmed before).length item := by
  rw [confirmed_append, confirmed_cons_of_confirmed hitem, confirmed_append, splice, List.take_left, List.drop_left]

theorem mem_confirmed : item ∈ confirmed queue ↔ item ∈ queue ∧ item.provisional = false := by
  rw [confirmed, List.mem_filter, Bool.not_eq_true']

variable {Activity : Type} {model : Model Activity}

theorem applyAdded_tracks {place : Nat} {positioned : Bool} (hqueue : confirmed model.queue = server)
    (hitem : item.provisional = false) (hnew : holds server item.id = false) (hplace : place ≤ server.length) :
    (applyAdded model item (if positioned then some place else none)).resync = false ∧
      (confirmed (applyAdded model item (if positioned then some place else none)).queue = splice server place item ↔
        lands model.queue (.added item place positioned) = true) := by
  have hmem : item ∉ server := fun hmem => by
    rw [holds_iff.mpr ⟨item, hmem, rfl⟩] at hnew
    exact Bool.noConfusion hnew
  have hlength : server.length ≤ model.queue.length := by
    rw [← hqueue]
    exact List.length_filter_le _ _
  rw [applyAdded, lands]
  cases hfind : model.queue.findIdx? fun other => decide (other.id = item.id) with
  | some index =>
    obtain ⟨before, other, after, hsplit, rfl, hid, _, _⟩ := split_of_findIdx hfind
    have hother : other.provisional = true := by
      cases hprovisional : other.provisional with
      | true => rfl
      | false =>
        have hserver : other ∈ server := by
          rw [← hqueue, hsplit]
          exact mem_confirmed.mpr ⟨List.mem_append_right _ List.mem_cons_self, hprovisional⟩
        rw [holds_iff.mpr ⟨other, hserver, of_decide_eq_true hid⟩] at hnew
        exact Bool.noConfusion hnew
    have hrest : confirmed (before ++ after) = server := by
      rw [← hqueue, hsplit, confirmed_append, confirmed_append, confirmed_cons_of_provisional hother]
    have hat : model.queue[before.length]? = some other := by
      rw [hsplit, List.getElem?_append_right (Nat.le_refl _), Nat.sub_self]
      rfl
    have hset : model.queue.set before.length item = before ++ item :: after := by
      rw [hsplit, List.set_append_right _ _ (Nat.le_refl _), Nat.sub_self]
      rfl
    have htake : model.queue.take before.length = before := by rw [hsplit, List.take_left]
    simp only [hat, Option.all_some, hother, Bool.not_true, Bool.false_eq_true, if_false, hset, htake, decide_eq_true_eq,
      true_and]
    rw [confirmed_splice hitem, hrest]
    refine splice_inj hmem ?_ hplace
    rw [← hrest, confirmed_append, List.length_append]
    exact Nat.le_add_right _ _
  | none =>
    have hspliced : ∀ k, confirmed (splice model.queue k item) =
        splice server (confirmed (model.queue.take k)).length item := by
      intro k
      rw [splice, confirmed_splice hitem, List.take_append_drop, hqueue]
    have hcount : ∀ k, (confirmed (model.queue.take k)).length ≤ server.length := by
      intro k
      rw [← hqueue]
      exact ((List.take_sublist k model.queue).filter _).length_le
    refine ⟨rfl, ?_⟩
    simp only
    rw [hspliced, splice_inj hmem (hcount _) hplace]
    cases positioned with
    | true =>
      have hmin : min ((if true = true then some place else none).getD model.queue.length) model.queue.length = place :=
        Nat.min_eq_left (Nat.le_trans hplace hlength)
      have htaken : (model.queue.take place).length = place := List.length_take_of_le (Nat.le_trans hplace hlength)
      have hall : (confirmed (model.queue.take place)).length = (model.queue.take place).length ↔
          ∀ other ∈ model.queue.take place, (!other.provisional) = true := List.length_filter_eq_length_iff
      rw [htaken] at hall
      rw [hmin, if_pos rfl, List.all_eq_true]
      exact hall
    | false =>
      have hmin : min ((if false = true then some place else none).getD model.queue.length) model.queue.length =
          model.queue.length := Nat.min_self _
      rw [hmin, List.take_length, if_neg Bool.false_ne_true, decide_eq_true_eq]

theorem exists_split (hqueue : confirmed model.queue = server) (hheld : holds server id = true) :
    ∃ before other after, model.queue = before ++ other :: after ∧ other.id = id ∧ (∀ earlier ∈ before, earlier.id ≠ id) ∧
      (model.queue.find? fun other => other.id = id) = some other ∧
      (model.queue.findIdx? fun other => other.id = id) = some before.length := by
  obtain ⟨item, hitem, hid⟩ := holds_iff.mp hheld
  rw [← hqueue] at hitem
  cases hfind : model.queue.findIdx? fun other => decide (other.id = id) with
  | none =>
    have hnone := List.findIdx?_eq_none_iff.mp hfind item (mem_confirmed.mp hitem).1
    exact absurd hid (of_decide_eq_false hnone)
  | some index =>
    obtain ⟨before, other, after, hsplit, rfl, hother, hbefore, hfound⟩ := split_of_findIdx hfind
    exact ⟨before, other, after, hsplit, of_decide_eq_true hother, fun earlier hearlier => of_decide_eq_false (hbefore earlier hearlier),
      hfound, rfl⟩

theorem ids_ne {before after : List QueueItem} {other : QueueItem} (hnodup : ((before ++ other :: after).map (·.id)).Nodup) :
    ∀ item ∈ before ++ after, item.id ≠ other.id := by
  rw [List.map_append, List.map_cons, List.perm_middle.nodup_iff, List.nodup_cons, ← List.map_append] at hnodup
  intro item hitem heq
  exact hnodup.1 (heq ▸ List.mem_map_of_mem hitem)

theorem applyUpdated_tracks (hqueue : confirmed model.queue = server) (hnodup : (server.map (·.id)).Nodup)
    (hitem : item.provisional = false) (hheld : holds server item.id = true) :
    (applyUpdated model item).resync = false ∧
      (confirmed (applyUpdated model item).queue = server.map (fun other => if other.id = item.id then item else other) ↔
        lands model.queue (.updated item) = true) := by
  obtain ⟨before, other, after, hsplit, hid, _, hfound, hindex⟩ := exists_split hqueue hheld
  have hset : model.queue.set before.length item = before ++ item :: after := by
    rw [hsplit, List.set_append_right _ _ (Nat.le_refl _), Nat.sub_self]
    rfl
  rw [applyUpdated, hindex, lands, hfound]
  simp only [hset, Option.all_some, true_and]
  rw [confirmed_append, confirmed_cons_of_confirmed hitem]
  cases hother : other.provisional with
  | false =>
    have hserver : server = confirmed before ++ other :: confirmed after := by
      rw [← hqueue, hsplit, confirmed_append, confirmed_cons_of_confirmed hother]
    rw [hserver] at hnodup ⊢
    have hne := ids_ne hnodup
    rw [hid] at hne
    have hkept : ∀ others : List QueueItem, (∀ kept ∈ others, kept.id ≠ item.id) →
        others.map (fun kept => if kept.id = item.id then item else kept) = others := by
      intro others hothers
      refine (List.map_congr_left fun kept hkept => ?_).trans (List.map_id others)
      exact if_neg (hothers kept hkept)
    rw [List.map_append, List.map_cons, if_pos hid, hkept _ fun kept hmem => hne kept (List.mem_append_left _ hmem),
      hkept _ fun kept hmem => hne kept (List.mem_append_right _ hmem)]
    exact iff_of_true rfl rfl
  | true =>
    have hserver : server = confirmed before ++ confirmed after := by
      rw [← hqueue, hsplit, confirmed_append, confirmed_cons_of_provisional hother]
    refine iff_of_false (fun heq => ?_) Bool.false_ne_true
    have hlength := congrArg List.length heq
    rw [List.length_map, hserver, List.length_append, List.length_append, List.length_cons] at hlength
    omega

theorem applyRemoved_tracks {turnId : String} (hqueue : confirmed model.queue = server) (hnodup : (server.map (·.id)).Nodup)
    (hheld : holds server turnId = true) :
    (applyRemoved model turnId).resync = false ∧
      (confirmed (applyRemoved model turnId).queue = server.filter (fun item => item.id ≠ turnId) ↔
        lands model.queue (.removed turnId) = true) := by
  obtain ⟨before, other, after, hsplit, hid, _, hfound, hindex⟩ := exists_split hqueue hheld
  have herase : model.queue.eraseIdx before.length = before ++ after := by
    rw [hsplit, List.eraseIdx_append_of_length_le (Nat.le_refl _), Nat.sub_self]
    rfl
  rw [applyRemoved, hindex, lands, hfound]
  simp only [herase, Option.all_some, true_and]
  rw [confirmed_append]
  cases hother : other.provisional with
  | false =>
    have hserver : server = confirmed before ++ other :: confirmed after := by
      rw [← hqueue, hsplit, confirmed_append, confirmed_cons_of_confirmed hother]
    rw [hserver] at hnodup ⊢
    have hne := ids_ne hnodup
    rw [hid] at hne
    have hkept : ∀ others : List QueueItem, (∀ kept ∈ others, kept.id ≠ turnId) →
        others.filter (fun kept => decide (kept.id ≠ turnId)) = others := by
      intro others hothers
      exact List.filter_eq_self.mpr fun kept hkept => decide_eq_true (hothers kept hkept)
    rw [List.filter_append, List.filter_cons_of_neg (by simpa using hid),
      hkept _ fun kept hmem => hne kept (List.mem_append_left _ hmem),
      hkept _ fun kept hmem => hne kept (List.mem_append_right _ hmem)]
    exact iff_of_true rfl rfl
  | true =>
    have hserver : server = confirmed before ++ confirmed after := by
      rw [← hqueue, hsplit, confirmed_append, confirmed_cons_of_provisional hother]
    refine iff_of_false (fun heq => ?_) Bool.false_ne_true
    rw [← hserver] at heq
    obtain ⟨item, hitem, hitemId⟩ := holds_iff.mp hheld
    rw [heq] at hitem
    exact absurd hitemId (of_decide_eq_true (List.mem_filter.mp hitem).2)

end Changes

section Histories

variable {history : History} {change : ServerChange} {queue : List QueueItem}

theorem queueAt_succ {index : Nat} (h : history[index]? = some change) :
    queueAt history (index + 1) = change.apply (queueAt history index) := by
  rw [queueAt, List.take_add_one, h, List.foldl_append]
  rfl

theorem queueAt_append {revision : Nat} (h : revision ≤ history.length) (change : ServerChange) :
    queueAt (history ++ [change]) revision = queueAt history revision := by
  rw [queueAt, List.take_append_of_le_length h]
  rfl

def Possible (history : History) : Prop :=
  ∀ (index : Nat) (change : ServerChange), history[index]? = some change → change.isPossible (queueAt history index) = true

/-- The server's items have distinct ids, and none is provisional. -/
structure Distinct (queue : List QueueItem) : Prop where
  ids : (queue.map (·.id)).Nodup
  confirmed : ∀ item ∈ queue, item.provisional = false

theorem Distinct.apply (h : Distinct queue) (hpossible : change.isPossible queue = true) : Distinct (change.apply queue) := by
  cases change with
  | added item place positioned =>
    rw [ServerChange.isPossible, Bool.and_eq_true, Bool.and_eq_true, Bool.not_eq_true', Bool.not_eq_true'] at hpossible
    have hperm : (splice queue place item).Perm (item :: queue) := by
      rw [splice]
      exact List.perm_middle.trans ((List.take_append_drop place queue).symm ▸ List.Perm.refl _)
    refine ⟨(hperm.map _).nodup_iff.mpr (List.nodup_cons.mpr ⟨fun hmem => ?_, h.ids⟩), fun other hother => ?_⟩
    · obtain ⟨other, hother, hid⟩ := List.mem_map.mp hmem
      have hheld := holds_iff.mpr ⟨other, hother, hid⟩
      rw [hpossible.1.2] at hheld
      cases hheld
    · rcases List.mem_cons.mp (hperm.mem_iff.mp hother) with rfl | hmem
      · exact hpossible.1.1
      · exact h.confirmed other hmem
  | updated item =>
    rw [ServerChange.isPossible, Bool.and_eq_true, Bool.not_eq_true'] at hpossible
    refine ⟨?_, fun other hother => ?_⟩
    · have hids : (ServerChange.apply queue (.updated item)).map (·.id) = queue.map (·.id) := by
        rw [ServerChange.apply, List.map_map]
        refine List.map_congr_left fun other _ => ?_
        dsimp only [Function.comp]
        split
        · next hid => exact hid.symm
        · rfl
      rw [hids]
      exact h.ids
    · obtain ⟨old, hold, rfl⟩ := List.mem_map.mp hother
      split
      · exact hpossible.1
      · exact h.confirmed old hold
  | removed turnId =>
    exact ⟨h.ids.sublist (List.filter_sublist.map _), fun other hother => h.confirmed other (List.mem_of_mem_filter hother)⟩

theorem distinct_queueAt (h : Possible history) (revision : Nat) : Distinct (queueAt history revision) := by
  induction revision with
  | zero =>
    refine ⟨List.nodup_nil, fun item hitem => ?_⟩
    cases hitem
  | succ revision ih =>
    cases hchange : history[revision]? with
    | some change =>
      rw [queueAt_succ hchange]
      exact ih.apply (h revision change hchange)
    | none =>
      have hsame : queueAt history (revision + 1) = queueAt history revision := by
        rw [queueAt, List.take_add_one, hchange]
        exact congrArg (List.foldl _ _) (List.append_nil _)
      rw [hsame]
      exact ih

theorem confirmed_of_distinct (h : Distinct queue) : confirmed queue = queue :=
  List.filter_eq_self.mpr fun item hitem => by rw [h.confirmed item hitem]; rfl

theorem Possible.concat (h : Possible history)
    (hchange : change.isPossible (queueAt history history.length) = true) : Possible (history ++ [change]) := by
  intro index other hother
  rcases Nat.lt_or_ge index history.length with hlt | hge
  · rw [List.getElem?_append_left hlt] at hother
    rw [queueAt_append (Nat.le_of_lt hlt)]
    exact h index other hother
  · rw [List.getElem?_append_right hge] at hother
    have hzero : index - history.length = 0 := by
      have hlt := (List.getElem?_eq_some_iff.mp hother).1
      rw [List.length_singleton] at hlt
      omega
    have hindex : index = history.length := by omega
    rw [hzero] at hother
    cases hother
    rw [hindex, queueAt_append (Nat.le_refl _)]
    exact hchange

end Histories

end Rika.TerminalQueue
