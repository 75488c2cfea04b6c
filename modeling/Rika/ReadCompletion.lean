import Rika.Continuations
import Rika.ReadSubtrees
import Rika.WindowPages

namespace Rika.ThreadRead

open Fold (bind_eq_ok)
open Continuations (Follows Reached)
open LongestPrefix (Passes)
open SessionContext (stringifyText stringifyBool)
open WindowPages (Sorted Window older older_append pageBefore pageBefore_head)

structure Located where
  turn : Turn
  unit : TranscriptUnit
  orderKey : Text

def turnCursor (turn : Turn) : TurnCursor := ⟨turn.createdAt, turn.id⟩

def transcriptCursor (located : Located) : TranscriptCursor := ⟨located.turn.createdAt, located.turn.id, located.orderKey⟩

structure Recorded where
  workspace : Text
  threadId : Text
  title : Text
  archived : Bool
  includeArchived : Bool
  turns : List Turn
  entries : List Located
  units : Text → Option (List TranscriptUnit)
  compareTurns : TurnCursor → TurnCursor → Ordering
  compareEntries : TranscriptCursor → TranscriptCursor → Ordering
  numberText : Finite → Text
  iso : Finite → Text
  trim : Text → Text
  toLocaleLowerCase : Text → Text
  transTurns : Std.TransCmp compareTurns
  transEntries : Std.TransCmp compareEntries
  sortedTurns : Sorted compareTurns turnCursor turns
  sortedEntries : Sorted compareEntries transcriptCursor entries
  stored : ∀ entry ∈ entries, ∃ stored, units entry.turn.id = some stored ∧ entry.unit ∈ stored
  named : threadId ≠ [] ∧ trim threadId = threadId
  admitted : archived = true → includeArchived = true

instance transCmp_turns (record : Recorded) : Std.TransCmp record.compareTurns := record.transTurns

instance transCmp_entries (record : Recorded) : Std.TransCmp record.compareEntries := record.transEntries

def pageOf {α Item Position : Type} (item : α → Item) (cursor : α → Position) (window : Window α) : Page Item Position where
  items := window.items.map item
  hasOlder := window.hasOlder
  oldestCursor := window.items.head?.map cursor

section Reading

variable (record : Recorded)

def turnsBefore (size : Nat) (before : Option TurnCursor) : Window Turn :=
  pageBefore record.compareTurns turnCursor record.turns size before

def entriesBefore (size : Nat) (before : Option TranscriptCursor) : Window Located :=
  pageBefore record.compareEntries transcriptCursor record.entries size before

def pageEntries (before : Option TranscriptCursor) : List (Turn × TranscriptUnit) :=
  (entriesBefore record 200 before).items.map fun located => (located.turn, located.unit)

def Recorded.services : Services where
  workspace := record.workspace
  thread := fun threadId => .ok (if threadId = record.threadId then some ⟨record.workspace, record.title, record.archived⟩ else none)
  turns := fun _ before size => .ok (pageOf id turnCursor (turnsBefore record size before))
  entries := fun _ before size =>
    .ok (pageOf (fun located => (located.turn, located.unit)) transcriptCursor (entriesBefore record size before))
  units := fun turnId => .ok (record.units turnId)
  numberText := record.numberText
  iso := record.iso
  trim := record.trim
  toLocaleLowerCase := record.toLocaleLowerCase

def Recorded.read (selector : Selector) : Except ReadError ReadSuccess :=
  ThreadRead.read record.services ⟨record.threadId, record.includeArchived, selector⟩

def Recorded.base (selector : Selector) : ReadBase := ⟨record.threadId, record.title, selector, none⟩

def answers (selector : Selector) (response : ReadSuccess) : Prop := record.read selector = .ok response

def continuations (response : ReadSuccess) : List Selector := response.omissions.map (·.continuation)

/-- The card of a subagent that reading finds, from a place back. -/
inductive Found (subagentId : Text) : Option TranscriptCursor → Turn → TranscriptUnit → Prop
  | here {before : Option TranscriptCursor} {turn : Turn} {root : TranscriptUnit} :
      rootOf (pageEntries record before) subagentId = some (turn, root) →
      Found subagentId before turn root
  | older {before : Option TranscriptCursor} {first : Located} {turn : Turn} {root : TranscriptUnit} :
      rootOf (pageEntries record before) subagentId = none →
      (entriesBefore record 200 before).hasOlder = true → (entriesBefore record 200 before).items.head? = some first →
      Found subagentId (some (transcriptCursor first)) turn root → Found subagentId before turn root

inductive Wanted
  | turn (turn : Turn)
  | entry (entry : Located)
  | descendant (turn : Turn) (unit : TranscriptUnit)

inductive Asked : Selector → Wanted → Prop
  | turn {limit : Option Finite} {before : Option TurnCursor} {turn : Turn} :
      turn ∈ older record.compareTurns turnCursor record.turns before → Asked (.recent limit before) (.turn turn)
  | entry {query : Text} {limit : Option Finite} {before : Option TranscriptCursor} {entry : Located} :
      entry ∈ older record.compareEntries transcriptCursor record.entries before →
      matchesNeedle record.services (record.toLocaleLowerCase query) entry.unit = true → Asked (.relevant query limit before) (.entry entry)
  | descendant {subagentId : Text} {before : Option TranscriptCursor} {offset : Option Nat} {turn : Turn} {root unit : TranscriptUnit}
      {units : List TranscriptUnit} : Found record subagentId before turn root → record.units turn.id = some units →
      unit ∈ (unitsBelow units subagentId).drop (offset.getD 0) → heading unit ≠ none →
      Asked (.subtree subagentId before offset) (.descendant turn unit)

inductive Has (response : ReadSuccess) : Wanted → Prop
  | turn {turn : Turn} {shown : ReadItem} : shown ∈ response.items →
      item record.services turn ((record.units turn.id).getD []) = .ok shown → Has response (.turn turn)
  | entry {entry : Located} {shown : ReadItem} : shown ∈ response.items → Shows shown entry.turn entry.unit →
      Has response (.entry entry)
  | descendant {turn : Turn} {unit : TranscriptUnit} {shown : ReadItem} : shown ∈ response.items → Shows shown turn unit →
      Has response (.descendant turn unit)

/-- A read can be completed by following what its responses offer. -/
structure Completes (selector : Selector) : Prop where
  ends : ∃ responses, Follows (answers record) continuations [selector] responses
  covers : ∀ responses, Follows (answers record) continuations [selector] responses →
    ∀ wanted, Asked record selector wanted → ∃ response ∈ responses, Has record response wanted
  whole : ∀ reached response, Reached (answers record) continuations selector reached → answers record reached response →
    response.omissions = [] → ∀ wanted, Asked record reached wanted → Has record response wanted

def Admitted : Selector → Prop
  | .overview => True
  | .recent limit _ => ∃ size, bounded "limit" limit 10 20 = .ok size
  | .relevant _ limit _ => ∃ size, bounded "limit" limit 10 20 = .ok size
  | .subtree _ _ _ => True

def Draft.Whole (services : Services) (draft : Draft) : Prop :=
  draft.candidates ≠ [] → fits services transcriptBudget (respond draft.base draft.candidates draft.omissions) = true

def Sound : Selector → Prop
  | .overview => True
  | .recent limit before =>
    (∀ size, bounded "limit" limit 10 20 = .ok size → ∀ turn ∈ (turnsBefore record size before).items,
      ∃ rank, Layered rank ((record.units turn.id).getD [])) ∧
    ∀ draft, draftRecent record.services record.threadId (record.base (.recent limit before)) limit before = .ok draft →
      draft.Whole record.services
  | .relevant query limit before =>
    (∀ size, bounded "limit" limit 10 20 = .ok size → ((entriesBefore record 200 before).items.filter fun located =>
      matchesNeedle record.services (record.toLocaleLowerCase query) located.unit).length ≤ size) ∧
    (∀ located ∈ (entriesBefore record 200 before).items,
      matchesNeedle record.services (record.toLocaleLowerCase query) located.unit = true → located.unit.parentId = none) ∧
    ∀ draft, draftRelevant record.services record.threadId (record.base (.relevant query limit before)) query limit before = .ok draft →
      draft.Whole record.services
  | .subtree subagentId before _ =>
    (rootOf (pageEntries record before) subagentId = none →
      (entriesBefore record 200 before).hasOlder = true) ∧
    ∀ turn root units, rootOf (pageEntries record before) subagentId = some (turn, root) → record.units turn.id = some units →
      ParentsFirst (root :: unitsBelow units subagentId)

end Reading

section Pages

variable {record : Recorded}

theorem read_eq (selector : Selector) : record.read selector = respondTo record.services record.threadId (record.base selector) := by
  have htrim : ¬ (record.services.trim record.threadId = [] ∨ record.services.trim record.threadId ≠ record.threadId) := by
    intro h
    rcases h with h | h
    · exact record.named.1 (record.named.2.symm.trans h)
    · exact h record.named.2
  have hthread : record.services.thread record.threadId = .ok (some ⟨record.workspace, record.title, record.archived⟩) := by
    simp only [Recorded.services, if_true]
  have harchived : (record.archived && !record.includeArchived) = false := by
    cases harchived : record.archived with
    | false => rfl
    | true => rw [record.admitted harchived]; rfl
  rw [Recorded.read, ThreadRead.read, if_neg htrim, hthread]
  simp only [bind, Except.bind, harchived, Bool.false_eq_true, if_false]
  exact if_neg (fun h => h rfl)

theorem length_object_le (fields rest : List (Option (String × Text))) (name : String) {value value' : Text}
    (h : value.length ≤ value'.length) :
    (object (fields ++ some (name, value) :: rest)).length ≤ (object (fields ++ some (name, value') :: rest)).length := by
  simp only [object, List.length_append, length_intercalate, List.filterMap_append, List.map_append, List.sum_append,
    List.filterMap_cons, id_eq, List.map_cons, List.sum_cons, List.length_cons]
  omega

theorem length_array_le {part whole : List Text} (h : part <+: whole) : (array part).length ≤ (array whole).length := by
  obtain ⟨rest, rfl⟩ := h
  simp only [array, List.length_append, length_intercalate, List.map_append, List.sum_append]
  have hcount : (part.length - 1) * (utf16 ",").length ≤ (part.length + rest.length - 1) * (utf16 ",").length :=
    Nat.mul_le_mul_right _ (by omega)
  omega

variable {services : Services} {maximum size : Nat} {draft : Draft} {limit : Option Finite} {before : Option TurnCursor}
    {query : Text} {turn : Turn} {units : List TranscriptUnit} {entries : List (Turn × TranscriptUnit)} {unit : TranscriptUnit}

theorem fits_part {base : ReadBase} {omissions : List Omission} {part whole : List ReadItem}
    (hpart : part <+: whole) (h : fits services maximum (respond base whole omissions) = true) :
    fits services maximum (respond base part omissions) = true := by
  rw [fits, decide_eq_true_eq] at h ⊢
  refine le_trans (length_object_le
    [some ("schemaVersion", utf16 "1"), some ("threadId", stringifyText base.threadId), some ("title", stringifyText base.title),
      some ("selector", encodeSelector services base.selector),
      base.nextCursor.map fun cursor => ("nextCursor", encodeCursor services cursor)]
    [some ("omissions", array (omissions.map (encodeOmission services))), some ("truncated", stringifyBool (0 < omissions.length))]
    "items" (length_array_le (hpart.map encodeItem))) h

theorem Draft.response_eq (h : draft.Whole services) :
    draft.response services = respond draft.base draft.candidates draft.omissions := by
  obtain ⟨kept, hlongest, hcases⟩ := draft.exists_response services
  have hall : kept = draft.candidates := by
    refine hlongest.unique (Passes.longest fun part hpart hne => fits_part hpart (h ?_))
    intro hempty
    rw [hempty, List.prefix_nil] at hpart
    exact hne hpart
  obtain ⟨-, hresponse⟩ := hcases.resolve_left fun hleft => hleft.1 hall
  rw [hresponse, hall]

theorem read_recent
    (h : draftRecent record.services record.threadId (record.base (.recent limit before)) limit before = .ok draft)
    (hwhole : draft.Whole record.services) :
    answers record (.recent limit before) (respond draft.base draft.candidates draft.omissions) := by
  rw [answers, read_eq, respondTo, ← Draft.response_eq hwhole]
  simp only [Recorded.base] at h ⊢
  rw [h]
  rfl

theorem read_relevant {before : Option TranscriptCursor}
    (h : draftRelevant record.services record.threadId (record.base (.relevant query limit before)) query limit before = .ok draft)
    (hwhole : draft.Whole record.services) :
    answers record (.relevant query limit before) (respond draft.base draft.candidates draft.omissions) := by
  rw [answers, read_eq, respondTo, ← Draft.response_eq hwhole]
  simp only [Recorded.base] at h ⊢
  rw [h]
  rfl

theorem bounded_pos {name : String} {value : Option Finite} {fallback : Nat}
    (h : bounded name value fallback maximum = .ok size) : 0 < size := by
  rw [bounded] at h
  split at h
  · rename_i hadmitted
    cases h
    have hnum : 0 < (value.getD (fallback : Finite)).num := Rat.num_pos.mpr (lt_of_lt_of_le one_pos hadmitted.2.1)
    omega
  · cases h

theorem olderOmissions_cases {α κ : Type} {compare : κ → κ → Ordering} {key : α → κ} {xs : List α} {before : Option κ}
    (hsize : 0 < size) (continuation : κ → Selector) :
    ((pageBefore compare key xs size before).hasOlder = false ∧
      olderOmissions (pageBefore compare key xs size before).hasOlder
        (((pageBefore compare key xs size before).items.head?.map key).map continuation) = []) ∨
    ∃ first, (pageBefore compare key xs size before).items.head? = some first ∧
      olderOmissions (pageBefore compare key xs size before).hasOlder
        (((pageBefore compare key xs size before).items.head?.map key).map continuation) = [⟨.olderTurns, continuation (key first)⟩] := by
  cases holder : (pageBefore compare key xs size before).hasOlder with
  | false =>
    refine .inl ⟨rfl, ?_⟩
    cases (pageBefore compare key xs size before).items.head? <;> rfl
  | true =>
    obtain ⟨first, hfirst⟩ := pageBefore_head hsize holder
    exact .inr ⟨first, hfirst, by rw [hfirst]; rfl⟩

theorem exists_item {rank : TranscriptUnit → Nat} (h : Layered rank units) : ∃ shown, item services turn units = .ok shown := by
  have hmessages : ∀ unit ∈ units.filter fun unit => unit.parentId = none, ∃ rendered, message unit units 12000 = .ok rendered :=
    fun unit hunit => exists_message h (fun _ hother => hother) (List.mem_of_mem_filter hunit)
  obtain ⟨messages, hmapM⟩ := exists_mapM hmessages
  exact ⟨_, by rw [item, hmapM]; rfl⟩

theorem recent_step (hsize : bounded "limit" limit 10 20 = .ok size)
    (h : Sound record (.recent limit before)) : ∃ response, answers record (.recent limit before) response ∧
      response.omissions = olderOmissions (turnsBefore record size before).hasOlder
        (((turnsBefore record size before).items.head?.map turnCursor).map fun oldest => .recent limit (some oldest)) ∧
      ∀ turn ∈ (turnsBefore record size before).items, Has record response (.turn turn) := by
  obtain ⟨hlayered, hwhole⟩ := h
  have hitems : ∀ turn ∈ (turnsBefore record size before).items,
      ∃ shown, (do let units ← record.services.units turn.id; item record.services turn (units.getD [])) = .ok shown := by
    intro turn hturn
    obtain ⟨rank, hrank⟩ := hlayered size hsize turn hturn
    exact exists_item hrank
  obtain ⟨candidates, hcandidates⟩ := exists_mapM hitems
  let draft : Draft :=
    ⟨withCursor (record.base (.recent limit before)) (((turnsBefore record size before).items.head?.map turnCursor).map .turn), candidates,
      olderOmissions (turnsBefore record size before).hasOlder
        (((turnsBefore record size before).items.head?.map turnCursor).map fun oldest => .recent limit (some oldest))⟩
  have hdraft : draftRecent record.services record.threadId (record.base (.recent limit before)) limit before = .ok draft := by
    rw [draftRecent, hsize]
    simp only [bind, Except.bind, Recorded.services, pageOf, List.map_id] at hcandidates ⊢
    rw [hcandidates]
    rfl
  refine ⟨_, read_recent hdraft (hwhole draft hdraft), rfl, fun turn hturn => ?_⟩
  obtain ⟨shown, hshown, hitem⟩ := mem_mapM hcandidates hturn
  exact .turn hshown hitem

theorem get_grouped (entries : List (Turn × TranscriptUnit)) (id : Text) :
    (entries.foldl (fun groups entry => groups.set entry.1.id
      ((groups.get entry.1.id).elim (entry.1, [entry.2]) fun group => (group.1, group.2 ++ [entry.2])))
      (InsertionMap.empty : InsertionMap Text (Turn × List TranscriptUnit))).get id =
    (entries.filter fun entry => entry.1.id = id).head?.map fun entry =>
      (entry.1, (entries.filter fun entry => entry.1.id = id).map Prod.snd) := by
  induction entries using List.reverseRecOn with
  | nil => rfl
  | append_singleton entries entry ih =>
    rw [List.foldl_append, List.foldl_cons, List.foldl_nil, InsertionMap.get_set]
    by_cases hid : entry.1.id = id
    · subst hid
      rw [ih, if_pos rfl, List.filter_append]
      cases hgroup : entries.filter fun other => other.1.id = entry.1.id with
      | nil => simp
      | cons first rest => simp
    · rw [if_neg (Ne.symm hid), ih, List.filter_append]
      simp [hid]

theorem mem_grouped {group : Turn × List TranscriptUnit} (h : group ∈ grouped entries) :
    ∀ unit ∈ group.2, ∃ entry ∈ entries, entry.2 = unit := by
  obtain ⟨id, hget⟩ := InsertionMap.mem_values.mp h
  rw [get_grouped, Option.map_eq_some_iff] at hget
  obtain ⟨first, -, rfl⟩ := hget
  intro unit hunit
  obtain ⟨entry, hentry, rfl⟩ := List.mem_map.mp hunit
  exact ⟨entry, List.mem_of_mem_filter hentry, rfl⟩

theorem exists_grouped {entry : Turn × TranscriptUnit} (h : entry ∈ entries) :
    ∃ group ∈ grouped entries, group.1.id = entry.1.id ∧ entry.2 ∈ group.2 := by
  have hmem : entry ∈ entries.filter fun other => other.1.id = entry.1.id := List.mem_filter.mpr ⟨h, decide_eq_true rfl⟩
  obtain ⟨first, hfirst⟩ : ∃ first, (entries.filter fun other => other.1.id = entry.1.id).head? = some first := by
    cases hgroup : entries.filter fun other => other.1.id = entry.1.id with
    | nil =>
      rw [hgroup] at hmem
      cases hmem
    | cons first rest => exact ⟨first, rfl⟩
  have hid : first.1.id = entry.1.id := of_decide_eq_true (List.mem_filter.mp (List.mem_of_head? hfirst)).2
  refine ⟨(first.1, (entries.filter fun other => other.1.id = entry.1.id).map Prod.snd),
    InsertionMap.mem_values.mpr ⟨entry.1.id, ?_⟩, hid, List.mem_map_of_mem hmem⟩
  rw [get_grouped, hfirst]
  rfl

theorem matchesNeedle_entry {needle : Text} (h : matchesNeedle services needle unit = true) :
    ∃ role text, unit.content = .entry role text := by
  rw [matchesNeedle] at h
  cases hcontent : unit.content with
  | entry role text => exact ⟨role, text, rfl⟩
  | subagentCard id summary prompt => simp [hcontent] at h
  | other => simp [hcontent] at h

theorem layered_entries (h : ∀ unit ∈ units, ∃ role text, unit.content = .entry role text) : Layered (fun _ => 0) units := by
  intro parent hparent child hchild hholds
  obtain ⟨role, text, hcontent⟩ := h parent hparent
  obtain ⟨link, hlink, -⟩ := hholds
  simp [childLink, hcontent] at hlink

theorem item_shows {shown : ReadItem}
    (h : item services turn units = .ok shown) (hunit : unit ∈ units) (hroot : unit.parentId = none)
    {other : Turn} (hid : turn.id = other.id) : Shows shown other unit := by
  rw [item] at h
  obtain ⟨messages, hmessages, hshown⟩ := bind_eq_ok.mp h
  cases hshown
  refine ⟨hid, fun role text subagentId hheading => ⟨12000, by decide, ?_⟩⟩
  obtain ⟨rendered, hrendered, hmessage⟩ := mem_mapM hmessages (List.mem_filter.mpr ⟨hunit, decide_eq_true hroot⟩)
  obtain ⟨shown, rfl, hcontains⟩ := messageWithin_contains hheading .refl hmessage
  exact ⟨shown, List.mem_filterMap.mpr ⟨some shown, hrendered, rfl⟩, hcontains⟩

theorem relevant_step {before : Option TranscriptCursor}
    (hsize : bounded "limit" limit 10 20 = .ok size) (h : Sound record (.relevant query limit before)) :
    ∃ response, answers record (.relevant query limit before) response ∧
      response.omissions = olderOmissions (entriesBefore record 200 before).hasOlder
        (((entriesBefore record 200 before).items.head?.map transcriptCursor).map fun oldest => .relevant query limit (some oldest)) ∧
      ∀ located ∈ (entriesBefore record 200 before).items,
        matchesNeedle record.services (record.toLocaleLowerCase query) located.unit = true → Has record response (.entry located) := by
  obtain ⟨hcount, hroots, hwhole⟩ := h
  let found := (pageEntries record before).filter fun entry => matchesNeedle record.services (record.toLocaleLowerCase query) entry.2
  have hmatches : ∀ entry ∈ found, ∃ role text, entry.2.content = .entry role text :=
    fun entry hentry => matchesNeedle_entry (List.mem_filter.mp hentry).2
  have hlength : found.length ≤ size := by
    have hfound := hcount size hsize
    simp only [found, pageEntries, List.filter_map, List.length_map]
    exact hfound
  have hdrop : found.drop (found.length - size) = found := by
    rw [Nat.sub_eq_zero_of_le hlength, List.drop_zero]
  have hitems : ∀ group ∈ grouped found, ∃ shown, item record.services group.1 group.2 = .ok shown := by
    intro group hgroup
    refine exists_item (layered_entries fun unit hunit => ?_)
    obtain ⟨entry, hentry, rfl⟩ := mem_grouped hgroup unit hunit
    exact hmatches entry hentry
  obtain ⟨candidates, hcandidates⟩ := exists_mapM hitems
  let draft : Draft :=
    ⟨withCursor (record.base (.relevant query limit before))
        (((entriesBefore record 200 before).items.head?.map transcriptCursor).map .transcript), candidates,
      olderOmissions (entriesBefore record 200 before).hasOlder
        (((entriesBefore record 200 before).items.head?.map transcriptCursor).map fun oldest => .relevant query limit (some oldest))⟩
  have hdraft : draftRelevant record.services record.threadId (record.base (.relevant query limit before)) query limit before =
      .ok draft := by
    have hgroups : (grouped (found.drop (found.length - size))).mapM (fun group => item record.services group.1 group.2) =
        .ok candidates := by rw [hdrop, hcandidates]
    rw [draftRelevant, hsize]
    simp only [bind, Except.bind, Recorded.services, pageOf, found, pageEntries] at hgroups ⊢
    rw [hgroups]
    rfl
  refine ⟨_, read_relevant hdraft (hwhole draft hdraft), rfl, fun located hlocated hmatch => ?_⟩
  have hentry : (located.turn, located.unit) ∈ found := List.mem_filter.mpr ⟨List.mem_map_of_mem hlocated, hmatch⟩
  obtain ⟨group, hgroup, hid, hunit⟩ := exists_grouped hentry
  obtain ⟨shown, hshown, hitem⟩ := mem_mapM hcandidates hgroup
  exact .entry hshown (item_shows hitem hunit (hroots located hlocated hmatch) hid)

end Pages

section Steps

variable (record : Recorded)

def descendantsAt (subagentId : Text) (before : Option TranscriptCursor) : List TranscriptUnit :=
  match rootOf (pageEntries record before) subagentId with
  | none => []
  | some (turn, root) => descendantsOf subagentId ((record.units turn.id).getD [root])

def remaining : Selector → Nat × Nat
  | .overview => (0, 0)
  | .recent _ before => ((older record.compareTurns turnCursor record.turns before).length, 0)
  | .relevant _ _ before => ((older record.compareEntries transcriptCursor record.entries before).length, 0)
  | .subtree subagentId before offset => ((older record.compareEntries transcriptCursor record.entries before).length,
      (descendantsAt record subagentId before).length - offset.getD 0)

/-- A response offers smaller selectors, which ask for what it does not contain. -/
structure Step (selector : Selector) (response : ReadSuccess) : Prop where
  answers : answers record selector response
  admitted : ∀ next ∈ continuations response, Admitted next
  smaller : ∀ next ∈ continuations response, Prod.Lex (· < ·) (· < ·) (remaining record next) (remaining record selector)
  covers : ∀ wanted, Asked record selector wanted →
    Has record response wanted ∨ ∃ next ∈ continuations response, Asked record next wanted

variable {record}

variable {α κ : Type} {compare : κ → κ → Ordering} {key : α → κ} {xs : List α} {size : Nat} {response : ReadSuccess}
    {selector : Selector} {limit : Option Finite} {before : Option TranscriptCursor} {subagentId : Text} {turn : Turn}
    {root : TranscriptUnit} {offset : Option Nat}

theorem older_length [Std.TransCmp compare] {before : Option κ} (h : Sorted compare key xs) {first : α}
    (hfirst : (pageBefore compare key xs size before).items.head? = some first) :
    (older compare key xs (some (key first))).length < (older compare key xs before).length := by
  rw [older_append h hfirst, List.length_append]
  have hpos : 0 < (pageBefore compare key xs size before).items.length :=
    List.length_pos_of_mem (List.mem_of_head? hfirst)
  omega

theorem step_overview (h : answers record .overview response) : Step record .overview response := by
  have hresponse : response.omissions = [] := by
    rw [answers, read_eq] at h
    cases h
    rfl
  have hnone : continuations response = [] := by rw [continuations, hresponse]; rfl
  refine ⟨h, ?_, ?_, fun wanted hasked => by cases hasked⟩
  · rw [hnone]
    exact List.forall_mem_nil _
  · rw [hnone]
    exact List.forall_mem_nil _

/-- A read of a page offers what is before it, and contains what it asks for on it. -/
theorem step_of_page [Std.TransCmp compare]
    (asks : α → Wanted → Prop) (hsorted : Sorted compare key xs) (hsize : 0 < size) {before : Option κ}
    {continuation : κ → Selector} (hanswer : answers record selector response)
    (homissions : response.omissions = olderOmissions (pageBefore compare key xs size before).hasOlder
      (((pageBefore compare key xs size before).items.head?.map key).map continuation))
    (hadmitted : ∀ cursor, Admitted (continuation cursor))
    (hremaining : remaining record selector = ((older compare key xs before).length, 0))
    (hnext : ∀ cursor, remaining record (continuation cursor) = ((older compare key xs (some cursor)).length, 0))
    (hasked : ∀ wanted, Asked record selector wanted → ∃ x ∈ older compare key xs before, asks x wanted)
    (hasks : ∀ cursor wanted, (∃ x ∈ older compare key xs (some cursor), asks x wanted) → Asked record (continuation cursor) wanted)
    (hhas : ∀ x ∈ (pageBefore compare key xs size before).items, ∀ wanted, asks x wanted → Has record response wanted) :
    Step record selector response := by
  rcases olderOmissions_cases hsize continuation with ⟨hlast, hnone⟩ | ⟨first, hfirst, hone⟩
  · have hcontinuations : continuations response = [] := by rw [continuations, homissions, hnone]; rfl
    refine ⟨hanswer, ?_, ?_, fun wanted hwanted => ?_⟩
    · rw [hcontinuations]
      exact List.forall_mem_nil _
    · rw [hcontinuations]
      exact List.forall_mem_nil _
    · obtain ⟨x, hx, hask⟩ := hasked wanted hwanted
      rw [← WindowPages.pageBefore_all hlast] at hx
      exact .inl (hhas x hx wanted hask)
  · have hcontinuations : continuations response = [continuation (key first)] := by rw [continuations, homissions, hone]; rfl
    refine ⟨hanswer, ?_, ?_, fun wanted hwanted => ?_⟩
    · rw [hcontinuations, List.forall_mem_singleton]
      exact hadmitted (key first)
    · rw [hcontinuations, List.forall_mem_singleton, hremaining, hnext]
      exact .left _ _ (older_length hsorted hfirst)
    · obtain ⟨x, hx, hask⟩ := hasked wanted hwanted
      rw [older_append hsorted hfirst, List.mem_append] at hx
      rcases hx with hx | hx
      · refine .inr ⟨continuation (key first), ?_, hasks (key first) wanted ⟨x, hx, hask⟩⟩
        rw [hcontinuations]
        exact List.mem_singleton.mpr rfl
      · exact .inl (hhas x hx wanted hask)

theorem exists_step_recent {before : Option TurnCursor} (hadmitted : Admitted (.recent limit before))
    (h : Sound record (.recent limit before)) : ∃ response, Step record (.recent limit before) response := by
  obtain ⟨size, hsize⟩ := hadmitted
  obtain ⟨response, hanswer, homissions, hitems⟩ := recent_step hsize h
  refine ⟨response, step_of_page (fun turn wanted => wanted = .turn turn) record.sortedTurns (bounded_pos hsize) hanswer homissions
    (fun _ => ⟨size, hsize⟩) rfl (fun _ => rfl) ?_ ?_ ?_⟩
  · intro wanted hwanted
    cases hwanted with
    | turn hturn => exact ⟨_, hturn, rfl⟩
  · intro cursor wanted hwanted
    obtain ⟨turn, hturn, rfl⟩ := hwanted
    exact .turn hturn
  · intro turn hturn wanted hwanted
    exact hwanted ▸ hitems turn hturn

theorem exists_step_relevant {query : Text}
    (hadmitted : Admitted (.relevant query limit before)) (h : Sound record (.relevant query limit before)) :
    ∃ response, Step record (.relevant query limit before) response := by
  obtain ⟨size, hsize⟩ := hadmitted
  obtain ⟨response, hanswer, homissions, hitems⟩ := relevant_step hsize h
  refine ⟨response, step_of_page (fun located wanted => wanted = .entry located ∧
    matchesNeedle record.services (record.toLocaleLowerCase query) located.unit = true) record.sortedEntries (by decide) hanswer homissions
    (fun _ => ⟨size, hsize⟩) rfl (fun _ => rfl) ?_ ?_ ?_⟩
  · intro wanted hwanted
    cases hwanted with
    | entry hentry hmatch => exact ⟨_, hentry, rfl, hmatch⟩
  · intro cursor wanted hwanted
    obtain ⟨located, hlocated, rfl, hmatch⟩ := hwanted
    exact .entry hlocated hmatch
  · intro located hlocated wanted hwanted
    obtain ⟨rfl, hmatch⟩ := hwanted
    exact hitems located hlocated hmatch

theorem rootOf_eq_some {entries : List (Turn × TranscriptUnit)} (h : rootOf entries subagentId = some (turn, root)) :
    (turn, root) ∈ entries ∧ ∃ link, childLink root = some link ∧ link.parentId = subagentId := by
  refine ⟨List.mem_of_find?_eq_some h, ?_⟩
  have hlink := List.find?_some h
  cases hcontent : root.content with
  | entry role text => simp [childLink, hcontent] at hlink
  | subagentCard id summary prompt =>
    simp only [childLink, hcontent, Option.any_some, decide_eq_true_eq] at hlink
    exact ⟨_, by rw [childLink, hcontent], hlink⟩
  | other => simp [childLink, hcontent] at hlink

theorem stored_root
    (h : rootOf (pageEntries record before) subagentId = some (turn, root)) : ∃ units, record.units turn.id = some units := by
  obtain ⟨located, hlocated, hpair⟩ := List.mem_map.mp (rootOf_eq_some h).1
  have hentries : located ∈ record.entries := by
    obtain ⟨later, hlater⟩ : ∃ later, record.entries = older record.compareEntries transcriptCursor record.entries before ++ later :=
      WindowPages.older_initial record.sortedEntries
    rw [entriesBefore, WindowPages.pageBefore_items] at hlocated
    rw [hlater]
    exact List.mem_append_left _ (List.mem_of_mem_drop hlocated)
  obtain ⟨units, hunits, -⟩ := record.stored located hentries
  cases hpair
  exact ⟨units, hunits⟩

theorem step_absent
    (h : rootOf (pageEntries record before) subagentId = none) (holder : (entriesBefore record 200 before).hasOlder = true) :
    ∃ response, Step record (.subtree subagentId before offset) response := by
  obtain ⟨first, hfirst⟩ : ∃ first, (entriesBefore record 200 before).items.head? = some first :=
    pageBefore_head (by decide) holder
  let next : Selector := .subtree subagentId (some (transcriptCursor first)) offset
  let response : ReadSuccess := encodeBounded record.services (record.base (.subtree subagentId before offset)) [] [⟨.olderTurns, next⟩]
  have hcontinuations : continuations response = [next] := rfl
  refine ⟨response, ?_, ?_, ?_, fun wanted hwanted => ?_⟩
  · rw [pageEntries] at h
    rw [answers, read_eq, respondTo]
    simp only [Recorded.base, readSubtree, bind, Except.bind, Recorded.services, pageOf, h, holder, hfirst]
    rfl
  · rw [hcontinuations, List.forall_mem_singleton]
    trivial
  · rw [hcontinuations, List.forall_mem_singleton]
    exact .left _ _ (older_length record.sortedEntries hfirst)
  · rw [hcontinuations]
    refine .inr ⟨next, List.mem_singleton.mpr rfl, ?_⟩
    cases hwanted with
    | descendant hfound hunits hunit hheading =>
      cases hfound with
      | here hother => cases hother.symm.trans h
      | older _ _ hother hfound =>
        cases hother.symm.trans hfirst
        exact .descendant hfound hunits hunit hheading

/-- A page with the card shows the descendants from the offset on, and offers the rest. -/
theorem step_present {units : List TranscriptUnit} (h : rootOf (pageEntries record before) subagentId = some (turn, root))
    (hunits : record.units turn.id = some units) (hfirst : ParentsFirst (root :: unitsBelow units subagentId)) :
    ∃ response, Step record (.subtree subagentId before offset) response := by
  have hbelow : ParentsFirst (unitsBelow units subagentId) :=
    ⟨hfirst.forward.tail, fun unit hunit => hfirst.irreflexive unit (List.mem_cons_of_mem root hunit)⟩
  have hdescendants := descendantsOf_eq hbelow
  obtain ⟨rank, hsubtree⟩ := hfirst.subtree (rootOf_eq_some h).2
  rw [← hdescendants] at hsubtree
  let start := min (offset.getD 0) (descendantsOf subagentId units).length
  obtain ⟨response, nextOffset, hresponse, hanswers⟩ : ∃ response nextOffset,
      selectSubtree record.services (record.base (.subtree subagentId before offset)) subagentId before turn root subagentId
        (descendantsOf subagentId units) start = .ok response ∧
      Answers turn (descendantsOf subagentId units) subagentId before start response nextOffset := exists_selectSubtree hsubtree _ _ _
  have hread : answers record (.subtree subagentId before offset) response := by
    rw [pageEntries] at h
    rw [answers, read_eq, respondTo]
    simp only [Recorded.base, readSubtree, bind, Except.bind, Recorded.services, pageOf, h, hunits, Option.getD_some] at hresponse ⊢
    exact hresponse
  have hmore : ∀ next ∈ continuations response,
      nextOffset < (descendantsOf subagentId units).length ∧ next = .subtree subagentId before (some nextOffset) := by
    intro next hnext
    rw [continuations, hanswers.omissions, offsetOmissions] at hnext
    split at hnext
    · rename_i hlt
      exact ⟨hlt, List.mem_singleton.mp hnext⟩
    · cases hnext
  refine ⟨response, hread, fun next hnext => ?_, fun next hnext => ?_, fun wanted hwanted => ?_⟩
  · obtain ⟨-, rfl⟩ := hmore next hnext
    trivial
  · obtain ⟨hlt, rfl⟩ := hmore next hnext
    have hat : descendantsAt record subagentId before = descendantsOf subagentId units := by
      simp only [descendantsAt, h, hunits, Option.getD_some]
    rw [remaining, remaining, hat]
    refine .right _ ?_
    rcases Nat.lt_or_ge (offset.getD 0) (descendantsOf subagentId units).length with hoffset | hoffset
    · have hstart : start = offset.getD 0 := min_eq_left hoffset.le
      have hforward := hanswers.forward (hstart ▸ hoffset)
      simp only [Option.getD_some]
      omega
    · have hstart : start = (descendantsOf subagentId units).length := min_eq_right hoffset
      have hle := hanswers.le
      omega
  · cases hwanted with
    | @descendant _ _ _ turn' root' unit units' hfound hunits' hunit hheading =>
      cases hfound with
      | here hother =>
        cases hother.symm.trans h
        cases hunits'.symm.trans hunits
        rw [← hdescendants] at hunit
        obtain ⟨index, hindex⟩ := List.mem_iff_getElem?.mp hunit
        rw [List.getElem?_drop] at hindex
        rcases Nat.lt_or_ge (offset.getD 0 + index) nextOffset with hlt | hge
        · have hle : start ≤ offset.getD 0 + index := (min_le_left _ _).trans (Nat.le_add_right _ _)
          obtain ⟨shown, hshown, hshows⟩ := hanswers.shows _ _ hle hlt hindex
          exact .inl (.descendant hshown hshows)
        · have hlength : offset.getD 0 + index < (descendantsOf subagentId units).length :=
            (List.getElem?_eq_some_iff.mp hindex).1
          refine .inr ⟨.subtree subagentId before (some nextOffset), ?_, ?_⟩
          · rw [continuations, hanswers.omissions, offsetOmissions, if_pos (by omega)]
            exact List.mem_singleton.mpr rfl
          · refine .descendant (.here h) hunits ?_ hheading
            rw [← hdescendants, List.mem_iff_getElem?]
            refine ⟨offset.getD 0 + index - nextOffset, ?_⟩
            rw [List.getElem?_drop, Option.getD_some, Nat.add_sub_of_le hge, hindex]
      | older hother => cases hother.symm.trans h

theorem exists_step (hadmitted : Admitted selector) (h : Sound record selector) :
    ∃ response, Step record selector response := by
  cases selector with
  | overview => exact ⟨_, step_overview (read_eq .overview)⟩
  | recent limit before => exact exists_step_recent hadmitted h
  | relevant query limit before => exact exists_step_relevant hadmitted h
  | subtree subagentId before offset =>
    obtain ⟨holder, hfirst⟩ := h
    cases hroot : rootOf (pageEntries record before) subagentId with
    | none => exact step_absent hroot (holder hroot)
    | some found =>
      obtain ⟨turn, root⟩ := found
      obtain ⟨units, hunits⟩ := stored_root hroot
      exact step_present hroot hunits (hfirst turn root units hroot hunits)

/-- A read each of whose steps leaves out nothing unoffered can be completed. -/
theorem completes {selector : Selector} (hadmitted : Admitted selector)
    (h : ∀ reached, Reached (answers record) continuations selector reached → Sound record reached) : Completes record selector := by
  let good (reached : Selector) : Prop := Admitted reached ∧ Reached (answers record) continuations selector reached
  have hgood : good selector := ⟨hadmitted, .refl⟩
  have hstep (reached : Selector) (hreached : good reached) (response : ReadSuccess) (hanswer : answers record reached response) :
      Step record reached response := by
    obtain ⟨other, hother⟩ := exists_step hreached.1 (h reached hreached.2)
    cases hother.answers.symm.trans hanswer
    exact hother
  have hnext (reached : Selector) (response : ReadSuccess) (hreached : good reached) (hanswer : answers record reached response) :
      ∀ next ∈ continuations response, good next :=
    fun next hmem => ⟨(hstep reached hreached response hanswer).admitted next hmem, hreached.2.tail ⟨response, hanswer, hmem⟩⟩
  refine ⟨?_, fun responses hfollows wanted hwanted => ?_, fun reached response hreached hanswer hnone wanted hwanted => ?_⟩
  · refine Continuations.exists_follows (WellFounded.prod_lex Nat.lt_wfRel.wf Nat.lt_wfRel.wf) (remaining record) (fun reached hreached => ?_) hgood
    obtain ⟨response, hresponse⟩ := exists_step hreached.1 (h reached hreached.2)
    exact ⟨response, hresponse.answers, fun next hmem =>
      ⟨hnext reached response hreached hresponse.answers next hmem, hresponse.smaller next hmem⟩⟩
  · exact hfollows.covers hnext (fun reached response other hreached hanswer hother =>
      (hstep reached hreached response hanswer).covers other hother) (List.forall_mem_singleton.mpr hgood) (List.mem_singleton.mpr rfl) hwanted
  · have hstepReached := hstep reached (hreached.keeps hnext hgood) response hanswer
    have hcontinuations : continuations response = [] := by rw [continuations, hnone]; rfl
    refine (hstepReached.covers wanted hwanted).resolve_right fun hoffered => ?_
    obtain ⟨next, hmem, -⟩ := hoffered
    rw [hcontinuations] at hmem
    cases hmem

end Steps

section Samples

def orderTurns : TurnCursor → TurnCursor → Ordering := compareLex (compareOn (·.createdAt)) (compareOn (·.id))

def orderEntries : TranscriptCursor → TranscriptCursor → Ordering :=
  compareLex (compareOn (·.createdAt)) (compareLex (compareOn (·.turnId)) (compareOn (·.orderKey)))

instance transCmp_orderTurns : Std.TransCmp orderTurns := inferInstanceAs (Std.TransCmp (compareLex _ _))

instance transCmp_orderEntries : Std.TransCmp orderEntries := inferInstanceAs (Std.TransCmp (compareLex _ (compareLex _ _)))

def sampleTurn : Turn := ⟨[97], true, 0, [100]⟩

def earlierTurn : Turn := ⟨[96], true, 0, [100]⟩

def sampleEntry (orderKey : UInt16) (text : Text) : Located := ⟨sampleTurn, ⟨none, .entry .user text⟩, [orderKey]⟩

def sampleRecord : Recorded where
  workspace := [119]
  threadId := [120]
  title := [116]
  archived := false
  includeArchived := false
  turns := [earlierTurn, sampleTurn]
  entries := [sampleEntry 48 [120, 97], sampleEntry 49 [120, 98]]
  units := fun turnId => some (if turnId = sampleTurn.id then [⟨none, .entry .user [120, 97]⟩, ⟨none, .entry .user [120, 98]⟩] else [])
  compareTurns := orderTurns
  compareEntries := orderEntries
  numberText := fun number => if number = 1 then [49] else [48]
  iso := fun _ => utf16 "1970-01-01T00:00:00.000Z"
  trim := id
  toLocaleLowerCase := id
  transTurns := transCmp_orderTurns
  transEntries := transCmp_orderEntries
  sortedTurns := by
    have hlt : orderTurns (turnCursor earlierTurn) (turnCursor sampleTurn) = .lt := by decide
    simp [Sorted, KeysetPages.Ascending, hlt]
  sortedEntries := by
    have hlt : orderEntries (transcriptCursor (sampleEntry 48 [120, 97])) (transcriptCursor (sampleEntry 49 [120, 98])) = .lt := by
      decide
    simp [Sorted, KeysetPages.Ascending, hlt]
  stored := by
    intro entry hentry
    refine ⟨_, rfl, ?_⟩
    simp only [List.mem_cons, List.not_mem_nil, or_false] at hentry
    rcases hentry with rfl | rfl
    · exact List.mem_cons_self
    · exact List.mem_cons_of_mem _ List.mem_cons_self
  named := ⟨by decide, rfl⟩
  admitted := fun h => h

def sampleItem (turnId : Text) (messages : List Message) : ReadItem :=
  ⟨turnId, utf16 "human", utf16 "1970-01-01T00:00:00.000Z", [100], messages⟩

def earlier : Selector := .recent (some 1) (some (turnCursor sampleTurn))

def newestDraft : Draft where
  base := withCursor (sampleRecord.base (.recent (some 1) none)) (some (.turn (turnCursor sampleTurn)))
  candidates := [sampleItem [97] [.mk .user [120, 97] none [], .mk .user [120, 98] none []]]
  omissions := [⟨.olderTurns, earlier⟩]

theorem draftRecent_newest : draftRecent sampleRecord.services sampleRecord.threadId (sampleRecord.base (.recent (some 1) none))
    (some 1) none = .ok newestDraft := rfl

def earlierDraft : Draft where
  base := withCursor (sampleRecord.base earlier) (some (.turn (turnCursor earlierTurn)))
  candidates := [sampleItem [96] []]
  omissions := []

theorem draftRecent_earlier : draftRecent sampleRecord.services sampleRecord.threadId (sampleRecord.base earlier) (some 1)
    (some (turnCursor sampleTurn)) = .ok earlierDraft := rfl

def relevantDraft : Draft where
  base := withCursor (sampleRecord.base (.relevant [120] (some 1) none)) (some (.transcript (transcriptCursor (sampleEntry 48 [120, 97]))))
  candidates := [sampleItem [97] [.mk .user [120, 98] none []]]
  omissions := []

theorem draftRelevant_sample : draftRelevant sampleRecord.services sampleRecord.threadId
    (sampleRecord.base (.relevant [120] (some 1) none)) [120] (some 1) none = .ok relevantDraft := rfl

theorem newestDraft_whole : newestDraft.Whole sampleRecord.services := by
  have hfits : fits sampleRecord.services transcriptBudget (respond newestDraft.base newestDraft.candidates newestDraft.omissions) = true := by
    decide +kernel
  exact fun _ => hfits

theorem earlierDraft_whole : earlierDraft.Whole sampleRecord.services := by
  have hfits : fits sampleRecord.services transcriptBudget (respond earlierDraft.base earlierDraft.candidates []) = true := by
    decide +kernel
  exact fun _ => hfits

theorem relevantDraft_whole : relevantDraft.Whole sampleRecord.services := by
  have hfits : fits sampleRecord.services transcriptBudget (respond relevantDraft.base relevantDraft.candidates []) = true := by
    decide +kernel
  exact fun _ => hfits

theorem reached_sample {reached : Selector} (h : Reached (answers sampleRecord) continuations (.recent (some 1) none) reached) :
    reached = .recent (some 1) none ∨ reached = earlier := by
  rcases h.cases_head with rfl | ⟨next, ⟨response, hanswer, hnext⟩, h⟩
  · exact .inl rfl
  cases (read_recent draftRecent_newest newestDraft_whole).symm.trans hanswer
  obtain rfl := List.mem_singleton.mp hnext
  rcases h.cases_head with rfl | ⟨next, ⟨response, hanswer, hnext⟩, -⟩
  · exact .inr rfl
  · cases (read_recent draftRecent_earlier earlierDraft_whole).symm.trans hanswer
    cases hnext

/-- Two reads of one turn each. -/
theorem completes_sample : Completes sampleRecord (.recent (some 1) none) := by
  have hlayered (turn : Turn) : ∃ rank, Layered rank ((sampleRecord.units turn.id).getD []) := by
    refine ⟨fun _ => 0, layered_entries fun unit hunit => ?_⟩
    simp only [sampleRecord, Option.getD_some] at hunit
    split at hunit
    · simp only [List.mem_cons, List.not_mem_nil, or_false] at hunit
      rcases hunit with rfl | rfl
      · exact ⟨_, _, rfl⟩
      · exact ⟨_, _, rfl⟩
    · cases hunit
  refine completes ⟨1, rfl⟩ fun reached hreached => ?_
  rcases reached_sample hreached with rfl | rfl
  · refine ⟨fun _ _ turn _ => hlayered turn, fun draft hdraft => ?_⟩
    cases hdraft.symm.trans draftRecent_newest
    exact newestDraft_whole
  · refine ⟨fun _ _ turn _ => hlayered turn, fun draft hdraft => ?_⟩
    cases hdraft.symm.trans draftRecent_earlier
    exact earlierDraft_whole

/-- The older of two matches on a page is left out of a read of one, which offers nothing. -/
theorem sample_not_completes : ¬ Completes sampleRecord (.relevant [120] (some 1) none) := by
  intro hcompletes
  have hread := read_relevant draftRelevant_sample relevantDraft_whole
  have hasked : Asked sampleRecord (.relevant [120] (some 1) none) (.entry (sampleEntry 48 [120, 97])) :=
    .entry List.mem_cons_self (by decide)
  have hhas := hcompletes.whole _ _ .refl hread rfl _ hasked
  cases hhas with
  | entry hshown hshows =>
    obtain rfl := List.mem_singleton.mp hshown
    obtain ⟨limit, hlimit, message, hmessage, hcontains⟩ := hshows.2 .user [120, 97] none rfl
    obtain rfl := List.mem_singleton.mp hmessage
    have htext : safeText [120, 97] limit = [120, 97] := by
      have hpoints : codePoints [120, 97] = [[120], [97]] := by decide
      rw [safeText, hpoints, List.take_of_length_le (by simp only [List.length_cons, List.length_nil]; omega)]
      rfl
    rw [htext] at hcontains
    cases hcontains with
    | child hmem _ => cases hmem

end Samples

end Rika.ThreadRead
