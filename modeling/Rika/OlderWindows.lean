import Rika.TranscriptBounds

namespace Rika.OlderWindows

open ChainSelection (Complete Forest)
open StableSort (toSorted)
open ThreadView (PageCursor)
open TranscriptBounds (Format Limits boundTranscriptEntries kept link_under selected suffixStart transcriptCursorFor userKey)
open TranscriptPages
open TranscriptPages.Memory (Located cursorFor)
open WindowPages (Sorted Window pageBefore pageBefore_head)

abbrev compareCursor : PageCursor → PageCursor → Ordering := Memory.compareCursor

def compareEntries (left right : Entry) : Ordering := compareCursor (entryCursor left) (entryCursor right)

def precedes (entry : Entry) (before : PageCursor) : Bool := compareCursor (entryCursor entry) before = .lt

structure Loader where
  page : String → PageOptions → Except String Page
  projectionVersion : Nat
  size : PageSize
  bytes : Nat
  format : Format

variable (loader : Loader)

def Loader.limits : Limits := ⟨loader.size.size, loader.bytes⟩

def withStructure (page : Page) (oldest : Entry) (structural : Page) : Page :=
  if structural.entries.any fun entry => entry.projectionRevision ≠ oldest.projectionRevision ||
      entry.projectionGeneration ≠ oldest.projectionGeneration then
    page
  else
    let windowed := (page.entries.filter fun entry => entry.turn.id = oldest.turn.id).map fun entry => entry.unit.key
    let added := structural.entries.filter fun entry => entry.unit.key ∉ windowed
    if added = [] then page else { page with entries := toSorted compareEntries (added ++ page.entries) }

def completeLeadingTurn (page : Page) : Except String Page :=
  match page.entries with
  | [] => .ok page
  | oldest :: _ =>
    if page.hasOlder = false ∨ (page.entries.any fun entry => entry.unit.key = userKey oldest.turn.id) then .ok page
    else
      (loader.page oldest.turn.threadId
        { structuralTurnId := some oldest.turn.id, limit := some loader.size.size, projectionVersion := some loader.projectionVersion }).map
          (withStructure page oldest)

def completedPage (threadId : String) (before : Option PageCursor) : Except String Page := do
  let page ← loader.page threadId
    { limit := some loader.size.size, projectionVersion := some loader.projectionVersion, before := before }
  let completed ← completeLeadingTurn loader page
  match before with
  | none => return completed
  | some before => return { completed with entries := completed.entries.filter (precedes · before) }

def boundedPage (page : Page) : Except String Page :=
  let bounded := boundTranscriptEntries loader.format loader.limits page.entries
  if bounded.oversizedEntry then .error "Transcript entry exceeds the transcript event limit"
  else if bounded.truncated = false then .ok page
  else
    .ok { page with
      entries := bounded.entries
      hasOlder := true
      oldestCursor := bounded.partialCursor <|> page.oldestCursor
      newestCursor := transcriptCursorFor bounded.entries.getLast? }

def loadTranscriptWindow (threadId : String) (before : Option PageCursor) : Except String Page := do
  boundedPage loader (← completedPage loader threadId before)

/-- Loads from a cursor back, each before the oldest cursor of the one that was done, until there is nothing older. -/
inductive Loads (load : Option PageCursor → Except String Page) :
    Option PageCursor → List (Option PageCursor × Except String Page) → Prop
  | failed {before : Option PageCursor} {message : String} : load before = .error message →
      Loads load before [(before, .error message)]
  | last {before : Option PageCursor} {page : Page} : load before = .ok page → page.hasOlder = false →
      Loads load before [(before, .ok page)]
  | next {before : Option PageCursor} {page : Page} {oldest : PageCursor} {steps : List (Option PageCursor × Except String Page)} :
      load before = .ok page → page.hasOlder = true → page.oldestCursor = some oldest → Loads load (some oldest) steps →
      Loads load before ((before, .ok page) :: steps)

def Reads (stored : Stored) (page : String → PageOptions → Except String Page) : Prop :=
  ∀ threadId options limit, validatePageOptions options = .ok limit → options.after = none →
    (options.structuralTurnId.isSome → options.before = none) →
      (page threadId options).map Page.listed = (Memory.page stored threadId options).map Page.listed

theorem Reads.memory (stored : Stored) : Reads stored (Memory.page stored) := fun _ _ _ _ _ _ => rfl

theorem Reads.sql {Json : Type} {codec : UnitCodec Json} {order : TextOrder}
    (stores : Stores codec) (hcast : stores.Castable)
    (h : ∀ left right, ValidTurnId left → order.compare left right = compareText left right) :
    Reads stores.memory fun threadId options => Sql.page order codec stores.tables threadId options := by
  intro threadId options limit hvalid hafter hbefore
  cases hstructural : options.structuralTurnId with
  | none =>
    exact (page_eq_of_order stores (fun left right hleft _ => h left right hleft) (fun _ _ left hleft => h left _ hleft) hvalid
      hstructural).symm
  | some turnId =>
    exact (page_eq_of_structural stores hcast hvalid hstructural (hbefore (by rw [hstructural]; rfl)) hafter).symm

theorem not_lt_self (cursor : PageCursor) : compareCursor cursor cursor ≠ .lt := KeysetPages.not_lt_self cursor

def structuralOptions (turnId : String) : PageOptions :=
  { structuralTurnId := some turnId, limit := some loader.size.size, projectionVersion := some loader.projectionVersion }

theorem Reads.exists_usage {stored : Stored} {threadId : String} {page : String → PageOptions → Except String Page}
    (hreads : Reads stored page) {options : PageOptions} {limit : Nat} {view : Window Located} (hvalid : validatePageOptions options = .ok limit)
    (hafter : options.after = none) (hbefore : options.structuralTurnId.isSome → options.before = none)
    (h : Memory.page stored threadId options = .ok (.of (stored.usage threadId) view)) :
    ∃ usage, page threadId options = .ok (.of usage view) := by
  have hlisted := hreads threadId options limit hvalid hafter hbefore
  rw [h] at hlisted
  cases hpage : page threadId options with
  | error message =>
    rw [hpage] at hlisted
    cases hlisted
  | ok result =>
    rw [hpage] at hlisted
    have hfields := Except.ok.inj hlisted
    simp only [Page.listed, Page.of, Prod.mk.injEq] at hfields
    obtain ⟨hentries, holder, hnewer, holdest, hnewest⟩ := hfields
    refine ⟨result.usage, ?_⟩
    rw [Page.of, ← hentries, ← holder, ← hnewer, ← holdest, ← hnewest]

/-- A loader that loads windows of a thread from what is stored. -/
structure Scan where
  loader : Loader
  stored : Stored
  threadId : String
  reads : Reads stored loader.page

namespace Scan

def load (scan : Scan) : Option PageCursor → Except String Page := loadTranscriptWindow scan.loader scan.threadId

section Candidates

variable (scan : Scan)

def shownUnits : List Located :=
  shownInOrder compareText compareText scan.stored scan.threadId (some scan.loader.projectionVersion)

section

variable (before : Option PageCursor)

def pageUnits : Window Located :=
  pageBefore compareCursor cursorFor scan.shownUnits scan.loader.size.size before

def structuralUnits (turnId : String) : List Located :=
  (listing compareText compareText scan.stored scan.threadId (structuralOptions scan.loader turnId)).take scan.loader.size.size

def windowedKeys (units : List Located) (turnId : String) : List String :=
  (units.filter fun located => located.stored.turn.id = turnId).map fun located => located.unit.key

def leadingUnits : List Located :=
  let page := scan.pageUnits before
  match page.items with
  | [] => []
  | oldest :: _ =>
    let turnId := oldest.stored.turn.id
    if page.hasOlder = false ∨ page.items.any fun located => located.unit.key = userKey turnId then []
    else
      (scan.structuralUnits turnId).filter fun located =>
        located.unit.key ∉ windowedKeys page.items turnId && compareCursor (cursorFor located) (cursorFor oldest) = .lt

def candidates : List Located :=
  scan.leadingUnits before ++ (scan.pageUnits before).items

end

end Candidates

section Completion

variable {scan : Scan} {before : Option PageCursor}

abbrev olderUnits (scan : Scan) (before : Option PageCursor) : List Located :=
  WindowPages.older compareCursor cursorFor scan.shownUnits before

variable (scan) in
theorem sorted_shownUnits : Sorted compareCursor cursorFor scan.shownUnits :=
  sorted_listing

variable {located oldest : Located} {keys : List String} {rest : List Located}

theorem mem_shownUnits : located ∈ scan.shownUnits ↔ located ∈ units scan.stored ∧
      shown scan.threadId { projectionVersion := some scan.loader.projectionVersion } located = true :=
  mem_listing

theorem exists_left (scan : Scan) (before : Option PageCursor) : ∃ left later,
    scan.olderUnits before = left ++ (scan.pageUnits before).items ∧
      scan.shownUnits = left ++ ((scan.pageUnits before).items ++ later) ∧
      ((scan.pageUnits before).hasOlder = false → left = []) ∧
      ((scan.pageUnits before).hasOlder = true →
        (scan.pageUnits before).items.length = scan.loader.size.size) := by
  obtain ⟨later, hlater⟩ : ∃ later, scan.shownUnits = scan.olderUnits before ++ later :=
    WindowPages.older_initial (sorted_shownUnits scan)
  let older := scan.olderUnits before
  have hitems : (scan.pageUnits before).items = older.drop (older.length - scan.loader.size.size) := WindowPages.pageBefore_items
  have hmore : (scan.pageUnits before).hasOlder = decide (scan.loader.size.size < older.length) := WindowPages.pageBefore_hasOlder
  have holder : older = older.take (older.length - scan.loader.size.size) ++ (scan.pageUnits before).items := by
    rw [hitems, List.take_append_drop]
  refine ⟨older.take (older.length - scan.loader.size.size), later, holder, ?_, ?_, ?_⟩
  · rw [← List.append_assoc, ← holder]
    exact hlater
  · intro hnone
    rw [hmore, decide_eq_false_iff_not] at hnone
    have hzero : older.length - scan.loader.size.size = 0 := by omega
    rw [hzero, List.take_zero]
  · intro hsome
    rw [hmore, decide_eq_true_iff] at hsome
    rw [hitems, List.length_drop]
    omega

theorem mem_structuralUnits {turnId : String} (h : located ∈ scan.structuralUnits turnId) :
    located ∈ scan.shownUnits ∧ located.stored.turn.id = turnId := by
  obtain ⟨hunits, hshown⟩ := mem_listing.mp (List.mem_of_mem_take h)
  rw [shown, Bool.and_eq_true] at hshown
  obtain ⟨hvisible, hstructural⟩ := hshown
  rw [Memory.isStructural, structuralOptions, Option.all_some, Bool.and_eq_true, decide_eq_true_iff] at hstructural
  refine ⟨mem_shownUnits.mpr ⟨hunits, ?_⟩, hstructural.1⟩
  rw [shown, Bool.and_eq_true]
  exact ⟨hvisible, rfl⟩

theorem threadId_of_mem (h : located ∈ scan.shownUnits) : located.stored.turn.threadId = scan.threadId := by
  have hshown := (mem_shownUnits.mp h).2
  simp only [shown, Bool.and_eq_true, decide_eq_true_iff] at hshown
  exact hshown.1.1.1

theorem stored_eq {left right : Located} (hleft : left ∈ scan.shownUnits)
    (hright : right ∈ scan.shownUnits) (h : left.stored.turn.id = right.stored.turn.id) : left.stored = right.stored :=
  scan.stored.turns.eq_of_key_eq (mem_units.mp (mem_shownUnits.mp hleft).1).1 (mem_units.mp (mem_shownUnits.mp hright).1).1 h

theorem validate_limit (before : Option PageCursor) (turnId : Option String) : validatePageOptions
    { structuralTurnId := turnId, limit := some scan.loader.size.size, projectionVersion := some scan.loader.projectionVersion, before := before } =
      .ok scan.loader.size.size := by
  have h : validatePageOptions { listOptions scan.loader.size (some scan.loader.projectionVersion) with before := before, after := none } =
      .ok scan.loader.size.size := validatePageOptions_listOptions scan.loader.size (some scan.loader.projectionVersion) (.inr rfl)
  rw [validatePageOptions] at h ⊢
  exact h

variable (scan before) in
theorem page_eq : ∃ usage,
    scan.loader.page scan.threadId { limit := some scan.loader.size.size, projectionVersion := some scan.loader.projectionVersion, before := before } =
      .ok (.of usage (scan.pageUnits before)) := by
  refine scan.reads.exists_usage (validate_limit before none) rfl (fun h => by cases h)
    ((Memory.page_eq (validate_limit before none) rfl).trans ?_)
  cases before with
  | none => rfl
  | some cursor => rfl

variable (scan) in
theorem structural_eq (turnId : String) : ∃ usage hasNewer,
    scan.loader.page scan.threadId (structuralOptions scan.loader turnId) =
      .ok (.of usage ⟨scan.structuralUnits turnId, false, hasNewer⟩) := by
  obtain ⟨usage, heq⟩ := scan.reads.exists_usage (validate_limit none (some turnId)) rfl (fun _ => rfl)
    (Memory.page_structural (validate_limit none (some turnId)) rfl)
  exact ⟨usage, _, heq⟩

theorem mem_pageUnits (h : located ∈ (scan.pageUnits before).items) : located ∈ scan.olderUnits before := by
  obtain ⟨left, later, holder, -⟩ := exists_left scan before
  rw [holder]
  exact List.mem_append_right _ h

theorem mem_shownUnits_of_older (h : located ∈ scan.olderUnits before) : located ∈ scan.shownUnits := by
  cases before with
  | none => exact h
  | some cursor => exact (List.mem_filter.mp h).1

theorem toSorted_added (hfirst : (scan.pageUnits before).items.head? = some oldest)
    (hkeys : keys = windowedKeys (scan.pageUnits before).items oldest.stored.turn.id) :
    ∃ later, (∀ located ∈ later, located ∈ scan.shownUnits ∧ located ∉ scan.olderUnits before) ∧
      toSorted (fun left right => compareCursor (cursorFor left) (cursorFor right))
          ((scan.structuralUnits oldest.stored.turn.id).filter (fun located => located.unit.key ∉ keys) ++
            (scan.pageUnits before).items) =
        (scan.structuralUnits oldest.stored.turn.id).filter (fun located =>
            located.unit.key ∉ keys && compareCursor (cursorFor located) (cursorFor oldest) = .lt) ++
          ((scan.pageUnits before).items ++ later) := by
  obtain ⟨left, later, holder, hshown, -, -⟩ := exists_left scan before
  obtain ⟨added, hadded⟩ : ∃ added, added =
      (scan.structuralUnits oldest.stored.turn.id).filter fun located => located.unit.key ∉ keys := ⟨_, rfl⟩
  have hsorted := sorted_shownUnits scan
  rw [hshown] at hsorted
  have hascending : KeysetPages.Ascending (fun left right : Located => compareCursor (cursorFor left) (cursorFor right)) added := by
    rw [hadded]
    exact (List.Pairwise.take sorted_listing).filter _
  have hmem : ∀ located ∈ added, located ∈ left ++ ((scan.pageUnits before).items ++ later) := by
    intro located hlocated
    rw [hadded] at hlocated
    rw [← hshown]
    exact (mem_structuralUnits (List.mem_of_mem_filter hlocated)).1
  have hnew : ∀ located ∈ added, located ∉ (scan.pageUnits before).items := by
    intro located hlocated hpage
    rw [hadded] at hlocated
    obtain ⟨hstructural, hkey⟩ := List.mem_filter.mp hlocated
    refine of_decide_eq_true hkey ?_
    rw [hkeys, windowedKeys]
    refine List.mem_map_of_mem (List.mem_filter.mpr ⟨hpage, decide_eq_true ?_⟩)
    exact (mem_structuralUnits hstructural).2
  refine ⟨added.filter fun located => !decide (compareCursor (cursorFor located) (cursorFor oldest) = .lt), ?_, ?_⟩
  · intro located hlocated
    obtain ⟨hlocated, hge⟩ := List.mem_filter.mp hlocated
    refine ⟨hshown ▸ hmem located hlocated, ?_⟩
    rw [holder, List.mem_append]
    rintro (hleft | hpage)
    · rcases KeysetPages.mem_left_or_later hsorted hfirst (hmem located hlocated) (hnew located hlocated) with hside | hside
      · simp [hside.2] at hge
      · have hacross := (List.pairwise_append.mp hsorted).2.2 located hleft located (List.mem_append_right _ hside.1)
        exact not_lt_self (cursorFor located) hacross
    · exact hnew located hlocated hpage
  · rw [← hadded, KeysetPages.toSorted_around hsorted hfirst hascending hmem hnew, hadded, List.filter_filter]
    simp only [Bool.and_comm]

/-- Pages with other entries, and the same place in the listing. -/
structure Page.Alike (page : Page) (view : Window Located) (entries : List Located) : Prop where
  entries : page.entries = entries.map Memory.entry
  hasOlder : page.hasOlder = view.hasOlder
  oldestCursor : page.oldestCursor = view.items.head?.map cursorFor

theorem withStructure_alike {usage usage' : Selection.UsageSummary} {view : Window Located}
    {structural later : List Located} {hasNewer : Bool} (hitems : view.items = oldest :: rest)
    (hkeys : keys = windowedKeys (oldest :: rest) oldest.stored.turn.id)
    (hsame : ∀ located ∈ structural, located.stored = oldest.stored)
    (hsorted : toSorted (fun left right => compareCursor (cursorFor left) (cursorFor right))
        (structural.filter (fun located => located.unit.key ∉ keys) ++ (oldest :: rest)) =
      structural.filter (fun located => located.unit.key ∉ keys && compareCursor (cursorFor located) (cursorFor oldest) = .lt) ++
        ((oldest :: rest) ++ later)) :
    Page.Alike (withStructure (Page.of usage view) (Memory.entry oldest) (Page.of usage' ⟨structural, false, hasNewer⟩)) view
      (structural.filter (fun located => located.unit.key ∉ keys && compareCursor (cursorFor located) (cursorFor oldest) = .lt) ++
        ((oldest :: rest) ++ later)) := by
  have hrevisions : ((Page.of usage' ⟨structural, false, hasNewer⟩).entries.any fun entry =>
      decide (entry.projectionRevision ≠ (Memory.entry oldest).projectionRevision) ||
        decide (entry.projectionGeneration ≠ (Memory.entry oldest).projectionGeneration)) = false := by
    rw [List.any_eq_false]
    intro entry hentry
    obtain ⟨located, hlocated, rfl⟩ := List.mem_map.mp hentry
    rw [Memory.entry, Memory.entry, hsame located hlocated]
    simp
  have hentries : (Page.of usage view).entries = (oldest :: rest).map Memory.entry := by
    rw [Page.of, hitems]
  have hwindowed : ((Page.of usage view).entries.filter fun entry => entry.turn.id = (Memory.entry oldest).turn.id).map
      (fun entry => entry.unit.key) = keys := by
    rw [hkeys, windowedKeys, hentries, List.filter_map, List.map_map]
    rfl
  have hadded : ((Page.of usage' ⟨structural, false, hasNewer⟩).entries.filter fun entry => entry.unit.key ∉ keys) =
      (structural.filter fun located => located.unit.key ∉ keys).map Memory.entry := by
    rw [Page.of, List.filter_map]
    rfl
  have hsort : toSorted compareEntries ((structural.filter fun located => located.unit.key ∉ keys).map Memory.entry ++
      (oldest :: rest).map Memory.entry) = (structural.filter (fun located => located.unit.key ∉ keys &&
        compareCursor (cursorFor located) (cursorFor oldest) = .lt) ++ ((oldest :: rest) ++ later)).map Memory.entry := by
    rw [← List.map_append, ← hsorted]
    exact StableSort.toSorted_map compareEntries Memory.entry _ fun _ _ => rfl
  rw [withStructure, hrevisions, if_neg Bool.false_ne_true]
  dsimp only
  rw [hwindowed, hadded, hentries, hsort]
  by_cases hnone : structural.filter (fun located => located.unit.key ∉ keys) = []
  · have hlength := congrArg List.length hsorted
    rw [hnone, List.nil_append, (StableSort.toSorted_perm _ _).length_eq, List.length_append, List.length_append] at hlength
    have holder : structural.filter (fun located => located.unit.key ∉ keys &&
        compareCursor (cursorFor located) (cursorFor oldest) = .lt) = [] := List.eq_nil_of_length_eq_zero (by omega)
    have hlater : later = [] := List.eq_nil_of_length_eq_zero (by omega)
    rw [hnone, List.map_nil, if_pos rfl, holder, hlater, List.nil_append, List.append_nil]
    exact ⟨hentries, rfl, rfl⟩
  · rw [if_neg fun h => hnone (List.map_eq_nil_iff.mp h)]
    exact ⟨rfl, rfl, rfl⟩

theorem leadingUnits_eq (h : (scan.pageUnits before).items = oldest :: rest) :
    scan.leadingUnits before =
      if (scan.pageUnits before).hasOlder = false ∨
          ((oldest :: rest).any fun located => located.unit.key = userKey oldest.stored.turn.id) then []
      else (scan.structuralUnits oldest.stored.turn.id).filter fun located =>
        located.unit.key ∉ windowedKeys (oldest :: rest) oldest.stored.turn.id &&
          compareCursor (cursorFor located) (cursorFor oldest) = .lt := by
  rw [leadingUnits]
  simp only [h]

theorem completeLeadingTurn_cons (loader : Loader) {page : Page}
    (h : page.entries = (oldest :: rest).map Memory.entry) : completeLeadingTurn loader page =
      if page.hasOlder = false ∨ ((oldest :: rest).any fun located => located.unit.key = userKey oldest.stored.turn.id) then
        .ok page
      else
        (loader.page oldest.stored.turn.threadId (structuralOptions loader oldest.stored.turn.id)).map
          (withStructure page (Memory.entry oldest)) := by
  have hprompt : (page.entries.any fun entry => decide (entry.unit.key = userKey (Memory.entry oldest).turn.id)) =
      (oldest :: rest).any fun located => decide (located.unit.key = userKey oldest.stored.turn.id) := by
    rw [h, List.any_map]
    rfl
  rw [← hprompt, completeLeadingTurn, h, List.map_cons]
  rfl

variable (scan before) in
theorem completeLeadingTurn_alike (usage : Selection.UsageSummary) : ∃ later page,
    (∀ located ∈ later, located ∈ scan.shownUnits ∧ located ∉ scan.olderUnits before) ∧
      completeLeadingTurn scan.loader (.of usage (scan.pageUnits before)) = .ok page ∧
      Page.Alike page (scan.pageUnits before) (scan.candidates before ++ later) := by
  have hempty : ∀ located ∈ ([] : List Located), located ∈ scan.shownUnits ∧
      located ∉ scan.olderUnits before := fun _ hempty => absurd hempty List.not_mem_nil
  cases hitems : (scan.pageUnits before).items with
  | nil =>
    refine ⟨[], .of usage (scan.pageUnits before), hempty, ?_, ?_⟩
    · rw [completeLeadingTurn, Page.of, hitems]
      rfl
    · rw [candidates, leadingUnits, hitems, List.append_nil]
      exact ⟨by rw [Page.of, hitems]; rfl, rfl, rfl⟩
  | cons oldest rest =>
    have hentries : (Page.of usage (scan.pageUnits before)).entries =
        (oldest :: rest).map Memory.entry := by
      rw [Page.of, hitems]
    have holdest : oldest ∈ scan.shownUnits :=
      mem_shownUnits_of_older (mem_pageUnits (hitems ▸ List.mem_cons_self))
    rw [candidates, leadingUnits_eq hitems, completeLeadingTurn_cons scan.loader hentries, hitems]
    by_cases hkept : (scan.pageUnits before).hasOlder = false ∨
        ((oldest :: rest).any fun located => located.unit.key = userKey oldest.stored.turn.id) = true
    · refine ⟨[], .of usage (scan.pageUnits before), hempty, if_pos hkept, ?_⟩
      rw [if_pos hkept, List.nil_append, List.append_nil]
      exact ⟨hentries, rfl, rfl⟩
    · have hfirst : (scan.pageUnits before).items.head? = some oldest := by
        rw [hitems]
        rfl
      obtain ⟨later, hlater, hsorted⟩ := toSorted_added hfirst rfl
      obtain ⟨usage', hasNewer, hstructural⟩ := structural_eq scan oldest.stored.turn.id
      rw [if_neg hkept, threadId_of_mem holdest, hstructural]
      refine ⟨later, _, hlater, if_neg hkept, ?_⟩
      rw [List.append_assoc]
      rw [hitems] at hsorted
      refine withStructure_alike hitems rfl ?_ hsorted
      intro located hlocated
      obtain ⟨hmem, hid⟩ := mem_structuralUnits hlocated
      exact stored_eq hmem holdest hid

theorem mem_leadingUnits (h : located ∈ scan.leadingUnits before) :
    ∃ oldest rest, (scan.pageUnits before).items = oldest :: rest ∧
      (scan.pageUnits before).hasOlder = true ∧ located ∈ scan.shownUnits ∧
      compareCursor (cursorFor located) (cursorFor oldest) = .lt := by
  cases hitems : (scan.pageUnits before).items with
  | nil =>
    rw [leadingUnits, hitems] at h
    cases h
  | cons oldest rest =>
    rw [leadingUnits_eq hitems] at h
    split at h
    · cases h
    · next hkept =>
        rw [not_or, Bool.not_eq_false] at hkept
        obtain ⟨hstructural, hlt⟩ := List.mem_filter.mp h
        rw [Bool.and_eq_true, decide_eq_true_iff, decide_eq_true_iff] at hlt
        exact ⟨oldest, rest, rfl, hkept.1, (mem_structuralUnits hstructural).1, hlt.2⟩

theorem mem_candidates (h : located ∈ scan.candidates before) : located ∈ scan.olderUnits before := by
  rcases List.mem_append.mp h with h | h
  · obtain ⟨oldest, rest, hitems, -, hmem, hlt⟩ := mem_leadingUnits h
    have holdest : oldest ∈ scan.olderUnits before := mem_pageUnits (hitems ▸ List.mem_cons_self)
    cases before with
    | none => exact hmem
    | some cursor =>
      have hbefore := of_decide_eq_true (List.mem_filter.mp holdest).2
      exact List.mem_filter.mpr ⟨hmem, decide_eq_true (Std.TransCmp.lt_trans hlt hbefore)⟩
  · exact mem_pageUnits h

variable (scan before) in
theorem completedPage_alike : ∃ page, completedPage scan.loader scan.threadId before = .ok page ∧
    Page.Alike page (scan.pageUnits before) (scan.candidates before) := by
  obtain ⟨usage, hread⟩ := page_eq scan before
  obtain ⟨later, page, hlater, hcomplete, halike⟩ := completeLeadingTurn_alike scan before usage
  have hpage : completedPage scan.loader scan.threadId before = match before with
      | none => .ok page
      | some cursor => .ok { page with entries := page.entries.filter (precedes · cursor) } := by
    rw [completedPage, hread]
    change (completeLeadingTurn scan.loader _ >>= _) = _
    rw [hcomplete]
    cases before with
    | none => rfl
    | some cursor => rfl
  rw [hpage]
  cases before with
  | none =>
    have hnone : later = [] := List.eq_nil_iff_forall_not_mem.mpr fun located hlocated => (hlater located hlocated).2 (hlater located hlocated).1
    rw [hnone, List.append_nil] at halike
    exact ⟨page, rfl, halike⟩
  | some cursor =>
    refine ⟨_, rfl, ?_, halike.hasOlder, halike.oldestCursor⟩
    dsimp only
    rw [halike.entries, List.filter_map, List.filter_append]
    have hkept : (scan.candidates (some cursor)).filter ((precedes · cursor) ∘ Memory.entry) =
        scan.candidates (some cursor) := by
      rw [List.filter_eq_self]
      intro located hlocated
      exact (List.mem_filter.mp (mem_candidates hlocated)).2
    have hdropped : later.filter ((precedes · cursor) ∘ Memory.entry) = [] := by
      rw [List.filter_eq_nil_iff]
      intro located hlocated hprecedes
      obtain ⟨hshown, holder⟩ := hlater located hlocated
      exact holder (List.mem_filter.mpr ⟨hshown, hprecedes⟩)
    rw [hkept, hdropped, List.append_nil]

end Completion

section Selections

open ChainSelection.Forest (Holds Fits)

variable (scan : Scan)

def candidateEntries (before : Option PageCursor) : List Entry := (scan.candidates before).map Memory.entry

def window (before : Option PageCursor) : Forest Nat :=
  TranscriptBounds.forest scan.loader.format scan.loader.limits (scan.candidateEntries before)

inductive Rooted (format : Format) : Located → Prop
  | root {located : Located} : located.unit.parentId = none → Rooted format located
  | under {located : Located} {parentId : String} {parent : TranscriptUnit.Unit} : located.unit.parentId = some parentId →
      parent ∈ located.stored.projection.units → TranscriptBounds.blockId format parent = some parentId →
      Rooted format ⟨located.stored, parent⟩ → Rooted format located

/-- Loads whose newest unit fits, either with all that it is shown under, or alone where all of the page that can be shown fits
together. -/
structure Fitting (before : Option PageCursor) : Prop where
  newest : ((scan.candidateEntries before).getLast?.elim 0 fun entry => scan.loader.format.encodedBytes entry + 1) + 1 ≤
    scan.loader.bytes
  window :
    (∃ s, (scan.window before).Fits 1 s ∧
        (scan.window before).Holds ((scan.candidates before).length - 1) s) ∨
      ((∀ entry ∈ scan.candidateEntries before, entry.unit.key = userKey entry.turn.id → entry.unit.parentId = none) ∧
        ∃ s, (scan.window before).Fits 1 s ∧
          ∀ index located, (scan.leadingUnits before).length ≤ index →
            (scan.candidates before)[index]? = some located → Rooted scan.loader.format located →
              (scan.window before).Holds index s)

variable {scan} {before : Option PageCursor}

variable (scan before) in
def chosen : Finset Nat := selected scan.loader.format scan.loader.limits (scan.candidateEntries before)

variable (scan before) in
theorem load_cases :
    (¬((scan.candidateEntries before).getLast?.elim 0 fun entry => scan.loader.format.encodedBytes entry + 1) + 1 ≤
        scan.loader.bytes ∧ ∃ message, scan.load before = .error message) ∨
      ∃ result, scan.load before = .ok result ∧
        (Page.Alike result (scan.pageUnits before) (scan.candidates before) ∨
          ((scan.chosen before).card ≠ (scan.candidateEntries before).length ∧
            result.entries = kept (scan.chosen before) (scan.candidateEntries before) ∧
            result.hasOlder = true ∧ result.oldestCursor =
              (transcriptCursorFor (scan.candidateEntries before)[suffixStart
                (scan.chosen before) (scan.candidateEntries before).length]? <|>
              (scan.pageUnits before).items.head?.map cursorFor))) := by
  obtain ⟨page, hpage, halike⟩ := completedPage_alike scan before
  have hentries : page.entries = scan.candidateEntries before := halike.entries
  have hload : scan.load before = boundedPage scan.loader page := by
    rw [load, loadTranscriptWindow, hpage]
    rfl
  rw [hload, boundedPage, hentries, boundTranscriptEntries]
  by_cases hsize : ((scan.candidateEntries before).getLast?.elim 0 fun entry => scan.loader.format.encodedBytes entry + 1) + 1 ≤
      scan.loader.bytes
  · right
    have hfits : ¬((scan.candidateEntries before).getLast?.elim 0 fun entry => scan.loader.format.encodedBytes entry + 1) + 1 >
        scan.loader.limits.bytes := Nat.not_lt.mpr hsize
    rw [if_neg hfits]
    by_cases hcard : (scan.chosen before).card = (scan.candidateEntries before).length
    · refine ⟨page, ?_, .inl halike⟩
      dsimp only
      rw [← chosen, if_pos hcard]
      rfl
    · dsimp only
      rw [← chosen, if_neg hcard, ← halike.oldestCursor]
      exact ⟨_, rfl, .inr ⟨hcard, rfl, rfl, rfl⟩⟩
  · left
    refine ⟨hsize, "Transcript entry exceeds the transcript event limit", ?_⟩
    have hover : ((scan.candidateEntries before).getLast?.elim 0 fun entry => scan.loader.format.encodedBytes entry + 1) + 1 >
        scan.loader.limits.bytes := Nat.lt_of_not_le hsize
    rw [if_pos hover]
    rfl

theorem valid_candidates : ∀ entry ∈ scan.candidateEntries before, ValidTurnId entry.turn.id := by
  intro entry hentry
  obtain ⟨located, -, rfl⟩ := List.mem_map.mp hentry
  exact located.stored.valid

variable (scan before) in
theorem chosen_subset : scan.chosen before ⊆ Finset.range (scan.candidateEntries before).length :=
  TranscriptBounds.selected_subset _ _ valid_candidates

theorem candidates_nil (h : (scan.pageUnits before).items = []) : scan.candidates before = [] := by
  rw [candidates, leadingUnits, h]
  rfl

theorem load_progress {result : Page} (h : scan.load before = .ok result) :
    (∀ oldest, result.oldestCursor = some oldest → ∃ located ∈ scan.olderUnits before, cursorFor located = oldest) ∧
      (result.hasOlder = true → ∃ oldest, result.oldestCursor = some oldest) := by
  have hhead : ∀ oldest, (scan.pageUnits before).items.head?.map cursorFor = some oldest →
      ∃ located ∈ scan.olderUnits before, cursorFor located = oldest := by
    intro oldest holdest
    obtain ⟨located, hlocated, rfl⟩ := Option.map_eq_some_iff.mp holdest
    exact ⟨located, mem_pageUnits (List.mem_of_head? hlocated), rfl⟩
  rcases load_cases scan before with ⟨-, message, herror⟩ | ⟨result', hresult, hcases⟩
  · rw [herror] at h
    cases h
  · rw [hresult] at h
    cases h
    rcases hcases with halike | ⟨hcard, -, -, hcursor⟩
    · constructor
      · intro oldest holdest
        exact hhead oldest (halike.oldestCursor ▸ holdest)
      · intro holder
        rw [halike.hasOlder] at holder
        obtain ⟨first, hfirst⟩ := pageBefore_head scan.loader.size.size_pos holder
        exact ⟨cursorFor first, halike.oldestCursor.trans (congrArg (Option.map cursorFor) hfirst)⟩
    · rw [hcursor]
      constructor
      · intro oldest holdest
        cases hentry : (scan.candidateEntries before)[suffixStart
            (scan.chosen before) (scan.candidateEntries before).length]? with
        | none =>
          rw [hentry] at holdest
          exact hhead oldest holdest
        | some entry =>
          rw [hentry] at holdest
          cases holdest
          obtain ⟨located, hlocated, rfl⟩ := List.mem_map.mp (List.mem_of_getElem? hentry)
          exact ⟨located, mem_candidates hlocated, rfl⟩
      · intro _
        cases hitems : (scan.pageUnits before).items with
        | nil =>
          have hnone : scan.candidateEntries before = [] := by
            rw [candidateEntries, candidates_nil hitems, List.map_nil]
          have hsubset := Finset.card_le_card (chosen_subset scan before)
          rw [hnone, Finset.card_range] at hsubset
          rw [hnone] at hcard
          exact absurd (Nat.le_zero.mp hsubset) hcard
        | cons first rest =>
          cases (scan.candidateEntries before)[suffixStart
              (scan.chosen before) (scan.candidateEntries before).length]? with
          | none => exact ⟨cursorFor first, rfl⟩
          | some entry => exact ⟨_, rfl⟩

variable {left later : List Located} {index : Nat} {located : Located} {s : Finset Nat}

theorem olderUnits_of_page (hshown : scan.shownUnits = left ++ ((scan.pageUnits before).items ++ later))
    (hindex : (scan.pageUnits before).items[index]? = some located) :
    scan.olderUnits (some (cursorFor located)) = left ++ (scan.pageUnits before).items.take index := by
  obtain ⟨hlt, hget⟩ := List.getElem?_eq_some_iff.mp hindex
  have hdrop : (scan.pageUnits before).items.drop index =
      located :: (scan.pageUnits before).items.drop (index + 1) := by
    rw [List.drop_eq_getElem_cons hlt, hget]
  have hsplit : scan.shownUnits = (left ++ (scan.pageUnits before).items.take index) ++
      ((scan.pageUnits before).items.drop index ++ later) := by
    rw [hshown, List.append_assoc, ← List.append_assoc (List.take index _), List.take_append_drop]
  have hsorted := sorted_shownUnits scan
  rw [hsplit] at hsorted
  have hfirst : ((scan.pageUnits before).items.drop index ++ later).head? = some located := by
    rw [hdrop]
    rfl
  have hfilter := KeysetPages.filter_before hsorted hfirst
  rw [← hsplit] at hfilter
  exact hfilter

theorem links_inside : ∀ index ∈ Finset.range (scan.candidateEntries before).length, ∀ parent,
      (scan.window before).link index = .under parent →
        parent ∈ Finset.range (scan.candidateEntries before).length := by
  intro index _ parent hlink
  obtain ⟨-, -, parentEntry, -, -, hparent, -⟩ := link_under valid_candidates hlink
  exact Finset.mem_range.mpr (List.getElem?_eq_some_iff.mp hparent).1

theorem length_candidateEntries : (scan.candidateEntries before).length = (scan.candidates before).length :=
  List.length_map _

theorem start_within (h : (scan.window before).Fits 1 s) : (scan.window before).Within 1 ⟨∅, 1⟩ :=
  ⟨Nat.zero_le _, rfl, Nat.le_trans (Nat.le_add_right 1 _) h.size⟩

theorem newest_chosen (hfits : (scan.window before).Fits 1 s)
    (hholds : (scan.window before).Holds ((scan.candidates before).length - 1) s) :
    0 < (scan.candidates before).length ∧
      (scan.candidates before).length - 1 ∈ scan.chosen before := by
  cases hlength : (scan.candidates before).length with
  | zero =>
    rw [hlength] at hholds
    have hnone : (scan.candidateEntries before)[0]? = none := by
      rw [List.getElem?_eq_none_iff, length_candidateEntries, hlength]
    have hmissing : (scan.window before).link 0 = .missing := TranscriptBounds.link_none hnone
    cases hholds.complete with
    | root hroot =>
      rw [Nat.zero_sub, hmissing] at hroot
      cases hroot
    | under hunder _ =>
      rw [Nat.zero_sub, hmissing] at hunder
      cases hunder
  | succ newest =>
    rw [hlength, Nat.add_sub_cancel] at hholds
    refine ⟨Nat.succ_pos newest, ?_⟩
    have hentries : (scan.candidateEntries before).length = newest + 1 := length_candidateEntries.trans hlength
    have hmem : newest ∈ Finset.range (scan.candidateEntries before).length := by
      rw [hentries]
      exact Finset.self_mem_range_succ newest
    have hfuel : (Finset.range (scan.candidateEntries before).length).card ≤
        (scan.candidateEntries before).length + 1 := by
      rw [Finset.card_range]
      exact Nat.le_succ _
    obtain ⟨hadmitted, -⟩ := hholds.addItem hfits (start_within hfits) (Finset.empty_subset s) hmem links_inside hfuel
    rw [Nat.add_sub_cancel, chosen, selected, Forest.select]
    have hrange : (List.range (scan.candidateEntries before).length).reverse = newest :: (List.range newest).reverse := by
      rw [hentries, List.range_succ, List.reverse_append]
      rfl
    rw [hrange, List.foldl_cons]
    exact Forest.subset_foldl_addItem _ hadmitted

theorem rooted_of_complete (h : Complete (scan.window before).link index)
    (hlocated : (scan.candidates before)[index]? = some located) : Rooted scan.loader.format located := by
  induction h generalizing located with
  | @root index hroot =>
    have hentry : (scan.candidateEntries before)[index]? = some (Memory.entry located) := by
      rw [candidateEntries, List.getElem?_map, hlocated, Option.map_some]
    cases hparent : located.unit.parentId with
    | none => exact .root hparent
    | some parentId =>
      rw [window, TranscriptBounds.link_eq hentry, TranscriptBounds.parentOf_some hparent] at hroot
      cases hget : (TranscriptBounds.blocks scan.loader.format (scan.candidateEntries before)).get
          (TranscriptBounds.identity (Memory.entry located) parentId) with
      | none | some place =>
        rw [hget] at hroot
        cases hroot
  | @under index parent hunder _ ih =>
    obtain ⟨entry, parentId, parentEntry, hentry, hparentId, hparent, his⟩ := link_under valid_candidates hunder
    rw [candidateEntries, List.getElem?_map] at hentry hparent
    rw [hlocated] at hentry
    cases hentry
    obtain ⟨parentLocated, hparentLocated, rfl⟩ := Option.map_eq_some_iff.mp hparent
    have hmem := mem_shownUnits_of_older (mem_candidates (List.mem_of_getElem? hlocated))
    have hparentMem := mem_shownUnits_of_older (mem_candidates (List.mem_of_getElem? hparentLocated))
    have hstored : parentLocated.stored = located.stored := stored_eq hparentMem hmem his.1
    have hunit := (mem_units.mp (mem_shownUnits.mp hparentMem).1).2
    have hrooted := ih hparentLocated
    rw [hstored] at hunit
    refine .under hparentId hunit his.2 ?_
    rw [← hstored]
    exact hrooted

theorem exists_newest_first (start stop : Nat) : ∃ taken rest, (List.range stop).reverse = taken ++ rest ∧
    ∀ index, index ∈ taken ↔ start ≤ index ∧ index < stop := by
  refine ⟨((List.range stop).drop start).reverse, ((List.range stop).take start).reverse, ?_, ?_⟩
  · rw [← List.reverse_append, List.take_append_drop]
  · intro index
    rw [List.mem_reverse, List.range_eq_range', List.drop_range', List.mem_range'_1]
    omega

/-- What is stored with all of its parents is chosen, where all of it on the page fits together. -/
theorem rooted_chosen (hprompts : ∀ entry ∈ scan.candidateEntries before, entry.unit.key = userKey entry.turn.id → entry.unit.parentId = none)
    (hfits : (scan.window before).Fits 1 s)
    (hholds : ∀ index located, (scan.leadingUnits before).length ≤ index →
      (scan.candidates before)[index]? = some located → Rooted scan.loader.format located →
        (scan.window before).Holds index s) (hleading : (scan.leadingUnits before).length ≤ index)
    (hlocated : (scan.candidates before)[index]? = some located) (hrooted : Rooted scan.loader.format located) :
    index ∈ scan.chosen before := by
  obtain ⟨taken, rest, hrange, htaken⟩ : ∃ taken rest, (List.range (scan.candidateEntries before).length).reverse =
      taken ++ rest ∧ ∀ index, index ∈ taken ↔ (scan.leadingUnits before).length ≤ index ∧
        index < (scan.candidateEntries before).length :=
    exists_newest_first _ _
  have hinside : (scan.window before).Inside 1 s ⟨∅, 1⟩ :=
    ⟨start_within hfits, Finset.empty_subset s, fun _ hempty => absurd hempty (Finset.notMem_empty _)⟩
  have hroots : ∀ item lead, (scan.window before).lead item = some lead →
      (scan.window before).link lead = .root := by
    intro item lead hlead
    obtain ⟨entry, prompt, hentry, hprompt, hturn, hkey⟩ := TranscriptBounds.lead_prompt hlead
    exact TranscriptBounds.link_root hprompt (hprompts prompt (List.mem_of_getElem? hprompt) (hturn ▸ hkey))
  have hmem : ∀ item ∈ taken, item ∈ Finset.range (scan.candidateEntries before).length :=
    fun item hitem => Finset.mem_range.mpr ((htaken item).mp hitem).2
  have hfuel : (Finset.range (scan.candidateEntries before).length).card ≤
      (scan.candidateEntries before).length + 1 := by
    rw [Finset.card_range]
    exact Nat.le_succ _
  have hcomplete : ∀ item ∈ taken, Complete (scan.window before).link item →
      (scan.window before).Holds item s := by
    intro item hitem hitemComplete
    obtain ⟨hle, hlt⟩ := (htaken item).mp hitem
    rw [length_candidateEntries] at hlt
    obtain ⟨found, hfound⟩ : ∃ found, (scan.candidates before)[item]? = some found := ⟨_, List.getElem?_eq_getElem hlt⟩
    exact hholds item found hle hfound (rooted_of_complete hitemComplete hfound)
  have hindex : index ∈ taken := (htaken index).mpr ⟨hleading, length_candidateEntries ▸ (List.getElem?_eq_some_iff.mp hlocated).1⟩
  have hselected := hinside.foldl_addItem hfits hcomplete hroots hmem links_inside hfuel index hindex
    (hholds index located hleading hlocated hrooted).complete
  rw [chosen, selected, Forest.select, hrange, List.foldl_append]
  exact Forest.subset_foldl_addItem _ hselected

variable (scan before) in
theorem card_chosen_le (hbytes : 1 ≤ scan.loader.bytes) : (scan.chosen before).card ≤ scan.loader.size.size :=
  (Forest.select_within (scan.window before) _ hbytes _).items

variable (scan before) in
theorem leadingUnits_le_suffixStart (hbytes : 1 ≤ scan.loader.bytes) : (scan.leadingUnits before).length ≤
    suffixStart (scan.chosen before) (scan.candidates before).length := by
  by_cases hnone : scan.leadingUnits before = []
  · rw [hnone]
    exact Nat.zero_le _
  · obtain ⟨located, hlocated⟩ := List.exists_mem_of_ne_nil _ hnone
    obtain ⟨-, -, -, hmore, -⟩ := mem_leadingUnits hlocated
    obtain ⟨-, -, -, -, -, hfull⟩ := exists_left scan before
    have hlength : (scan.candidates before).length = (scan.leadingUnits before).length + scan.loader.size.size := by
      rw [candidates, List.length_append, hfull hmore]
    have hsuffix := TranscriptBounds.length_le_suffixStart_add_card (scan.chosen before)
      (scan.candidates before).length
    have hcard := card_chosen_le scan before hbytes
    omega

theorem exists_first (hshown : scan.shownUnits = left ++ ((scan.pageUnits before).items ++ later))
    (hlast : (scan.pageUnits before).hasOlder = false → left = []) (hlocated : located ∈ left) :
    (scan.pageUnits before).hasOlder = true ∧ ∃ first, (scan.pageUnits before).items.head? = some first ∧
      located ∈ scan.olderUnits (some (cursorFor first)) := by
  cases hmore : (scan.pageUnits before).hasOlder with
  | false =>
    rw [hlast hmore] at hlocated
    cases hlocated
  | true =>
    obtain ⟨first, hfirst⟩ := pageBefore_head scan.loader.size.size_pos hmore
    refine ⟨rfl, first, hfirst, ?_⟩
    have hzero : (scan.pageUnits before).items[0]? = some first := by
      rw [← List.head?_eq_getElem?]
      exact hfirst
    rw [olderUnits_of_page hshown hzero, List.take_zero, List.append_nil]
    exact hlocated

theorem getElem?_candidates (index : Nat) : (scan.candidates before)[(scan.leadingUnits before).length + index]? =
    (scan.pageUnits before).items[index]? := by
  rw [candidates, List.getElem?_append_right (Nat.le_add_right _ _), Nat.add_sub_cancel_left]

theorem mem_kept_of_chosen (hindex : index ∈ scan.chosen before)
    (hlocated : (scan.candidates before)[index]? = some located) : Memory.entry located ∈
      kept (scan.chosen before) (scan.candidateEntries before) := by
  refine TranscriptBounds.mem_kept.mpr ⟨index, hindex, ?_⟩
  rw [candidateEntries, List.getElem?_map, hlocated, Option.map_some]

/-- A fitting load returns every unit with all of its parents that it does not leave to the next. -/
theorem load_fitting (hfitting : scan.Fitting before) : ∃ result, scan.load before = .ok result ∧
      ∀ located ∈ scan.olderUnits before, Rooted scan.loader.format located →
        Memory.entry located ∈ result.entries ∨
          result.hasOlder = true ∧ ∃ oldest, result.oldestCursor = some oldest ∧ located ∈ scan.olderUnits (some oldest) := by
  obtain ⟨left, later, holder, hshown, hlast, -⟩ := exists_left scan before
  rcases load_cases scan before with ⟨hsize, -⟩ | ⟨result, hresult, hcases⟩
  · exact absurd hfitting.newest hsize
  have hbytes : 1 ≤ scan.loader.bytes := Nat.le_trans (Nat.le_add_left 1 _) hfitting.newest
  refine ⟨result, hresult, ?_⟩
  intro located hlocated hrooted
  rw [holder, List.mem_append] at hlocated
  rcases hcases with halike | ⟨-, hentries, hmore, hcursor⟩
  · rcases hlocated with hleft | hpage
    · obtain ⟨hmore, first, hfirst, hmem⟩ := exists_first hshown hlast hleft
      refine .inr ⟨halike.hasOlder.trans hmore, cursorFor first, ?_, hmem⟩
      rw [halike.oldestCursor, hfirst]
      rfl
    · left
      rw [halike.entries]
      exact List.mem_map_of_mem (List.mem_append_right _ hpage)
  · rw [length_candidateEntries, candidateEntries, List.getElem?_map] at hcursor
    have hleading := leadingUnits_le_suffixStart scan before hbytes
    obtain ⟨start, hstart⟩ : ∃ start, start = suffixStart (scan.chosen before)
      (scan.candidates before).length := ⟨_, rfl⟩
    have hle : start ≤ (scan.candidates before).length := hstart ▸ TranscriptBounds.suffixStart_le _ _
    rw [← hstart] at hcursor hleading
    rcases Nat.lt_or_eq_of_le hle with hlt | heq
    · -- The next load goes on from a unit of the page, and what is after it is chosen.
      obtain ⟨place, rfl⟩ := Nat.exists_eq_add_of_le hleading
      obtain ⟨first, hfirst⟩ : ∃ first, (scan.pageUnits before).items[place]? = some first := by
        rw [← getElem?_candidates]
        exact ⟨_, List.getElem?_eq_getElem hlt⟩
      rw [getElem?_candidates, hfirst] at hcursor
      have hnext := olderUnits_of_page hshown hfirst
      rcases hlocated with hleft | hpage
      · refine .inr ⟨hmore, cursorFor first, hcursor, ?_⟩
        rw [hnext]
        exact List.mem_append_left _ hleft
      · obtain ⟨index, hindex⟩ := List.mem_iff_getElem?.mp hpage
        by_cases hbefore : index < place
        · refine .inr ⟨hmore, cursorFor first, hcursor, ?_⟩
          rw [hnext]
          refine List.mem_append_right _ (List.mem_of_getElem? (i := index) ?_)
          rw [List.getElem?_take_of_lt hbefore]
          exact hindex
        · left
          rw [← getElem?_candidates] at hindex
          rw [hentries]
          refine mem_kept_of_chosen (TranscriptBounds.mem_of_suffixStart_le (n := (scan.candidates before).length) ?_ ?_) hindex
          · rw [← hstart]
            omega
          · exact (List.getElem?_eq_some_iff.mp hindex).1
    · -- The newest unit is not chosen, and the next load goes on before the page.
      have hnone : (scan.candidates before)[start]? = none := List.getElem?_eq_none_iff.mpr (Nat.le_of_eq heq.symm)
      rw [hnone] at hcursor
      rcases hlocated with hleft | hpage
      · obtain ⟨-, first, hfirst, hmem⟩ := exists_first hshown hlast hleft
        refine .inr ⟨hmore, cursorFor first, ?_, hmem⟩
        rw [hcursor, hfirst]
        rfl
      · rcases hfitting.window with ⟨s, hfits, hholds⟩ | ⟨hprompts, s, hfits, hholds⟩
        · obtain ⟨hpos, hnewest⟩ := newest_chosen hfits hholds
          exact absurd (heq.symm.trans hstart) (Nat.ne_of_gt (TranscriptBounds.suffixStart_lt hpos hnewest))
        · obtain ⟨index, hindex⟩ := List.mem_iff_getElem?.mp hpage
          rw [← getElem?_candidates] at hindex
          rw [hentries]
          exact .inl (mem_kept_of_chosen (rooted_chosen hprompts hfits hholds (Nat.le_add_right _ _) hindex hrooted) hindex)

end Selections

end Scan

section Runs

open Scan

variable {scan : Scan} {before : Option PageCursor}
  {steps : List (Option PageCursor × Except String Page)}

variable {located : Located}

theorem olderUnits_sublist (hlocated : located ∈ scan.olderUnits before) :
    (scan.olderUnits (some (cursorFor located))).Sublist (scan.olderUnits before) := by
  cases before with
  | none => exact List.filter_sublist
  | some cursor =>
    refine List.monotone_filter_right _ fun other hother => ?_
    have hlt := of_decide_eq_true (List.mem_filter.mp hlocated).2
    exact decide_eq_true (Std.TransCmp.lt_trans (of_decide_eq_true hother) hlt)

theorem length_olderUnits_lt (hlocated : located ∈ scan.olderUnits before) :
    (scan.olderUnits (some (cursorFor located))).length < (scan.olderUnits before).length := by
  have hsublist := olderUnits_sublist hlocated
  refine lt_of_le_of_ne hsublist.length_le fun hlength => ?_
  rw [← hsublist.eq_of_length hlength] at hlocated
  exact not_lt_self (cursorFor located) (of_decide_eq_true (List.mem_filter.mp hlocated).2)

theorem exists_loads (before : Option PageCursor) : ∃ steps, Loads scan.load before steps := by
  induction hlength : (scan.olderUnits before).length using Nat.strong_induction_on generalizing before with
  | _ length ih =>
    cases hload : scan.load before with
    | error message => exact ⟨_, .failed hload⟩
    | ok page =>
      obtain ⟨hcursor, hmore⟩ := load_progress hload
      cases holder : page.hasOlder with
      | false => exact ⟨_, .last hload holder⟩
      | true =>
        obtain ⟨oldest, holdest⟩ := hmore holder
        obtain ⟨located, hlocated, rfl⟩ := hcursor oldest holdest
        obtain ⟨steps, hsteps⟩ := ih _ (hlength ▸ length_olderUnits_lt hlocated) _ rfl
        exact ⟨_, .next hload holder holdest hsteps⟩

theorem Loads.load_eq {load : Option PageCursor → Except String Page} (h : Loads load before steps) : ∀ step ∈ steps, load step.1 = step.2 := by
  induction h with
  | failed hload | last hload _ =>
    intro step hstep
    rw [List.mem_singleton.mp hstep]
    exact hload
  | next hload _ _ _ ih =>
    intro step hstep
    rcases List.mem_cons.mp hstep with rfl | hstep
    · exact hload
    · exact ih step hstep

def Descending (steps : List (Option PageCursor × Except String Page)) : Prop :=
  ∀ step ∈ steps, ∀ page oldest cursor, step.2 = .ok page → page.oldestCursor = some oldest → step.1 = some cursor →
    compareCursor oldest cursor = .lt

theorem Loads.descending (h : Loads scan.load before steps) : Descending steps := by
  intro step hstep page oldest cursor hpage holdest hcursor
  have hload := h.load_eq step hstep
  rw [hpage, hcursor] at hload
  obtain ⟨located, hlocated, rfl⟩ := (load_progress hload).1 oldest holdest
  exact of_decide_eq_true (List.mem_filter.mp hlocated).2

variable (scan) in
/-- A call that leaves a unit to no later one: the unit is before its cursor, and not before the cursor it returns. -/
def Scan.Passes (step : Option PageCursor × Except String Page) (located : Located) : Prop :=
  located ∈ scan.olderUnits step.1 ∧ ∀ page oldest, step.2 = .ok page → page.hasOlder = true →
    page.oldestCursor = some oldest → located ∉ scan.olderUnits (some oldest)

variable (scan before) in
structure Scan.Covers (steps : List (Option PageCursor × Except String Page)) : Prop where
  succeed : ∀ step ∈ steps, scan.Fitting step.1 → ∃ page, step.2 = .ok page
  each : ∀ located ∈ scan.olderUnits before, ∃ step ∈ steps, scan.Passes step located ∧
    (Rooted scan.loader.format located → scan.Fitting step.1 →
      ∃ page, step.2 = .ok page ∧ Memory.entry located ∈ page.entries)

theorem Scan.Passes.entry {step : Option PageCursor × Except String Page}
    (hload : scan.load step.1 = step.2) (h : scan.Passes step located)
    (hrooted : Rooted scan.loader.format located) (hfitting : scan.Fitting step.1) :
    ∃ page, step.2 = .ok page ∧ Memory.entry located ∈ page.entries := by
  obtain ⟨page, hpage, hentries⟩ := load_fitting hfitting
  rw [hload] at hpage
  refine ⟨page, hpage, (hentries located h.1 hrooted).resolve_right ?_⟩
  rintro ⟨hmore, oldest, holdest, hmem⟩
  exact h.2 page oldest hpage hmore holdest hmem

theorem Loads.passes (h : Loads scan.load before steps)
    (hlocated : located ∈ scan.olderUnits before) :
    ∃ step ∈ steps, scan.Passes step located := by
  induction h with
  | failed hload => exact ⟨_, List.mem_cons_self, hlocated, by rintro page oldest ⟨⟩⟩
  | @last before page hload hlast =>
    refine ⟨_, List.mem_cons_self, hlocated, ?_⟩
    rintro page' oldest ⟨⟩ hmore
    rw [hlast] at hmore
    cases hmore
  | @next before page oldest steps hload _ holdest _ ih =>
    by_cases hnext : located ∈ scan.olderUnits (some oldest)
    · obtain ⟨step, hstep, hpasses⟩ := ih hnext
      exact ⟨step, List.mem_cons_of_mem _ hstep, hpasses⟩
    · refine ⟨_, List.mem_cons_self, hlocated, ?_⟩
      rintro page' oldest' ⟨⟩ _ holdest'
      rw [holdest, Option.some.injEq] at holdest'
      exact holdest' ▸ hnext

theorem Loads.covers (h : Loads scan.load before steps) : scan.Covers before steps := by
  constructor
  · intro step hstep hfitting
    obtain ⟨page, hpage, -⟩ := load_fitting hfitting
    exact ⟨page, (h.load_eq step hstep).symm.trans hpage⟩
  · intro located hlocated
    obtain ⟨step, hstep, hpasses⟩ := h.passes hlocated
    exact ⟨step, hstep, hpasses, hpasses.entry (h.load_eq step hstep)⟩

/-- Windows are loaded to an end, each from before the last. Every unit is passed by one of the calls, and is on its window
where the unit has its parents and the call fits. -/
theorem older_windows_cover (scan : Scan) (before : Option PageCursor) :
    (∃ steps, Loads scan.load before steps) ∧
      ∀ steps, Loads scan.load before steps →
        Descending steps ∧ scan.Covers before steps :=
  ⟨exists_loads before, fun _ h => ⟨h.descending, h.covers⟩⟩

end Runs

section Samples

open Scan

theorem three_le_maxSafeInteger : 3 ≤ TranscriptUnit.maxSafeInteger := by decide

def sampleOrder (sequence : Fin 3) : TranscriptUnit.UnitOrder :=
  ⟨[⟨sequence, 0, "unit", Int.le_trans (Int.negSucc_le_zero 0) (Int.natCast_nonneg _),
    Int.ofNat_le.mpr (Nat.le_trans (Nat.le_of_lt sequence.isLt) three_le_maxSafeInteger), Nat.zero_le _, plainKey_ne⟩],
    List.cons_ne_nil _ _⟩

def sampleUnit (key : String) (sequence : Fin 3) (parentId : Option String) (content : TranscriptUnit.Content) : TranscriptUnit.Unit :=
  ⟨key, "turn", parentId, none, sampleOrder sequence, 0, none, content⟩

def sampleAnswer : TranscriptUnit.Unit := sampleUnit "answer" 0 none (.entry .assistant "")

def sampleCall : TranscriptUnit.Unit := sampleUnit "call" 1 none (.block (.toolCall ⟨"call", .complete, none, none, none, ""⟩))

def sampleChild : TranscriptUnit.Unit := sampleUnit "child" 2 (some "call") (.entry .assistant "")

theorem owned_sample : ∀ unit ∈ [sampleAnswer, sampleCall, sampleChild], unit.turnId = "turn" := by decide +kernel

theorem orders_sample : ([sampleAnswer, sampleCall, sampleChild].map fun unit => TranscriptUnit.encodeUnitOrder unit.order).Nodup := by
  decide +kernel

def sampleTurn : StoredTurn where
  turn := ⟨"turn", "thread", "", .human, .original, 1, 1, .recordedShell "" .running⟩
  projection :=
    { units := [sampleAnswer, sampleCall, sampleChild]
      checkpointGeneration := 0
      revision := 0
      state := ⟨.running, none, Usage.emptyUsageState, ⟨none, none⟩⟩
      projectionVersion := 0
      projectorCheckpoint := none }
  valid := valid_turn
  owned := owned_sample
  orders := orders_sample

def sampleStored : Stored where
  turns := ⟨[sampleTurn], List.nodup_singleton _⟩
  usage _ := emptyUsage

theorem twenty_le_maximumTranscriptUnits : 20 ≤ maximumTranscriptUnits := by decide

def sampleLoader (size : Fin 20) (bytes : Nat) : Loader where
  page := Memory.page sampleStored
  projectionVersion := 0
  size := ⟨size + 1, Nat.succ_pos size, Nat.le_trans size.isLt twenty_le_maximumTranscriptUnits⟩
  bytes := bytes
  format := ⟨fun _ _ => none, fun _ => 30⟩

def sampleScan (size : Fin 20) (bytes : Nat) : Scan := ⟨sampleLoader size bytes, sampleStored, "thread", Reads.memory _⟩

section

variable {load : Option PageCursor → Except String Page} {before oldest : Option PageCursor} {hasOlder : Bool}
  {entries : List Entry}

theorem exists_page (h : (load before).toOption.map (fun page => (page.hasOlder, page.oldestCursor, page.entries)) =
    some (hasOlder, oldest, entries)) :
    ∃ page, load before = .ok page ∧ page.hasOlder = hasOlder ∧ page.oldestCursor = oldest ∧ page.entries = entries := by
  cases hload : load before with
  | error message =>
    rw [hload] at h
    cases h
  | ok page =>
    rw [hload] at h
    cases h
    exact ⟨page, rfl, rfl, rfl, rfl⟩

end

def sampleCursor (sequence : Fin 3) : PageCursor := ⟨1, "turn", TranscriptUnit.encodeUnitOrder (sampleOrder sequence)⟩

theorem fitting_child : (sampleScan 1 200).Fitting none := by
  have hchild : ((sampleScan 1 200).window none).link 2 = .under 1 := by decide +kernel
  have hcall : ((sampleScan 1 200).window none).link 1 = .root := by decide +kernel
  have hlead : ((sampleScan 1 200).window none).lead 2 = none := by decide +kernel
  have hlength : ((sampleScan 1 200).candidates none).length - 1 = 2 := by decide +kernel
  refine ⟨by decide +kernel, .inl ⟨{1, 2}, ⟨by decide +kernel, by decide +kernel⟩, ?_⟩⟩
  rw [hlength]
  refine ⟨.under hchild (.root hcall), ?_, ?_⟩
  · intro other hother
    cases hother with
    | refl => exact Finset.mem_insert_of_mem (Finset.mem_singleton_self 2)
    | step hparent hother =>
      rw [hchild] at hparent
      cases hparent
      cases hother with
      | refl => exact Finset.mem_insert_self 1 {2}
      | step hparent _ =>
        rw [hcall] at hparent
        cases hparent
  · intro lead h
    rw [hlead] at h
    cases h

theorem fitting_answer : (sampleScan 1 200).Fitting (some (sampleCursor 1)) := by
  have hanswer : ((sampleScan 1 200).window (some (sampleCursor 1))).link 0 = .root := by decide +kernel
  have hlead : ((sampleScan 1 200).window (some (sampleCursor 1))).lead 0 = none := by decide +kernel
  have hlength : ((sampleScan 1 200).candidates (some (sampleCursor 1))).length - 1 = 0 := by
    decide +kernel
  refine ⟨by decide +kernel, .inl ⟨{0}, ⟨by decide +kernel, by decide +kernel⟩, ?_⟩⟩
  rw [hlength]
  refine ⟨.root hanswer, ?_, ?_⟩
  · intro other hother
    cases hother with
    | refl => exact Finset.mem_singleton_self 0
    | step hparent _ =>
      rw [hanswer] at hparent
      cases hparent
  · intro lead h
    rw [hlead] at h
    cases h

/-- Two calls of two units each that both fit. -/
theorem older_windows_cover_sample : ∃ first last,
    let steps := [(none, .ok first), (some (sampleCursor 1), .ok last)]
    Loads (sampleScan 1 200).load none steps ∧ Descending steps ∧
      (sampleScan 1 200).Covers none steps ∧
      ∀ step ∈ steps, (sampleScan 1 200).Fitting step.1 := by
  obtain ⟨first, hfirst, hmore, holdest, -⟩ : ∃ page, (sampleScan 1 200).load none = .ok page ∧
      page.hasOlder = true ∧ page.oldestCursor = some (sampleCursor 1) ∧
      page.entries = [Memory.entry ⟨sampleTurn, sampleCall⟩, Memory.entry ⟨sampleTurn, sampleChild⟩] :=
    exists_page (by decide +kernel)
  obtain ⟨last, hlast, hnone, -, -⟩ : ∃ page,
      (sampleScan 1 200).load (some (sampleCursor 1)) = .ok page ∧ page.hasOlder = false ∧
      page.oldestCursor = some (sampleCursor 0) ∧ page.entries = [Memory.entry ⟨sampleTurn, sampleAnswer⟩] :=
    exists_page (by decide +kernel)
  have hloads : Loads (sampleScan 1 200).load none
      [(none, .ok first), (some (sampleCursor 1), .ok last)] := .next hfirst hmore holdest (.last hlast hnone)
  obtain ⟨hdescending, hcovers⟩ := (older_windows_cover (sampleScan 1 200) none).2 _ hloads
  refine ⟨first, last, hloads, hdescending, hcovers, ?_⟩
  intro step hstep
  rcases List.mem_cons.mp hstep with rfl | hstep
  · exact fitting_child
  · rw [List.mem_singleton.mp hstep]
    exact fitting_answer

/-- A unit that does not fit with its parent is on no window, and neither is one that fits alone. -/
theorem units_are_left_out : ∃ steps, Loads (sampleScan 19 50).load none steps ∧
    (∀ step ∈ steps, ∃ page, step.2 = .ok page) ∧
    ∀ unit ∈ [sampleAnswer, sampleChild],
      ⟨sampleTurn, unit⟩ ∈ (sampleScan 19 50).olderUnits none ∧
        Rooted (sampleScan 19 50).loader.format ⟨sampleTurn, unit⟩ ∧
        ∀ step ∈ steps, ∀ page, step.2 = .ok page → Memory.entry ⟨sampleTurn, unit⟩ ∉ page.entries := by
  obtain ⟨page, hload, hmore, holdest, hentries⟩ : ∃ page,
      (sampleScan 19 50).load none = .ok page ∧ page.hasOlder = true ∧
      page.oldestCursor = some (sampleCursor 0) ∧ page.entries = [Memory.entry ⟨sampleTurn, sampleCall⟩] :=
    exists_page (by decide +kernel)
  obtain ⟨page', hnext, hlast, -, hnone⟩ : ∃ page,
      (sampleScan 19 50).load (some (sampleCursor 0)) = .ok page ∧ page.hasOlder = false ∧
      page.oldestCursor = none ∧ page.entries = [] :=
    exists_page (by decide +kernel)
  refine ⟨_, .next hload hmore holdest (.last hnext hlast), ?_, ?_⟩
  · intro step hstep
    rcases List.mem_cons.mp hstep with rfl | hstep
    · exact ⟨page, rfl⟩
    · rw [List.mem_singleton.mp hstep]
      exact ⟨page', rfl⟩
  · intro unit hunit
    have hstored : unit ∈ sampleTurn.projection.units := by
      rcases List.mem_cons.mp hunit with rfl | hunit
      · exact List.mem_cons_self
      · rw [List.mem_singleton.mp hunit]
        exact List.mem_cons_of_mem _ (List.mem_cons_of_mem _ (List.mem_singleton_self _))
    have hrooted : Rooted (sampleScan 19 50).loader.format ⟨sampleTurn, unit⟩ := by
      rcases List.mem_cons.mp hunit with rfl | hunit
      · exact .root rfl
      · rw [List.mem_singleton.mp hunit]
        have hcall : Rooted (sampleScan 19 50).loader.format ⟨sampleTurn, sampleCall⟩ := .root rfl
        exact .under rfl (List.mem_cons_of_mem _ List.mem_cons_self) rfl hcall
    have hother : Memory.entry ⟨sampleTurn, unit⟩ ≠ Memory.entry ⟨sampleTurn, sampleCall⟩ := by
      rcases List.mem_cons.mp hunit with rfl | hunit
      · decide +kernel
      · rw [List.mem_singleton.mp hunit]
        decide +kernel
    refine ⟨mem_shownUnits.mpr ⟨mem_units.mpr ⟨List.mem_singleton_self _, hstored⟩, by rfl⟩, hrooted, ?_⟩
    intro step hstep result hresult
    rcases List.mem_cons.mp hstep with rfl | hstep
    · cases hresult
      rw [hentries, List.mem_singleton]
      exact hother
    · rw [List.mem_singleton.mp hstep] at hresult
      cases hresult
      rw [hnone]
      exact List.not_mem_nil

end Samples

end Rika.OlderWindows
