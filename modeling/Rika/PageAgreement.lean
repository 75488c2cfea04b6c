import Rika.TranscriptPaging

namespace Rika.TranscriptPages

open StableSort (Sorted mem_toSorted toSorted toSorted_perm toSorted_sorted)
open ThreadView (PageCursor)
open TranscriptUnit (encodeUnitOrder)
open WindowPages (Place Window window)
open Memory (Located cursorFor)

section Limits

variable {options : PageOptions} {limit : Nat}

theorem validatePageOptions_pos (h : validatePageOptions options = .ok limit) : 0 < limit := by
  rw [validatePageOptions] at h
  split at h
  · exact absurd h (by simp)
  · dsimp only at h
    split at h
    · next hvalid =>
      have hpos : 0 < (options.limit.getD 200).num := Rat.num_pos.mpr (lt_of_lt_of_le one_pos hvalid.2.1)
      have hnum : (options.limit.getD 200).num.toNat = limit := Except.ok.inj h
      omega
    · exact absurd h (by simp)

structure PageSize where
  size : Nat
  size_pos : 0 < size
  size_le : size ≤ maximumTranscriptUnits

def listOptions (size : PageSize) (projectionVersion : Option Nat) : PageOptions :=
  { limit := some size.size, projectionVersion := projectionVersion }

theorem validatePageOptions_listOptions (size : PageSize) (projectionVersion : Option Nat) {before after : Option PageCursor}
    (h : before = none ∨ after = none) :
    validatePageOptions { listOptions size projectionVersion with before := before, after := after } = .ok size.size := by
  have hpos : (1 : ℚ) ≤ (size.size : ℚ) := Nat.one_le_cast.mpr size.size_pos
  have hle : (size.size : ℚ) ≤ (maximumTranscriptUnits : ℚ) := Nat.cast_le.mpr size.size_le
  have hboth : ¬(before.isSome = true ∧ after.isSome = true) := by
    rcases h with rfl | rfl
    · simp
    · simp
  rw [validatePageOptions, if_neg hboth]
  exact if_pos ⟨Rat.den_natCast size.size, hpos, hle⟩

end Limits

section Enumeration

/-- The pages before a cursor, or from the newest one, each before the oldest cursor of the page that was read. -/
inductive OlderPages (page : PageOptions → Except String Page) (options : PageOptions) :
    Option PageCursor → List (List Entry) → Prop
  | last {cursor : Option PageCursor} {result : Page} : page { options with before := cursor } = .ok result →
      result.hasOlder = false → OlderPages page options cursor [result.entries]
  | next {cursor : Option PageCursor} {result : Page} {oldest : PageCursor} {pages : List (List Entry)} :
      page { options with before := cursor } = .ok result → result.hasOlder = true → result.oldestCursor = some oldest →
      OlderPages page options (some oldest) pages → OlderPages page options cursor (result.entries :: pages)

/-- The pages after a cursor, each after the newest cursor of the page that was read. -/
inductive NewerPages (page : PageOptions → Except String Page) (options : PageOptions) :
    PageCursor → List (List Entry) → Prop
  | last {cursor : PageCursor} {result : Page} : page { options with after := some cursor } = .ok result →
      result.hasNewer = false → NewerPages page options cursor [result.entries]
  | next {cursor newest : PageCursor} {result : Page} {pages : List (List Entry)} :
      page { options with after := some cursor } = .ok result → result.hasNewer = true →
      result.newestCursor = some newest → NewerPages page options newest pages →
      NewerPages page options cursor (result.entries :: pages)

def entryCursor (entry : Entry) : PageCursor := ⟨entry.turn.createdAt, entry.turn.id, encodeUnitOrder entry.unit.order⟩

def entriesOf (stored : Stored) (threadId : String) (projectionVersion : Option Nat) : List Entry :=
  (Memory.located stored threadId { projectionVersion := projectionVersion }).map Memory.entry

/-- Entries with each of some once, in the order of their cursors. -/
structure Once (compare : PageCursor → PageCursor → Ordering) (entries : List Entry) (visited : List Entry) : Prop where
  each : visited.Perm entries
  nodup : visited.Nodup
  ordered : visited.Pairwise fun left right => compare (entryCursor left) (entryCursor right) = .lt

/-- A store's pages go through some entries once, from the newest back and from any start on that is before them all. -/
structure Enumerates (compare : PageCursor → PageCursor → Ordering) (page : PageOptions → Except String Page)
    (options : PageOptions) (entries : List Entry) : Prop where
  older : ∃ pages, OlderPages page options none pages ∧ Once compare entries pages.reverse.flatten
  newer : ∀ start, (∀ entry ∈ entries, compare (entryCursor entry) start = .gt) →
    ∃ pages, NewerPages page options start pages ∧ Once compare entries pages.flatten

variable {compareId compareKey : String → String → Ordering} {stored : Stored} {threadId : String}
  {page : PageOptions → Except String Page} {size : PageSize} {projectionVersion : Option Nat} {usage : Selection.UsageSummary}

/-- A store whose pages are windows of the listing in its order. -/
structure Windowed (compareId compareKey : String → String → Ordering) (stored : Stored) (threadId : String)
    (usage : Selection.UsageSummary) (page : PageOptions → Except String Page) : Prop where
  page_eq : ∀ options limit, validatePageOptions options = .ok limit → options.structuralTurnId = none →
    page options = .ok (.of usage (window (compareCursors compareId compareKey) cursorFor
      (listing compareId compareKey stored threadId options) limit (place options)))

theorem Windowed.memory :
    Windowed compareText compareText stored threadId (stored.usage threadId) (Memory.page stored threadId) :=
  ⟨fun _ _ h hplain => Memory.page_eq h hplain⟩

theorem Windowed.sql {Json : Type} {codec : UnitCodec Json} (order : TextOrder) (stores : Stores codec) :
    Windowed order.compare Sql.compareC stores.memory threadId (stores.tables.usage threadId)
      (Sql.page order codec stores.tables threadId) :=
  ⟨fun _ _ h hplain => Sql.page_eq stores h hplain⟩

variable (compareId compareKey stored threadId projectionVersion) in
def shownInOrder : List Located := listing compareId compareKey stored threadId { projectionVersion := projectionVersion }

def olderPlace : Option PageCursor → Place PageCursor
  | none => .newest
  | some cursor => .before cursor

variable {place : Place PageCursor} {pages : List (List Located)}

theorem Windowed.olderPages (h : Windowed compareId compareKey stored threadId usage page)
    (hpages : WindowPages.Older cursorFor (window (compareCursors compareId compareKey) cursorFor
      (shownInOrder compareId compareKey stored threadId projectionVersion) size.size) place pages)
    {cursor : Option PageCursor} (hplace : place = olderPlace cursor) :
    OlderPages page (listOptions size projectionVersion) cursor (pages.map fun items => items.map Memory.entry) := by
  have hpage (cursor : Option PageCursor) := h.page_eq { listOptions size projectionVersion with before := cursor } size.size
    (validatePageOptions_listOptions size projectionVersion (.inr rfl)) rfl
  induction hpages generalizing cursor with
  | last holder =>
    subst hplace
    cases cursor with
    | none => exact .last (hpage none) holder
    | some cursor => exact .last (hpage (some cursor)) holder
  | @next place first pages holder hfirst _ ih =>
    subst hplace
    have holdest (view : Window Located) (hview : view.items.head? = some first) :
        (Page.of usage view).oldestCursor = some (cursorFor first) := by
      rw [Page.of, hview]
      rfl
    cases cursor with
    | none => exact .next (hpage none) holder (holdest _ hfirst) (ih rfl)
    | some cursor => exact .next (hpage (some cursor)) holder (holdest _ hfirst) (ih rfl)

theorem Windowed.newerPages (h : Windowed compareId compareKey stored threadId usage page)
    (hpages : WindowPages.Newer cursorFor (window (compareCursors compareId compareKey) cursorFor
      (shownInOrder compareId compareKey stored threadId projectionVersion) size.size) place pages)
    {cursor : PageCursor} (hplace : place = .after cursor) :
    NewerPages page (listOptions size projectionVersion) cursor (pages.map fun items => items.map Memory.entry) := by
  have hpage (cursor : PageCursor) := h.page_eq { listOptions size projectionVersion with after := some cursor } size.size
    (validatePageOptions_listOptions size projectionVersion (.inl rfl)) rfl
  induction hpages generalizing cursor with
  | last hnewer =>
    subst hplace
    exact .last (hpage cursor) hnewer
  | @next place last pages hnewer hlast _ ih =>
    subst hplace
    refine .next (hpage cursor) hnewer ?_ (ih rfl)
    exact congrArg (Option.map cursorFor) hlast

variable [Std.TransCmp compareId] [Std.TransCmp compareKey] [Std.LawfulEqCmp compareId] [Std.LawfulEqCmp compareKey]

theorem once_shownInOrder : Once (compareCursors compareId compareKey) (entriesOf stored threadId projectionVersion)
    ((shownInOrder compareId compareKey stored threadId projectionVersion).map Memory.entry) := by
  have hsorted : WindowPages.Sorted (compareCursors compareId compareKey) cursorFor
      (shownInOrder compareId compareKey stored threadId projectionVersion) := sorted_listing
  refine ⟨(toSorted_perm _ _).map Memory.entry, ?_, List.pairwise_map.mpr hsorted⟩
  refine List.Nodup.of_map entryCursor ?_
  rw [List.map_map]
  refine List.Nodup.map_on ?_ ((toSorted_perm _ _).nodup_iff.mpr nodup_located)
  intro left hleft right hright heq
  exact eq_of_cursorFor (mem_listing.mp hleft).1 (mem_listing.mp hright).1 heq

theorem flatten_map_entry (pages : List (List Located)) :
    (pages.map fun items => items.map Memory.entry).flatten = pages.flatten.map Memory.entry := by
  rw [List.map_flatten]

theorem Windowed.enumerates (h : Windowed compareId compareKey stored threadId usage page) :
    Enumerates (compareCursors compareId compareKey) page (listOptions size projectionVersion)
      (entriesOf stored threadId projectionVersion) := by
  have hsorted : WindowPages.Sorted (compareCursors compareId compareKey) cursorFor
      (shownInOrder compareId compareKey stored threadId projectionVersion) := sorted_listing
  constructor
  · obtain ⟨pages, hpages, hflatten⟩ := WindowPages.older_exact hsorted size.size_pos
    refine ⟨_, h.olderPages hpages rfl, ?_⟩
    rw [← List.map_reverse, flatten_map_entry, hflatten]
    exact once_shownInOrder
  · intro start hstart
    have hbefore : ∀ located ∈ shownInOrder compareId compareKey stored threadId projectionVersion,
        compareCursors compareId compareKey (cursorFor located) start = .gt := by
      intro located hlocated
      exact hstart _ (List.mem_map_of_mem ((mem_toSorted _).mp hlocated))
    obtain ⟨pages, hpages, hflatten⟩ := WindowPages.newer_exact hsorted size.size_pos hbefore
    refine ⟨_, h.newerPages hpages rfl, ?_⟩
    rw [flatten_map_entry, hflatten]
    exact once_shownInOrder

end Enumeration

section Structural

variable {options : PageOptions} {limit : Nat} {structuralTurnId threadId : String}

theorem Memory.page_structural {stored : Stored} (h : validatePageOptions options = .ok limit)
    (hstructural : options.structuralTurnId = some structuralTurnId) :
    Memory.page stored threadId options = .ok (.of (stored.usage threadId)
      ⟨(listing compareText compareText stored threadId options).take limit, false,
        limit < (listing compareText compareText stored threadId options).length⟩) := by
  have hwindow : Memory.page stored threadId options = .ok (.of (stored.usage threadId)
      ⟨((listing compareText compareText stored threadId options).take
          (min (listing compareText compareText stored threadId options).length (0 + limit))).drop 0, decide (0 < 0),
        min (listing compareText compareText stored threadId options).length (0 + limit) <
          (listing compareText compareText stored threadId options).length⟩) := by
    unfold Memory.page
    rw [h, hstructural]
    rfl
  have htake (xs : List Located) : (xs.take (min xs.length (0 + limit))).drop 0 = xs.take limit := by
    rw [List.drop_zero, min_comm, ← List.take_take, List.take_length, Nat.zero_add]
  have hmore (xs : List Located) : decide (min xs.length (0 + limit) < xs.length) = decide (limit < xs.length) := by
    rw [decide_eq_decide]
    omega
  rw [hwindow, htake, hmore]
  rfl

variable {Json : Type} {codec : UnitCodec Json} {order : TextOrder}

variable (order threadId) in
theorem Sql.page_structural (stores : Stores codec) (hcast : stores.Castable) (h : validatePageOptions options = .ok limit)
    (hstructural : options.structuralTurnId = some structuralTurnId) : ∃ hasNewer,
    Sql.page order codec stores.tables threadId options = .ok (.of (stores.tables.usage threadId)
      ⟨((listing order.compare Sql.compareC stores.memory threadId options).filter (within order options)).take limit, false,
        hasNewer⟩) ∧
      (options.before = none → options.after = none → hasNewer =
        decide (limit < (listing order.compare Sql.compareC stores.memory threadId options).length)) := by
  obtain ⟨kept, hkept⟩ : ∃ kept, kept =
      (listing order.compare Sql.compareC stores.memory threadId options).filter (within order options) := ⟨_, rfl⟩
  have hmem : ∀ located ∈ kept, located ∈ units stores.memory := fun located hlocated =>
    mem_units_of_mem_filter (hkept ▸ hlocated)
  have hmatching := toSorted_matching order threadId options stores fun _ => hcast
  rw [← hkept] at hmatching ⊢
  have hread : (((kept.map (rowOf codec)).take (limit + 1)).take limit).mapM (Sql.decodeEntry codec) =
      .ok ((kept.take limit).map fun located => some (decodedOf located)) := read_eq hmem
  have holdest : ¬(options.structuralTurnId = none ∧ options.after = none) := by
    rw [hstructural]
    simp
  unfold Sql.page
  rw [h]
  simp only [if_neg holdest]
  simp only [hmatching, hasExtra_eq, hstructural, Option.isSome_some, if_true, bind, Except.bind]
  rw [hread]
  simp only [decoded_eq, List.length_map]
  simp only [Page.of, List.map_map, List.head?_map, List.getLast?_map, Option.map_map]
  refine ⟨_, rfl, ?_⟩
  intro hbefore hafter
  have hall : kept = listing order.compare Sql.compareC stores.memory threadId options := by
    rw [hkept, List.filter_eq_self]
    intro located _
    rw [within, hafter, hbefore]
    rfl
  rw [hbefore, hafter, hall]
  rfl

end Structural

section Agreement

variable {options : PageOptions} {limit : Nat} {threadId : String} {Json : Type} {codec : UnitCodec Json} {order : TextOrder}

theorem sqlCompare_cursorFor {located : Located} {cursor : PageCursor}
    (h : order.compare located.stored.turn.id cursor.turnId = compareText located.stored.turn.id cursor.turnId) :
    sqlCompare order (cursorFor located) cursor = Memory.compareCursor (cursorFor located) cursor := by
  rw [sqlCompare, Memory.compareCursor, compareCursors_eq, compareCursors_eq, cursorFor, h]
  exact congrArg _ (congrArg _ (compareText_encodeUnitOrder located.unit.order cursor.orderKey).symm)

theorem toSorted_congr {compare compare' : Located → Located → Ordering} [Std.TransCmp compare] [Std.TransCmp compare']
    {xs : List Located} (h : ∀ x ∈ xs, ∀ y ∈ xs, compare x y = compare' x y)
    (hstrict : ∀ x ∈ xs, ∀ y ∈ xs, compare x y = .eq → x = y) : toSorted compare xs = toSorted compare' xs := by
  have hperm : (toSorted compare xs).Perm (toSorted compare' xs) :=
    (toSorted_perm compare xs).trans (toSorted_perm compare' xs).symm
  have hsorted : Sorted compare (toSorted compare' xs) := by
    refine List.Pairwise.imp_of_mem ?_ (@toSorted_sorted _ compare' _ xs)
    intro x y hx hy hle
    rwa [h x ((mem_toSorted _).mp hx) y ((mem_toSorted _).mp hy)]
  refine StableSort.eq_of_perm_of_sorted hperm (toSorted_sorted xs) hsorted fun x hx y hy => ?_
  exact hstrict x ((mem_toSorted _).mp hx) y ((mem_toSorted _).mp hy)

instance compareOn_cursorFor {compareId compareKey : String → String → Ordering} [Std.TransCmp compareId]
    [Std.TransCmp compareKey] :
    Std.TransCmp fun left right : Located => compareCursors compareId compareKey (cursorFor left) (cursorFor right) :=
  StableSort.compareOn_trans cursorFor (compareCursors compareId compareKey)

theorem listing_eq {stored : Stored} (h : ∀ left ∈ Memory.located stored threadId options,
    ∀ right ∈ Memory.located stored threadId options,
      order.compare left.stored.turn.id right.stored.turn.id = compareText left.stored.turn.id right.stored.turn.id) :
    listing order.compare Sql.compareC stored threadId options = listing compareText compareText stored threadId options := by
  refine toSorted_congr ?_ fun x hx y hy => eq_of_compare_located hx hy
  intro left hleft right hright
  rw [compareCursors_eq, compareCursors_eq]
  have hkey := compareText_encodeUnitOrder left.unit.order (encodeUnitOrder right.unit.order)
  rw [show order.compare (cursorFor left).turnId (cursorFor right).turnId =
    compareText (cursorFor left).turnId (cursorFor right).turnId from h left hleft right hright]
  exact congrArg _ (congrArg _ hkey.symm)

theorem window_congr {compare compare' : PageCursor → PageCursor → Ordering} (xs : List Located) (size : Nat)
    (h : ∀ cursor, options.before = some cursor ∨ options.after = some cursor →
      ∀ located, compare (cursorFor located) cursor = compare' (cursorFor located) cursor) :
    window compare cursorFor xs size (place options) = window compare' cursorFor xs size (place options) := by
  rw [place]
  cases hafter : options.after with
  | some after => simp only [window, h after (.inr hafter)]
  | none =>
    cases hbefore : options.before with
    | some before => simp only [window, h before (.inl hbefore)]
    | none => rfl

theorem page_eq_of_order (stores : Stores codec)
    (h : ∀ left right, ValidTurnId left → ValidTurnId right → order.compare left right = compareText left right)
    (hcursors : ∀ cursor, options.before = some cursor ∨ options.after = some cursor → ∀ left, ValidTurnId left →
      order.compare left cursor.turnId = compareText left cursor.turnId)
    (hvalid : validatePageOptions options = .ok limit) (hplain : options.structuralTurnId = none) :
    (Memory.page stores.memory threadId options).map Page.listed =
      (Sql.page order codec stores.tables threadId options).map Page.listed := by
  rw [Memory.page_eq hvalid hplain, Sql.page_eq stores hvalid hplain,
    listing_eq fun left _ right _ => h _ _ left.stored.valid right.stored.valid]
  exact congrArg (fun view => Except.ok (Page.of (stores.memory.usage threadId) view).listed)
    (window_congr _ _ fun cursor hcursor located => (sqlCompare_cursorFor (hcursors cursor hcursor _ located.stored.valid)).symm)

theorem page_eq_of_structural (stores : Stores codec) (hcast : stores.Castable) {structuralTurnId : String}
    (hvalid : validatePageOptions options = .ok limit) (hstructural : options.structuralTurnId = some structuralTurnId)
    (hbefore : options.before = none) (hafter : options.after = none) :
    (Memory.page stores.memory threadId options).map Page.listed =
      (Sql.page order codec stores.tables threadId options).map Page.listed := by
  obtain ⟨hasNewer, hpage, hlast⟩ := Sql.page_structural threadId order stores hcast hvalid hstructural
  have hall : within order options = fun _ => true := by
    funext located
    rw [within, hafter, hbefore]
    rfl
  have hturn : ∀ located ∈ Memory.located stores.memory threadId options, located.stored.turn.id = structuralTurnId := by
    intro located hlocated
    rw [located_eq_filter] at hlocated
    have hshown := (List.mem_filter.mp hlocated).2
    rw [shown, Bool.and_eq_true, Memory.isStructural, hstructural] at hshown
    have htarget := hshown.2
    rw [Option.all_some, Bool.and_eq_true, decide_eq_true_iff] at htarget
    exact htarget.1
  have hlisting : listing order.compare Sql.compareC stores.memory threadId options =
      listing compareText compareText stores.memory threadId options := by
    refine listing_eq fun left hleft right hright => ?_
    rw [hturn left hleft, hturn right hright]
    exact Std.ReflCmp.compare_self.trans Std.ReflCmp.compare_self.symm
  rw [Memory.page_structural hvalid hstructural, hpage, hall, hlast hbefore hafter, hlisting, List.filter_true]
  rfl

/-- Requests that are refused, of a listing where both stores order the ids of turns alike, or structural ones without a
cursor. -/
def Alike (order : TextOrder) (options : PageOptions) : Prop :=
  match validatePageOptions options, options.structuralTurnId with
  | .error _, _ => True
  | .ok _, none => ∀ left right, ValidTurnId left → ValidTurnId right → order.compare left right = compareText left right
  | .ok _, some _ => options.before = none ∧ options.after = none

theorem page_eq_of_alike (stores : Stores codec) (hoptions : options.Valid)
    (hcast : options.structuralTurnId.isSome = true → stores.Castable) (h : Alike order options) :
    (Memory.page stores.memory threadId options).map Page.listed =
      (Sql.page order codec stores.tables threadId options).map Page.listed := by
  rw [Alike] at h
  cases hvalid : validatePageOptions options with
  | error message =>
    rw [Memory.page, Sql.page, hvalid]
    rfl
  | ok limit =>
    rw [hvalid] at h
    cases hstructural : options.structuralTurnId with
    | none =>
      rw [hstructural] at h
      exact page_eq_of_order stores h (fun cursor hcursor left hleft => h left _ hleft (hoptions.cursors cursor hcursor))
        hvalid hstructural
    | some structuralTurnId =>
      rw [hstructural] at h
      exact page_eq_of_structural stores (hcast (by rw [hstructural]; rfl)) hvalid hstructural h.1 h.2

end Agreement

section Stored

theorem plainKey_ne : "unit" ≠ "" := by decide

def plainOrder : TranscriptUnit.UnitOrder :=
  ⟨[⟨0, 0, "unit", Int.negSucc_le_zero 0, Int.natCast_nonneg _, Nat.zero_le _, plainKey_ne⟩], List.cons_ne_nil _ _⟩

def plain (id : String) : TranscriptUnit.Unit := ⟨id, id, none, none, plainOrder, 0, none, .entry .user ""⟩

section

variable (threadId : String) (id : TurnId) (createdAt : Finite) (projectionVersion : Nat)

def plainTurn : StoredTurn where
  turn := ⟨id, threadId, "", .human, .original, createdAt, createdAt, .recordedShell "" .running⟩
  projection :=
    { units := [plain id]
      checkpointGeneration := 0
      revision := 0
      state := ⟨.running, none, Usage.emptyUsageState, ⟨none, none⟩⟩
      projectionVersion := projectionVersion
      projectorCheckpoint := none }
  valid := id.property
  owned unit hunit := by
    rw [List.mem_singleton.mp hunit]
    rfl
  orders := List.nodup_singleton _

def Stores.of {Json : Type} (codec : UnitCodec Json) (stored : Stored) : Stores codec where
  memory := stored
  tables :=
    { units := stored.turns.rows.flatMap fun turn => turn.projection.units.map (Sql.unitRow codec turn)
      checkpoints := ⟨stored.turns.rows.map Sql.checkpointRow, by rw [List.map_map]; exact stored.turns.unique⟩
      turns := ⟨stored.turns.rows.map (·.turn), by rw [List.map_map]; exact stored.turns.unique⟩
      usage := stored.usage }
  units := .refl _
  checkpoints _ h := List.mem_map_of_mem h
  turns _ h := List.mem_map_of_mem h

def emptyUsage : Selection.UsageSummary := ⟨Usage.emptyUsageState, none⟩

def twoTurns (threadId : String) (left right : TurnId) (createdAt : Finite) (projectionVersion : Nat) (h : left ≠ right) :
    Stored where
  turns := ⟨[plainTurn threadId left createdAt projectionVersion, plainTurn threadId right createdAt projectionVersion], by
    simp [plainTurn, Subtype.coe_inj, h]⟩
  usage _ := emptyUsage

def oneTurn : Stored where
  turns := ⟨[plainTurn threadId id createdAt projectionVersion], List.nodup_singleton _⟩
  usage _ := emptyUsage

def plainUnit : Located where
  stored := plainTurn threadId id createdAt projectionVersion
  unit := plain id

end

abbrev PageOptions.version (options : PageOptions) : Nat := options.projectionVersion.getD 0

variable {options : PageOptions} {threadId : String} {left right : TurnId} {createdAt : Finite}
  {compareId compareKey : String → String → Ordering}

theorem castable_oneTurn {Json : Type} {codec : UnitCodec Json} {version : Nat} :
    (Stores.of codec (oneTurn threadId left createdAt version)).Castable := by
  intro stored hstored unit hunit
  rw [List.mem_singleton.mp hstored] at hunit
  rw [List.mem_singleton.mp hunit]
  refine codec.castable_entry (plain left) .user "" rfl ?_
  have htexts : texts (plain left) = [left.val, left.val, "unit"] := rfl
  rw [htexts]
  have hid := nul_notMem left.property
  simp [hid]

theorem shown_plainUnit (h : ∀ structuralTurnId, options.structuralTurnId = some structuralTurnId → left = structuralTurnId) :
    shown threadId options (plainUnit threadId left createdAt options.version) = true := by
  have hversion : (options.projectionVersion.all fun version => options.version = version) = true := by
    rw [PageOptions.version]
    cases options.projectionVersion with
    | none => rfl
    | some version => exact decide_eq_true rfl
  have hstructural (stored : StoredTurn) (unit : TranscriptUnit.Unit) (hid : stored.turn.id = left) (hroot : unit.parentId = none) :
      Memory.isStructural options.structuralTurnId stored unit = true := by
    rw [Memory.isStructural]
    cases hoption : options.structuralTurnId with
    | none => rfl
    | some structuralTurnId =>
      rw [Option.all_some, hid, hroot, h structuralTurnId hoption]
      simp
  rw [shown, Bool.and_eq_true, Bool.and_eq_true, Bool.and_eq_true, decide_eq_true_iff, decide_eq_true_iff]
  exact ⟨⟨⟨rfl, Status.noConfusion⟩, hversion⟩, hstructural _ _ rfl rfl⟩

theorem listing_oneTurn (h : ∀ structuralTurnId, options.structuralTurnId = some structuralTurnId → left = structuralTurnId) :
    listing compareId compareKey (oneTurn threadId left createdAt options.version) threadId options =
      [plainUnit threadId left createdAt options.version] := by
  have hunits : units (oneTurn threadId left createdAt options.version) =
      [plainUnit threadId left createdAt options.version] := rfl
  rw [listing, located_eq_filter, hunits, List.filter_cons_of_pos (shown_plainUnit h)]
  rfl

theorem compare_plainUnit {version : Nat} :
    compareCursors compareId compareKey (cursorFor (plainUnit threadId left createdAt version))
        (cursorFor (plainUnit threadId right createdAt version)) =
      (compareId left right).then (compareKey (encodeUnitOrder plainOrder) (encodeUnitOrder plainOrder)) := by
  have hcreated : compare createdAt createdAt = .eq := compare_eq_iff_eq.mpr rfl
  rw [compareCursors_eq]
  exact congrArg (fun o => Ordering.then o _) hcreated

theorem toSorted_pair (compare : Located → Located → Ordering) (x y : Located) :
    toSorted compare [x, y] = if (compare x y).isLE = true then [x, y] else [y, x] := rfl

section

variable (hne : left ≠ right) (hplain : options.structuralTurnId = none)

include hplain

theorem listing_twoTurns :
    listing compareId compareKey (twoTurns threadId left right createdAt options.version hne) threadId options =
      let first := plainUnit threadId left createdAt options.version
      let second := plainUnit threadId right createdAt options.version
      if (compareCursors compareId compareKey (cursorFor first) (cursorFor second)).isLE = true then [first, second]
      else [second, first] := by
  have hunits : units (twoTurns threadId left right createdAt options.version hne) =
      [plainUnit threadId left createdAt options.version, plainUnit threadId right createdAt options.version] := rfl
  have hnone (id structuralTurnId : String) (h : options.structuralTurnId = some structuralTurnId) : id = structuralTurnId := by
    rw [hplain] at h
    cases h
  rw [listing, located_eq_filter, hunits, List.filter_cons_of_pos (shown_plainUnit (hnone left)),
    List.filter_cons_of_pos (shown_plainUnit (hnone right)), List.filter_nil]
  exact toSorted_pair _ _ _

theorem listing_of_lt (h : compareId left right = .lt) :
    listing compareId compareKey (twoTurns threadId left right createdAt options.version hne) threadId options =
      [plainUnit threadId left createdAt options.version, plainUnit threadId right createdAt options.version] := by
  rw [listing_twoTurns hne hplain]
  dsimp only
  rw [compare_plainUnit, h]
  rfl

theorem listing_of_gt (h : compareId left right = .gt) :
    listing compareId compareKey (twoTurns threadId left right createdAt options.version hne) threadId options =
      [plainUnit threadId right createdAt options.version, plainUnit threadId left createdAt options.version] := by
  rw [listing_twoTurns hne hplain]
  dsimp only
  rw [compare_plainUnit, h]
  rfl

end

def beside (options : PageOptions) : Finite :=
  match options.after, options.before with
  | some cursor, _ => cursor.createdAt + 1
  | none, some cursor => cursor.createdAt - 1
  | none, none => 0

variable {limit : Nat}

variable (compareId compareKey) in
theorem window_beside {xs : List Located} (h : ∀ located ∈ xs, located.stored.turn.createdAt = beside options) (hlimit : 0 < limit) :
    (options.after = none → (window (compareCursors compareId compareKey) cursorFor xs limit (place options)).items.getLast? =
      xs.getLast?) ∧
    (options.after ≠ none → (window (compareCursors compareId compareKey) cursorFor xs limit (place options)).items.head? =
      xs.head?) := by
  have hdrop : (xs.drop (xs.length - limit)).getLast? = xs.getLast? := by
    rw [List.getLast?_drop]
    split
    · next hle =>
      have hnil : xs = [] := List.eq_nil_of_length_eq_zero (by omega)
      rw [hnil]
      rfl
    · rfl
  have htake : (xs.take limit).head? = xs.head? := by
    rw [List.head?_take, if_neg (by omega)]
  rw [place]
  cases hafter : options.after with
  | some after =>
    refine ⟨fun hnone => absurd hnone (by simp), fun _ => ?_⟩
    have hfilter : xs.filter (fun x => compareCursors compareId compareKey (cursorFor x) after = .gt) = xs := by
      refine List.filter_eq_self.mpr fun located hlocated => decide_eq_true ?_
      have hcreated : located.stored.turn.createdAt = after.createdAt + 1 := by
        rw [h located hlocated, beside, hafter]
      rw [compareCursors_eq]
      have hgt : compare located.stored.turn.createdAt after.createdAt = .gt := by
        rw [compare_gt_iff_gt, hcreated]
        exact lt_add_one _
      exact congrArg (fun o => Ordering.then o _) hgt
    dsimp only [window]
    rw [hfilter, htake]
  | none =>
    refine ⟨fun _ => ?_, fun hsome => absurd rfl hsome⟩
    cases hbefore : options.before with
    | none => exact hdrop
    | some before =>
      have hfilter : xs.filter (fun x => compareCursors compareId compareKey (cursorFor x) before = .lt) = xs := by
        refine List.filter_eq_self.mpr fun located hlocated => decide_eq_true ?_
        have hcreated : located.stored.turn.createdAt = before.createdAt - 1 := by
          rw [h located hlocated, beside, hafter, hbefore]
        rw [compareCursors_eq]
        have hlt : compare located.stored.turn.createdAt before.createdAt = .lt := by
          rw [compare_lt_iff_lt, hcreated]
          exact sub_one_lt _
        exact congrArg (fun o => Ordering.then o _) hlt
      dsimp only [window]
      rw [hfilter, hdrop]

end Stored

section Difference

variable {options : PageOptions} {limit : Nat} {threadId : String} {Json : Type} {codec : UnitCodec Json} {order : TextOrder}

variable {compareId compareKey : String → String → Ordering} {left right : TurnId} {located : Located}

theorem ends_eq {compareId' compareKey' : String → String → Ordering} {xs ys : List Located}
    {usage usage' : Selection.UsageSummary} (hxs : ∀ located ∈ xs, located.stored.turn.createdAt = beside options)
    (hys : ∀ located ∈ ys, located.stored.turn.createdAt = beside options) (hlimit : 0 < limit)
    (h : (Page.of usage (window (compareCursors compareId compareKey) cursorFor xs limit (place options))).listed =
      (Page.of usage' (window (compareCursors compareId' compareKey') cursorFor ys limit (place options))).listed) :
    xs.getLast?.map cursorFor = ys.getLast?.map cursorFor ∨ xs.head?.map cursorFor = ys.head?.map cursorFor := by
  obtain ⟨hxlast, hxfirst⟩ := window_beside compareId compareKey hxs hlimit
  obtain ⟨hylast, hyfirst⟩ := window_beside compareId' compareKey' hys hlimit
  by_cases hafter : options.after = none
  · left
    have hnewest := congrArg (·.2.2.2.2) h
    rwa [Page.listed, Page.listed, Page.of, Page.of, hxlast hafter, hylast hafter] at hnewest
  · right
    have holdest := congrArg (·.2.2.2.1) h
    rwa [Page.listed, Page.listed, Page.of, Page.of, hxfirst hafter, hyfirst hafter] at holdest

theorem createdAt_of_mem_listing (hne : left ≠ right) {createdAt : Finite} {version : Nat}
    (h : located ∈ listing compareId compareKey (twoTurns threadId left right createdAt version hne) threadId options) :
    located.stored.turn.createdAt = createdAt := by
  have hstored := (mem_units.mp (mem_listing.mp h).1).1
  rcases List.mem_pair.mp hstored with hturn | hturn
  · rw [hturn]
    rfl
  · rw [hturn]
    rfl

variable (threadId codec) in
/-- Where the stores order two ids otherwise, a page of two turns begins or ends with another unit. -/
theorem page_ne_of_order (hne : order.compare left right ≠ compareText left right)
    (hvalid : validatePageOptions options = .ok limit) (hplain : options.structuralTurnId = none) :
    ∃ stores : Stores codec, (Memory.page stores.memory threadId options).map Page.listed ≠
      (Sql.page order codec stores.tables threadId options).map Page.listed := by
  have hids : left ≠ right := by
    intro heq
    rw [heq] at hne
    exact hne (Std.ReflCmp.compare_self.trans Std.ReflCmp.compare_self.symm)
  have hmemory : compareText left right ≠ .eq := fun h => hids (Subtype.ext (Std.LawfulEqCmp.eq_of_compare h))
  have hsql : order.compare left right ≠ .eq := fun h => hids (Subtype.ext (Std.LawfulEqCmp.eq_of_compare h))
  refine ⟨.of codec (twoTurns threadId left right (beside options) options.version hids), fun hpage => ?_⟩
  rw [Memory.page_eq hvalid hplain, Sql.page_eq _ hvalid hplain] at hpage
  have hpages := Except.ok.inj hpage
  have hends := ends_eq (fun _ => createdAt_of_mem_listing hids) (fun _ => createdAt_of_mem_listing hids)
    (validatePageOptions_pos hvalid) hpages
  have hcursors : cursorFor (plainUnit threadId left (beside options) options.version) ≠
      cursorFor (plainUnit threadId right (beside options) options.version) := fun heq =>
    hids (Subtype.ext (congrArg PageCursor.turnId heq))
  cases hmemoryOrder : compareText left right with
  | eq => exact hmemory hmemoryOrder
  | lt =>
    have hsqlOrder : order.compare left right = .gt := by
      cases horder : order.compare left right with
      | eq => exact absurd horder hsql
      | lt => exact absurd (horder.trans hmemoryOrder.symm) hne
      | gt => rfl
    rw [listing_of_lt hids hplain hmemoryOrder, listing_of_gt hids hplain hsqlOrder] at hends
    rcases hends with hlast | hfirst
    · exact hcursors (Option.some.inj hlast).symm
    · exact hcursors (Option.some.inj hfirst)
  | gt =>
    have hsqlOrder : order.compare left right = .lt := by
      cases horder : order.compare left right with
      | eq => exact absurd horder hsql
      | lt => rfl
      | gt => exact absurd (horder.trans hmemoryOrder.symm) hne
    rw [listing_of_gt hids hplain hmemoryOrder, listing_of_lt hids hplain hsqlOrder] at hends
    rcases hends with hlast | hfirst
    · exact hcursors (Option.some.inj hlast)
    · exact hcursors (Option.some.inj hfirst).symm

def outside (options : PageOptions) : Finite :=
  match options.after, options.before with
  | some cursor, _ => cursor.createdAt - 1
  | none, some cursor => cursor.createdAt + 1
  | none, none => 0

theorem not_within_outside (hcreated : located.stored.turn.createdAt = outside options)
    (h : ¬(options.before = none ∧ options.after = none)) : within order options located = false := by
  rw [within]
  cases hafter : options.after with
  | some after =>
    have hlt : compare located.stored.turn.createdAt after.createdAt = .lt := by
      rw [compare_lt_iff_lt, hcreated, outside, hafter]
      exact sub_one_lt _
    have hcompare : sqlCompare order (cursorFor located) after = .lt := by
      rw [sqlCompare, compareCursors_eq]
      exact congrArg (fun o => Ordering.then o _) hlt
    rw [Option.all_some, hcompare]
    rfl
  | none =>
    cases hbefore : options.before with
    | none => exact absurd ⟨hbefore, hafter⟩ h
    | some before =>
      have hgt : compare located.stored.turn.createdAt before.createdAt = .gt := by
        rw [compare_gt_iff_gt, hcreated, outside, hafter, hbefore]
        exact lt_add_one _
      have hcompare : sqlCompare order (cursorFor located) before = .gt := by
        rw [sqlCompare, compareCursors_eq]
        exact congrArg (fun o => Ordering.then o _) hgt
      rw [Option.all_some, Option.all_none, hcompare]
      rfl

variable (threadId codec order) in
/-- A structural page of the memory store shows a unit that the cursor of the page leaves out in the other store. -/
theorem page_ne_of_structural {structuralTurnId : TurnId} (hvalid : validatePageOptions options = .ok limit)
    (hstructural : options.structuralTurnId = some structuralTurnId.val) (h : ¬(options.before = none ∧ options.after = none)) :
    ∃ stores : Stores codec, stores.Castable ∧ (Memory.page stores.memory threadId options).map Page.listed ≠
      (Sql.page order codec stores.tables threadId options).map Page.listed := by
  have htarget (other : String) (hother : options.structuralTurnId = some other) : structuralTurnId.val = other :=
    Option.some.inj (hstructural.symm.trans hother)
  refine ⟨.of codec (oneTurn threadId structuralTurnId (outside options) options.version), castable_oneTurn,
    fun hpage => ?_⟩
  obtain ⟨hasNewer, hsql, -⟩ := Sql.page_structural threadId order
    (Stores.of codec (oneTurn threadId structuralTurnId (outside options) options.version)) castable_oneTurn hvalid
    hstructural
  rw [Memory.page_structural hvalid hstructural, hsql] at hpage
  have hentries := congrArg Prod.fst (Except.ok.inj hpage)
  have hkept : ([plainUnit threadId structuralTurnId (outside options) options.version] : List Located).filter
      (within order options) = [] := by
    rw [List.filter_singleton, not_within_outside rfl h]
    rfl
  have hstored : (Stores.of codec (oneTurn threadId structuralTurnId (outside options) options.version)).memory =
    oneTurn threadId structuralTurnId (outside options) options.version := rfl
  rw [hstored, listing_oneTurn htarget, listing_oneTurn htarget, hkept, List.take_nil] at hentries
  have hlength := congrArg List.length hentries
  simp only [Page.listed, Page.of, List.length_map, List.length_take, List.length_singleton, List.length_nil] at hlength
  have hpos := validatePageOptions_pos hvalid
  omega

end Difference

variable {Json : Type}

/-- Both stores list the units of turns that are not queued once; and their pages are the same but for the usage just where
their orders agree, of units that `jsonb` takes where the page is structural. -/
theorem paging_iff (codec : UnitCodec Json) (order : TextOrder) (threadId : String) (options : PageOptions)
    (hoptions : options.Valid) :
    (∀ stores : Stores codec,
      (∀ size projectionVersion,
        Enumerates Memory.compareCursor (Memory.page stores.memory threadId) (listOptions size projectionVersion)
            (entriesOf stores.memory threadId projectionVersion) ∧
          Enumerates (sqlCompare order) (Sql.page order codec stores.tables threadId) (listOptions size projectionVersion)
            (entriesOf stores.memory threadId projectionVersion)) ∧
        ((options.structuralTurnId.isSome = true → stores.Castable) →
          (Memory.page stores.memory threadId options).map Page.listed =
            (Sql.page order codec stores.tables threadId options).map Page.listed)) ↔
      Alike order options := by
  constructor
  · intro h
    rw [Alike]
    cases hvalid : validatePageOptions options with
    | error message => trivial
    | ok limit =>
      cases hstructural : options.structuralTurnId with
      | none =>
        intro left right hleft hright
        by_contra hne
        obtain ⟨stores, hpage⟩ := @page_ne_of_order options limit threadId Json codec order ⟨left, hleft⟩ ⟨right, hright⟩ hne
          hvalid hstructural
        exact hpage ((h stores).2 fun hsome => by simp [hstructural] at hsome)
      | some structuralTurnId =>
        by_contra hcursors
        obtain ⟨stores, hcast, hpage⟩ := @page_ne_of_structural options limit threadId Json codec order
          ⟨structuralTurnId, hoptions.structural _ hstructural⟩ hvalid hstructural hcursors
        exact hpage ((h stores).2 fun _ => hcast)
  · intro h stores
    refine ⟨fun size projectionVersion => ⟨?_, ?_⟩, fun hcast => page_eq_of_alike stores hoptions hcast h⟩
    · exact Windowed.memory.enumerates
    · exact (Windowed.sql order stores).enumerates

def plainCodec : UnitCodec TranscriptUnit.Unit :=
  ⟨id, some, blockTag, fun _ => True, fun _ => rfl, fun _ _ => rfl, fun _ _ _ _ _ => trivial⟩

/-- The order of a database whose collation is "C". -/
def orderC : TextOrder := ⟨⟨Sql.compareC, inferInstance⟩, fun _ _ => Std.LawfulEqCmp.eq_of_compare⟩

theorem compareC_eq_compareText {left : String} (h : ValidTurnId left) (right : String) :
    Sql.compareC left right = compareText left right :=
  (TranscriptUnit.compareLex_ascii left.toList right.toList fun c hc => Nat.lt_succ_of_lt (Nat.lt_succ_of_le (h.2 c hc).2)).symm

theorem alike_orderC {options : PageOptions} (hplain : options.structuralTurnId = none) : Alike orderC options := by
  rw [Alike, hplain]
  cases validatePageOptions options with
  | error message => trivial
  | ok limit => exact fun left right hleft _ => compareC_eq_compareText hleft right

theorem valid_turn : ValidTurnId "turn" := ⟨by decide +kernel, by simp⟩

def laterOptions : PageOptions := { after := some ⟨1, "turn", encodeUnitOrder plainOrder⟩, limit := some 1 }

theorem paging_iff_sample : laterOptions.Valid ∧ Alike orderC laterOptions ∧ ∀ stores : Stores plainCodec,
    (Memory.page stores.memory "thread" laterOptions).map Page.listed =
      (Sql.page orderC plainCodec stores.tables "thread" laterOptions).map Page.listed := by
  have hvalid : laterOptions.Valid := by
    constructor
    · rintro cursor (h | h)
      · cases h
      · cases h
        exact valid_turn
    · rintro turnId ⟨⟩
  have halike : Alike orderC laterOptions := alike_orderC rfl
  exact ⟨hvalid, halike, fun stores =>
    ((paging_iff plainCodec orderC "thread" laterOptions hvalid).mpr halike stores).2 fun h => by cases h⟩

def sampleOptions : PageOptions :=
  { after := some ⟨1, "turn", encodeUnitOrder plainOrder⟩, limit := some 1, structuralTurnId := some "turn" }

def sampleStores : Stores plainCodec := .of plainCodec (oneTurn "thread" ⟨"turn", valid_turn⟩ 1 0)

/-- The memory store returns the unit again and the SQL store returns none. -/
theorem sample_page_differs : sampleOptions.Valid ∧ sampleStores.Castable ∧
      (Memory.page sampleStores.memory "thread" sampleOptions).toOption.map (·.entries.length) = some 1 ∧
      (Sql.page .codePoint plainCodec sampleStores.tables "thread" sampleOptions).toOption.map (·.entries.length) = some 0 ∧
      Memory.page sampleStores.memory "thread" sampleOptions ≠
        Sql.page .codePoint plainCodec sampleStores.tables "thread" sampleOptions := by
  have hmemory : (Memory.page sampleStores.memory "thread" sampleOptions).toOption.map (·.entries.length) = some 1 := by
    decide +kernel
  have hsql : (Sql.page .codePoint plainCodec sampleStores.tables "thread" sampleOptions).toOption.map (·.entries.length) =
      some 0 := by
    decide +kernel
  have hvalid : sampleOptions.Valid := by
    constructor
    · rintro cursor (h | h)
      · cases h
      · cases h
        exact valid_turn
    · rintro turnId ⟨⟩
      exact valid_turn
  refine ⟨hvalid, castable_oneTurn, hmemory, hsql, fun heq => ?_⟩
  rw [heq, hsql] at hmemory
  cases hmemory

end Rika.TranscriptPages
