import Rika.TranscriptPages

namespace Rika.TranscriptUnit

def isAscii (c : Char) : Prop := c.toNat < 128

theorem isAscii_digitChar {digit : Nat} (h : digit < 16) : isAscii digit.digitChar := by
  rw [isAscii]
  interval_cases digit <;> decide

variable {c : Char}

theorem isAscii_padStart {base width n : Nat} (hbase : 1 < base) (hle : base ≤ 16)
    (h : c ∈ padStart width (Nat.toDigits base n)) : isAscii c := by
  rw [padStart, List.leftpad, List.mem_append, Lexicographic.toDigits_eq hbase] at h
  rcases h with h | h
  · rw [List.eq_of_mem_replicate h]
    exact isAscii_digitChar (Nat.zero_lt_succ 15)
  · obtain ⟨digit, hdigit, rfl⟩ := List.mem_map.mp h
    exact isAscii_digitChar (Nat.lt_of_lt_of_le (Lexicographic.mem_digits_lt hbase hdigit) hle)

theorem isAscii_encodeUnitOrder {order : UnitOrder} (h : c ∈ (encodeUnitOrder order).toList) : isAscii c := by
  rw [encodeUnitOrder, String.toList_ofList] at h
  obtain ⟨segment, -, hsegment⟩ := List.mem_flatMap.mp h
  rw [encodeSegment, List.mem_append, List.mem_append] at hsegment
  rcases hsegment with (hsequence | hpart) | hkey
  · exact isAscii_padStart (by omega) (by omega) hsequence
  · exact isAscii_padStart (by omega) (by omega) hpart
  · rw [encodeKey, List.mem_append] at hkey
    rcases hkey with hcode | hslash
    · obtain ⟨code, -, hdigits⟩ := List.mem_flatMap.mp hcode
      exact isAscii_padStart (by omega) (by omega) hdigits
    · rw [List.mem_singleton.mp hslash, isAscii]
      decide

theorem charCodes_ascii (h : isAscii c) : charCodes c = [c.toNat] := by
  rw [isAscii] at h
  rw [charCodes, if_pos (by omega)]

theorem exists_charCodes (c : Char) : ∃ code rest, charCodes c = code :: rest ∧ code < 65536 ∧
    (c.toNat < 128 → code = c.toNat ∧ rest = []) ∧ (128 ≤ c.toNat → 128 ≤ code) := by
  have hc := WideText.toNat_lt c
  by_cases hlow : c.toNat < 0x10000
  · refine ⟨c.toNat, [], by rw [charCodes, if_pos hlow], hlow, fun _ => ⟨rfl, rfl⟩, fun h => h⟩
  · refine ⟨_, _, by rw [charCodes, if_neg hlow], by omega, by omega, by omega⟩

theorem compare_char (c d : Char) : compare c d = compare c.toNat d.toNat := by
  have heq : c = d ↔ c.toNat = d.toNat := Char.toNat_inj.symm
  have hlt : c < d ↔ c.toNat < d.toNat := Iff.rfl
  change compareOfLessAndEq c d = compareOfLessAndEq c.toNat d.toNat
  simp only [compareOfLessAndEq, heq, hlt]

theorem compareLex_ascii (left right : List Char) (h : ∀ c ∈ left, isAscii c) :
    ((left.flatMap charCodes).map codeUnit).compareLex compare ((right.flatMap charCodes).map codeUnit) =
      left.compareLex compare right := by
  induction left generalizing right with
  | nil =>
    cases right with
    | nil => rfl
    | cons d right =>
      obtain ⟨code, rest, hcodes, -, -, -⟩ := exists_charCodes d
      rw [List.flatMap_cons, hcodes]
      rfl
  | cons c left ih =>
    have hc : isAscii c := h c List.mem_cons_self
    have hrest : ∀ c ∈ left, isAscii c := fun d hd => h d (List.mem_cons_of_mem _ hd)
    cases right with
    | nil =>
      rw [List.flatMap_cons, charCodes_ascii hc]
      rfl
    | cons d right =>
      obtain ⟨code, rest, hcodes, hcode, hascii, hhigh⟩ := exists_charCodes d
      rw [List.flatMap_cons, List.flatMap_cons, charCodes_ascii hc, hcodes, List.singleton_append, List.cons_append,
        List.map_cons, List.map_cons, List.compareLex_cons_cons, List.compareLex_cons_cons]
      rw [isAscii] at hc
      have hunits : compare (codeUnit c.toNat) (codeUnit code) = compare c.toNat code := by
        change compare (c.toNat % 65536) (code % 65536) = _
        rw [Nat.mod_eq_of_lt hcode, Nat.mod_eq_of_lt (by omega)]
      rw [hunits, compare_char]
      by_cases hd : d.toNat < 128
      · obtain ⟨rfl, rfl⟩ := hascii hd
        rw [List.nil_append, ih right hrest]
      · have hlt : compare c.toNat code = .lt := Nat.compare_eq_lt.mpr (by have := hhigh (by omega); omega)
        have hlt' : compare c.toNat d.toNat = .lt := Nat.compare_eq_lt.mpr (by omega)
        rw [hlt, hlt']
        rfl

end Rika.TranscriptUnit

namespace Rika.TranscriptPages

open StableSort (compareOn_trans toSorted)
open ThreadView (PageCursor)
open TranscriptUnit (encodeUnitOrder)
open WindowPages (Place Window window)
open Memory (Located cursorFor)

instance : Std.TransCmp compareText := compareOn_trans TranscriptUnit.codeUnits (List.compareLex compare)

instance : Std.TransCmp Sql.compareC := compareOn_trans String.toList (List.compareLex compare)

instance : Std.LawfulEqCmp compareText where
  eq_of_compare {left right} h := by
    have hunits : (TranscriptUnit.codeUnits left).compareLex compare (TranscriptUnit.codeUnits right) = .eq := h
    exact TranscriptUnit.codeUnits_injective (Std.LawfulEqCmp.eq_of_compare hunits)

instance : Std.LawfulEqCmp Sql.compareC where
  eq_of_compare {left right} h := by
    have hchars : left.toList.compareLex compare right.toList = .eq := h
    exact String.toList_inj.mp (Std.LawfulEqCmp.eq_of_compare hchars)

instance (order : TextOrder) : Std.LawfulEqCmp order.compare where
  eq_of_compare h := order.eq_of_compare _ _ h

theorem compareText_encodeUnitOrder (order : TranscriptUnit.UnitOrder) (right : String) :
    compareText (encodeUnitOrder order) right = Sql.compareC (encodeUnitOrder order) right :=
  TranscriptUnit.compareLex_ascii _ _ fun _ => TranscriptUnit.isAscii_encodeUnitOrder

section Cursors

variable {compareId compareKey : String → String → Ordering}

instance [Std.TransCmp compareId] [Std.TransCmp compareKey] : Std.TransCmp (compareCursors compareId compareKey) :=
  have : Std.TransCmp fun left right : PageCursor => compareId left.turnId right.turnId :=
    compareOn_trans PageCursor.turnId compareId
  have : Std.TransCmp fun left right : PageCursor => compareKey left.orderKey right.orderKey :=
    compareOn_trans PageCursor.orderKey compareKey
  have : Std.TransCmp fun left right : PageCursor => compare left.createdAt right.createdAt :=
    compareOn_trans PageCursor.createdAt compare
  inferInstanceAs (Std.TransCmp (compareLex _ (compareLex _ _)))

instance : Std.TransCmp Memory.compareCursor := inferInstanceAs (Std.TransCmp (compareCursors compareText compareText))

theorem compareCursors_eq (left right : PageCursor) : compareCursors compareId compareKey left right =
    (compare left.createdAt right.createdAt).then
      ((compareId left.turnId right.turnId).then (compareKey left.orderKey right.orderKey)) := rfl

variable [Std.LawfulEqCmp compareId] [Std.LawfulEqCmp compareKey]

theorem compareCursors_eq_eq {left right : PageCursor} : compareCursors compareId compareKey left right = .eq ↔ left = right := by
  obtain ⟨createdAt, turnId, orderKey⟩ := left
  obtain ⟨createdAt', turnId', orderKey'⟩ := right
  rw [compareCursors_eq, Ordering.then_eq_eq, Ordering.then_eq_eq, compare_eq_iff_eq, Std.LawfulEqCmp.compare_eq_iff_eq,
    Std.LawfulEqCmp.compare_eq_iff_eq, PageCursor.mk.injEq]

end Cursors

def units (stored : Stored) : List Located :=
  stored.turns.rows.flatMap fun turn => turn.projection.units.map (⟨turn, ·⟩)

section Units

variable {stored : Stored} {left right : Located}

theorem mem_units {located : Located} :
    located ∈ units stored ↔ located.stored ∈ stored.turns.rows ∧ located.unit ∈ located.stored.projection.units := by
  obtain ⟨turn, unit⟩ := located
  constructor
  · intro h
    obtain ⟨turn', hturn, hunit⟩ := List.mem_flatMap.mp h
    obtain ⟨unit', hmem, heq⟩ := List.mem_map.mp hunit
    cases heq
    exact ⟨hturn, hmem⟩
  · intro h
    exact List.mem_flatMap.mpr ⟨turn, h.1, List.mem_map.mpr ⟨unit, h.2, rfl⟩⟩

theorem eq_of_cursorFor (hleft : left ∈ units stored) (hright : right ∈ units stored) (h : cursorFor left = cursorFor right) :
    left = right := by
  obtain ⟨turn, unit⟩ := left
  obtain ⟨turn', unit'⟩ := right
  obtain ⟨hturn, hunit⟩ := mem_units.mp hleft
  obtain ⟨hturn', hunit'⟩ := mem_units.mp hright
  rw [cursorFor, cursorFor, PageCursor.mk.injEq] at h
  obtain ⟨-, hid, hkey⟩ := h
  obtain rfl : turn = turn' := stored.turns.eq_of_key_eq hturn hturn' hid
  obtain rfl : unit = unit' := List.inj_on_of_nodup_map turn.orders hunit hunit' hkey
  rfl

theorem nodup_units : (units stored).Nodup := by
  rw [units, List.nodup_flatMap]
  constructor
  · intro turn _
    refine (List.Nodup.of_map _ turn.orders).map fun unit unit' h => ?_
    exact (Located.mk.inj h).2
  · refine (List.Nodup.of_map _ stored.turns.unique).imp fun {turn turn'} hne => ?_
    intro located hleft hright
    obtain ⟨_, -, rfl⟩ := List.mem_map.mp hleft
    obtain ⟨_, -, heq⟩ := List.mem_map.mp hright
    exact hne (Located.mk.inj heq).1.symm

def shown (threadId : String) (options : PageOptions) (located : Located) : Bool :=
  located.stored.turn.threadId = threadId && located.stored.turn.status ≠ .queued &&
    (options.projectionVersion.all fun version => located.stored.projection.projectionVersion = version) &&
      Memory.isStructural options.structuralTurnId located.stored located.unit

theorem located_eq_filter (threadId : String) (options : PageOptions) :
    Memory.located stored threadId options = (units stored).filter (shown threadId options) := by
  rw [Memory.located, units, List.filter_flatMap]
  refine List.flatMap_congr fun turn _ => ?_
  rw [List.filter_map]
  split
  · next hskipped =>
    symm
    rw [List.map_eq_nil_iff, List.filter_eq_nil_iff]
    intro unit _
    rcases hskipped with h | h | h
    · simp [shown, h]
    · simp [shown, h]
    · cases hversion : options.projectionVersion with
      | none => simp [hversion] at h
      | some version =>
        have hne : turn.projection.projectionVersion ≠ version := by simpa [hversion] using h
        simp [shown, hversion, hne]
  · next hkept =>
    rw [not_or, not_or, not_not] at hkept
    obtain ⟨hthread, hstatus, hversion⟩ := hkept
    have hversion' : (options.projectionVersion.all fun version => turn.projection.projectionVersion = version) = true := by
      cases hoption : options.projectionVersion with
      | none => rfl
      | some version => simpa [hoption] using hversion
    refine congrArg _ (List.filter_congr fun unit _ => ?_)
    simp [shown, hthread, hstatus, hversion']

end Units

section Listing

variable (compareId compareKey : String → String → Ordering)

def listing (stored : Stored) (threadId : String) (options : PageOptions) : List Located :=
  toSorted (fun left right => compareCursors compareId compareKey (cursorFor left) (cursorFor right))
    (Memory.located stored threadId options)

def Page.of (usage : Selection.UsageSummary) (view : Window Located) : Page where
  entries := view.items.map Memory.entry
  hasOlder := view.hasOlder
  hasNewer := view.hasNewer
  oldestCursor := view.items.head?.map cursorFor
  newestCursor := view.items.getLast?.map cursorFor
  usage := usage

def place (options : PageOptions) : Place PageCursor :=
  match options.after, options.before with
  | some cursor, _ => .after cursor
  | none, some cursor => .before cursor
  | none, none => .newest

variable {compareId compareKey} {stored : Stored} {threadId : String} {options : PageOptions}

theorem mem_listing {located : Located} : located ∈ listing compareId compareKey stored threadId options ↔
    located ∈ units stored ∧ shown threadId options located = true := by
  rw [listing, StableSort.mem_toSorted, located_eq_filter, List.mem_filter]

theorem nodup_located : (Memory.located stored threadId options).Nodup := by
  rw [located_eq_filter]
  exact nodup_units.filter _

variable [Std.LawfulEqCmp compareId] [Std.LawfulEqCmp compareKey]

theorem eq_of_compare_located {left right : Located} (hleft : left ∈ Memory.located stored threadId options)
    (hright : right ∈ Memory.located stored threadId options)
    (h : compareCursors compareId compareKey (cursorFor left) (cursorFor right) = .eq) : left = right := by
  rw [located_eq_filter] at hleft hright
  exact eq_of_cursorFor (List.mem_of_mem_filter hleft) (List.mem_of_mem_filter hright) (compareCursors_eq_eq.mp h)

theorem sorted_listing [Std.TransCmp compareId] [Std.TransCmp compareKey] : WindowPages.Sorted (compareCursors compareId compareKey) cursorFor
    (listing compareId compareKey stored threadId options) := by
  have : Std.TransCmp fun left right : Located => compareCursors compareId compareKey (cursorFor left) (cursorFor right) :=
    compareOn_trans cursorFor (compareCursors compareId compareKey)
  exact KeysetPages.ascending_toSorted nodup_located fun _ hleft _ hright => eq_of_compare_located hleft hright

end Listing

section Memory

variable {stored : Stored} {threadId : String} {options : PageOptions} {limit : Nat}

theorem not_after_and_before (h : validatePageOptions options = .ok limit) :
    options.before = none ∨ options.after = none := by
  rw [validatePageOptions] at h
  split at h
  · exact absurd h (by simp)
  · next hboth =>
    cases hbefore : options.before with
    | none => exact .inl rfl
    | some before =>
      cases hafter : options.after with
      | none => exact .inr rfl
      | some after => exact absurd ⟨by rw [hbefore]; rfl, by rw [hafter]; rfl⟩ hboth

theorem Memory.page_eq (h : validatePageOptions options = .ok limit) (hstructural : options.structuralTurnId = none) :
    Memory.page stored threadId options =
      .ok (.of (stored.usage threadId)
        (window compareCursor cursorFor (listing compareText compareText stored threadId options) limit (place options))) := by
  have hsorted : WindowPages.Sorted compareCursor cursorFor (listing compareText compareText stored threadId options) :=
    sorted_listing
  have hplain : options.structuralTurnId.isSome = false := by rw [hstructural]; rfl
  have hboth := not_after_and_before h
  unfold Memory.page
  rw [h, place]
  cases hafter : options.after with
  | some after =>
    have hbefore : options.before = none := by
      rw [hafter] at hboth
      exact hboth.resolve_right (by simp)
    rw [WindowPages.window_after limit hsorted rfl]
    simp only [Option.map_some, hplain, Bool.false_eq_true, if_false, hbefore]
    rfl
  | none =>
    cases hbefore : options.before with
    | some before =>
      rw [WindowPages.window_before limit hsorted rfl]
      simp only [Option.map_none, hplain, Bool.false_eq_true, if_false]
      rfl
    | none =>
      rw [WindowPages.window_newest]
      simp only [Option.map_none, hplain, Bool.false_eq_true, if_false]
      rfl

end Memory

section Rows

variable {Json : Type} (codec : UnitCodec Json) (order : TextOrder)

def rowOf (located : Located) : Sql.JoinedRow Json :=
  ⟨Sql.unitRow codec located.stored located.unit, Sql.checkpointRow located.stored, located.stored.turn⟩

def sqlCompare : PageCursor → PageCursor → Ordering := compareCursors order.compare Sql.compareC

instance : Std.TransCmp (sqlCompare order) := inferInstanceAs (Std.TransCmp (compareCursors order.compare Sql.compareC))

variable {codec order}

theorem joined_perm (stores : Stores codec) : (Sql.joined stores.tables).Perm ((units stores.memory).map (rowOf codec)) := by
  refine (stores.units.filterMap _).trans (List.Perm.of_eq ?_)
  have hunits : (stores.memory.turns.rows.flatMap fun stored => stored.projection.units.map (Sql.unitRow codec stored)) =
      (units stores.memory).map fun located => Sql.unitRow codec located.stored located.unit := by
    rw [units, List.map_flatMap]
    simp only [List.map_map, Function.comp_def]
  rw [hunits, List.filterMap_map, ← List.filterMap_eq_map']
  refine List.filterMap_congr fun located hlocated => ?_
  obtain ⟨hstored, -⟩ := mem_units.mp hlocated
  have hcheckpoint : stores.tables.checkpoints.find located.stored.turn.id = some (Sql.checkpointRow located.stored) :=
    Table.find_key (stores.checkpoints _ hstored)
  have hturn : stores.tables.turns.find located.stored.turn.id = some located.stored.turn :=
    Table.find_key (stores.turns _ hstored)
  simp only [Function.comp_apply, Sql.unitRow, hcheckpoint, hturn]
  rfl

section Conditions

variable (cursor : PageCursor) (row : Sql.JoinedRow Json)

theorem sqlCompare_eq : sqlCompare order (Sql.cursorOf row) cursor =
    (compare row.unit.createdAt cursor.createdAt).then
      ((order.compare row.unit.turnId cursor.turnId).then (Sql.compareC row.unit.unitOrderKey cursor.orderKey)) := rfl

theorem createdAt_eq : decide (row.unit.createdAt = cursor.createdAt) =
    decide (compare row.unit.createdAt cursor.createdAt = .eq) := decide_eq_decide.mpr compare_eq_iff_eq.symm

theorem createdAt_gt : decide (row.unit.createdAt > cursor.createdAt) =
    decide (compare row.unit.createdAt cursor.createdAt = .gt) := decide_eq_decide.mpr compare_gt_iff_gt.symm

theorem createdAt_lt : decide (row.unit.createdAt < cursor.createdAt) =
    decide (compare row.unit.createdAt cursor.createdAt = .lt) := decide_eq_decide.mpr compare_lt_iff_lt.symm

theorem turnId_eq : decide (row.unit.turnId = cursor.turnId) =
    decide (order.compare row.unit.turnId cursor.turnId = .eq) := decide_eq_decide.mpr Std.LawfulEqCmp.compare_eq_iff_eq.symm

theorem after_eq : Sql.after order cursor row = decide (sqlCompare order (Sql.cursorOf row) cursor = .gt) := by
  rw [Sql.after, createdAt_gt, createdAt_eq, turnId_eq, Sql.gt, sqlCompare_eq]
  cases compare row.unit.createdAt cursor.createdAt <;> cases order.compare row.unit.turnId cursor.turnId <;> rfl

theorem before_eq : Sql.before order cursor row = decide (sqlCompare order (Sql.cursorOf row) cursor = .lt) := by
  rw [Sql.before, createdAt_lt, createdAt_eq, turnId_eq, Sql.lt, sqlCompare_eq]
  cases compare row.unit.createdAt cursor.createdAt <;> cases order.compare row.unit.turnId cursor.turnId <;> rfl

theorem atOrBefore_eq : Sql.atOrBefore order cursor row = decide (sqlCompare order (Sql.cursorOf row) cursor ≠ .gt) := by
  rw [Sql.atOrBefore, createdAt_lt, createdAt_eq, turnId_eq, Sql.gt, sqlCompare_eq]
  cases compare row.unit.createdAt cursor.createdAt <;> cases order.compare row.unit.turnId cursor.turnId <;>
    cases Sql.compareC row.unit.unitOrderKey cursor.orderKey <;> rfl

theorem atOrAfter_eq : Sql.atOrAfter order cursor row = decide (sqlCompare order (Sql.cursorOf row) cursor ≠ .lt) := by
  rw [Sql.atOrAfter, createdAt_gt, createdAt_eq, turnId_eq, Sql.lt, sqlCompare_eq]
  cases compare row.unit.createdAt cursor.createdAt <;> cases order.compare row.unit.turnId cursor.turnId <;>
    cases Sql.compareC row.unit.unitOrderKey cursor.orderKey <;> rfl

end Conditions

def within (order : TextOrder) (options : PageOptions) (located : Located) : Bool :=
  (options.after.all fun cursor => sqlCompare order (cursorFor located) cursor = .gt) &&
    options.before.all fun cursor => sqlCompare order (cursorFor located) cursor = .lt

variable {threadId : String} {options : PageOptions}

theorem visible_rowOf (located : Located) (hplain : options.structuralTurnId = none) :
    Sql.visible threadId options.projectionVersion (rowOf codec located) = shown threadId options located := by
  rw [shown, Memory.isStructural, hplain]
  exact (Bool.and_true _).symm

theorem pageConditions_rowOf (located : Located)
    (hcast : options.structuralTurnId.isSome = true → codec.Castable located.unit) :
    Sql.pageConditions order codec threadId options (rowOf codec located) =
      (shown threadId options located && within order options located) := by
  have hafter (cursor : PageCursor) : Sql.after order cursor (rowOf codec located) =
      decide (sqlCompare order (cursorFor located) cursor = .gt) := after_eq cursor (rowOf codec located)
  have hbefore (cursor : PageCursor) : Sql.before order cursor (rowOf codec located) =
      decide (sqlCompare order (cursorFor located) cursor = .lt) := before_eq cursor (rowOf codec located)
  have hstructural : Sql.isStructural codec options.structuralTurnId (rowOf codec located) =
      Memory.isStructural options.structuralTurnId located.stored located.unit := by
    cases hoption : options.structuralTurnId with
    | none => rfl
    | some turnId =>
      have htag : codec.tag (rowOf codec located).unit.unitJson = blockTag located.unit :=
        codec.tag_encode located.unit (hcast (by rw [hoption]; rfl))
      rw [Sql.isStructural, htag]
      rfl
  rw [Sql.pageConditions, within, shown, hstructural]
  simp only [hafter, hbefore]
  exact Bool.and_assoc _ _ _

variable (order threadId options) in
/-- The rows of a page in its order are those of the listing that its cursors leave. -/
theorem toSorted_matching (stores : Stores codec) (hcast : options.structuralTurnId.isSome = true → stores.Castable) :
    toSorted (Sql.compareRows order) ((Sql.joined stores.tables).filter (Sql.pageConditions order codec threadId options)) =
      ((listing order.compare Sql.compareC stores.memory threadId options).filter (within order options)).map (rowOf codec) := by
  have hfilter : ((units stores.memory).map (rowOf codec)).filter (Sql.pageConditions order codec threadId options) =
      ((Memory.located stores.memory threadId options).filter (within order options)).map (rowOf codec) := by
    rw [List.filter_map, located_eq_filter, List.filter_filter]
    refine congrArg _ (List.filter_congr fun located hlocated => ?_)
    obtain ⟨hstored, hunit⟩ := mem_units.mp hlocated
    rw [Function.comp_apply, pageConditions_rowOf located fun h => hcast h _ hstored _ hunit, Bool.and_comm]
  have hperm := ((joined_perm stores).filter (Sql.pageConditions order codec threadId options)).trans (List.Perm.of_eq hfilter)
  have hstrict : ∀ x ∈ Memory.located stores.memory threadId options, ∀ y ∈ Memory.located stores.memory threadId options,
      sqlCompare order (cursorFor x) (cursorFor y) = .eq → x = y := fun x hx y hy => eq_of_compare_located hx hy
  have : Std.TransCmp (@Sql.compareRows Json order) := compareOn_trans Sql.cursorOf (sqlCompare order)
  have : Std.TransCmp fun x y : Located => sqlCompare order (cursorFor x) (cursorFor y) :=
    compareOn_trans cursorFor (sqlCompare order)
  have hmap (xs : List Located) : toSorted (Sql.compareRows order) (xs.map (rowOf codec)) =
      (toSorted (fun x y => sqlCompare order (cursorFor x) (cursorFor y)) xs).map (rowOf codec) :=
    StableSort.toSorted_map _ _ xs fun _ _ => rfl
  rw [StableSort.toSorted_eq_of_perm hperm]
  · rw [hmap, StableSort.toSorted_filter _ hstrict]
    rfl
  · intro x hx y hy hxy
    rw [hperm.mem_iff] at hx hy
    obtain ⟨left, hleft, rfl⟩ := List.mem_map.mp hx
    obtain ⟨right, hright, rfl⟩ := List.mem_map.mp hy
    rw [hstrict left (List.mem_of_mem_filter hleft) right (List.mem_of_mem_filter hright) hxy]

variable (order threadId options) in
theorem toSorted_matching_desc (stores : Stores codec) (hcast : options.structuralTurnId.isSome = true → stores.Castable) :
    toSorted (fun left right => Sql.compareRows order right left)
      ((Sql.joined stores.tables).filter (Sql.pageConditions order codec threadId options)) =
      (((listing order.compare Sql.compareC stores.memory threadId options).filter (within order options)).map
        (rowOf codec)).reverse := by
  have : Std.TransCmp (@Sql.compareRows Json order) := compareOn_trans Sql.cursorOf (sqlCompare order)
  rw [StableSort.toSorted_swap, toSorted_matching order threadId options stores hcast]
  intro x hx y hy hxy
  have hx' := (joined_perm stores).mem_iff.mp (List.mem_of_mem_filter hx)
  have hy' := (joined_perm stores).mem_iff.mp (List.mem_of_mem_filter hy)
  obtain ⟨left, hleft, rfl⟩ := List.mem_map.mp hx'
  obtain ⟨right, hright, rfl⟩ := List.mem_map.mp hy'
  rw [eq_of_cursorFor hleft hright (compareCursors_eq_eq.mp hxy)]

def decodedOf (located : Located) : Sql.Decoded where
  turn := located.stored.turn
  unit := located.unit
  cursor := cursorFor located
  revision := located.stored.projection.revision
  generation := located.stored.projection.checkpointGeneration
  projectionState := located.stored.projection.state

variable {located : Located} {stored : Stored} {xs : List Located}

theorem decodeEntry_rowOf (h : located ∈ units stored) :
    Sql.decodeEntry codec (rowOf codec located) = .ok (some (decodedOf located)) := by
  have hdecode : codec.decode (rowOf codec located).unit.unitJson = some located.unit := codec.decode_encode located.unit
  have hturn : located.unit.turnId = (rowOf codec located).turn.id := located.stored.owned _ (mem_units.mp h).2
  have hkey : encodeUnitOrder located.unit.order = (rowOf codec located).unit.unitOrderKey := rfl
  rw [Sql.decodeEntry, hdecode]
  dsimp only
  rw [if_neg (by rw [hturn, hkey]; simp)]
  rfl

theorem mapM_decodeEntry (h : ∀ located ∈ xs, located ∈ units stored) :
    (xs.map (rowOf codec)).mapM (Sql.decodeEntry codec) = .ok (xs.map fun located => some (decodedOf located)) := by
  induction xs with
  | nil => rfl
  | cons located xs ih =>
    rw [List.map_cons, List.mapM_cons, decodeEntry_rowOf (h located List.mem_cons_self),
      ih fun other hother => h other (List.mem_cons_of_mem _ hother)]
    rfl

theorem decoded_eq : (xs.map fun located => some (decodedOf located)).filterMap id = xs.map decodedOf := by
  rw [List.filterMap_map, ← List.filterMap_eq_map']
  rfl

variable {limit : Nat}

theorem hasExtra_eq (xs : List (Sql.JoinedRow Json)) : decide (limit < (xs.take (limit + 1)).length) = decide (limit < xs.length) := by
  rw [List.length_take, decide_eq_decide]
  omega

theorem read_eq (h : ∀ located ∈ xs, located ∈ units stored) :
    (((xs.map (rowOf codec)).take (limit + 1)).take limit).mapM (Sql.decodeEntry codec) =
      .ok ((xs.take limit).map fun located => some (decodedOf located)) := by
  rw [List.take_take, min_eq_left (Nat.le_succ limit), ← List.map_take]
  exact mapM_decodeEntry fun located hlocated => h located (List.mem_of_mem_take hlocated)

theorem mem_units_of_mem_filter {compareId compareKey : String → String → Ordering}
    {p : Located → Bool} (h : located ∈ (listing compareId compareKey stored threadId options).filter p) :
    located ∈ units stored := (mem_listing.mp (List.mem_of_mem_filter h)).1

variable (order threadId) in
theorem boundary_eq (stores : Stores codec) (hplain : options.structuralTurnId = none) (p : Sql.JoinedRow Json → Bool)
    (q : Located → Bool) (hpq : ∀ located, p (rowOf codec located) = q located) :
    ((Sql.joined stores.tables).any fun row => Sql.visible threadId options.projectionVersion row && p row) =
      (listing order.compare Sql.compareC stores.memory threadId options).any q := by
  rw [Bool.eq_iff_iff, List.any_eq_true, List.any_eq_true]
  constructor
  · rintro ⟨row, hrow, hp⟩
    obtain ⟨located, hlocated, rfl⟩ := List.mem_map.mp ((joined_perm stores).mem_iff.mp hrow)
    rw [visible_rowOf located hplain, hpq, Bool.and_eq_true] at hp
    exact ⟨located, mem_listing.mpr ⟨hlocated, hp.1⟩, hp.2⟩
  · rintro ⟨located, hlocated, hq⟩
    obtain ⟨hunit, hshown⟩ := mem_listing.mp hlocated
    refine ⟨rowOf codec located, (joined_perm stores).mem_iff.mpr (List.mem_map_of_mem hunit), ?_⟩
    rw [visible_rowOf located hplain, hpq, hshown, hq]
    rfl

theorem Sql.page_eq (stores : Stores codec) (h : validatePageOptions options = .ok limit)
    (hplain : options.structuralTurnId = none) :
    Sql.page order codec stores.tables threadId options =
      .ok (.of (stores.tables.usage threadId) (window (sqlCompare order) cursorFor
        (listing order.compare Sql.compareC stores.memory threadId options) limit (place options))) := by
  have hboth := not_after_and_before h
  have hcast : options.structuralTurnId.isSome = true → stores.Castable := fun hsome => by simp [hplain] at hsome
  obtain ⟨kept, hkept⟩ : ∃ kept, kept =
      (listing order.compare Sql.compareC stores.memory threadId options).filter (within order options) := ⟨_, rfl⟩
  have hmem : ∀ located ∈ kept, located ∈ units stores.memory := fun located hlocated =>
    mem_units_of_mem_filter (hkept ▸ hlocated)
  have hmatching := toSorted_matching order threadId options stores hcast
  have hmatchingDesc := toSorted_matching_desc order threadId options stores hcast
  rw [← hkept] at hmatching hmatchingDesc
  rw [← List.map_reverse] at hmatchingDesc
  have hread : (((kept.map (rowOf codec)).take (limit + 1)).take limit).mapM (Sql.decodeEntry codec) =
      .ok ((kept.take limit).map fun located => some (decodedOf located)) := read_eq hmem
  have hreadDesc : (((kept.reverse.map (rowOf codec)).take (limit + 1)).take limit).mapM (Sql.decodeEntry codec) =
      .ok ((kept.drop (kept.length - limit)).reverse.map fun located => some (decodedOf located)) := by
    rw [← List.take_reverse]
    exact read_eq fun located hlocated => hmem located (List.mem_reverse.mp hlocated)
  unfold Sql.page
  rw [h, place]
  cases hafter : options.after with
  | some after =>
    have hbefore : options.before = none := by
      rw [hafter] at hboth
      exact hboth.resolve_right (by simp)
    have hwithin : within order options = fun located => decide (sqlCompare order (cursorFor located) after = .gt) := by
      funext located
      rw [within, hafter, hbefore]
      exact Bool.and_true _
    rw [hwithin] at hkept
    have hlater : ¬(options.structuralTurnId = none ∧ (some after : Option PageCursor) = none) := fun hnone => by simp at hnone
    have hboundary := boundary_eq order threadId stores hplain (Sql.atOrBefore order after)
      (fun located => decide (sqlCompare order (cursorFor located) after ≠ .gt)) fun located => atOrBefore_eq after _
    simp only [if_neg hlater]
    simp only [hmatching, hasExtra_eq, hplain, hboundary, bind, Except.bind]
    rw [hread]
    simp only [decoded_eq, List.length_map]
    rw [Page.of, window, ← hkept]
    simp only [List.map_map, List.head?_map, List.getLast?_map, Option.map_map]
    rfl
  | none =>
    simp only [hplain, and_self, if_true]
    simp only [hmatchingDesc, hasExtra_eq, bind, Except.bind]
    rw [hreadDesc]
    simp only [decoded_eq, List.length_map, List.length_reverse, ← List.map_reverse, List.reverse_reverse]
    cases hbefore : options.before with
    | some before =>
      have hwithin : within order options = fun located => decide (sqlCompare order (cursorFor located) before = .lt) := by
        funext located
        rw [within, hafter, hbefore]
        exact Bool.true_and _
      rw [hwithin] at hkept
      have hboundary := boundary_eq order threadId stores hplain (Sql.atOrAfter order before)
        (fun located => decide (sqlCompare order (cursorFor located) before ≠ .lt)) fun located => atOrAfter_eq before _
      simp only [hboundary]
      rw [Page.of, window, ← hkept]
      simp only [List.map_map, List.head?_map, List.getLast?_map, Option.map_map]
      rfl
    | none =>
      have hall : kept = listing order.compare Sql.compareC stores.memory threadId options := by
        rw [hkept, List.filter_eq_self]
        intro located _
        rw [within, hafter, hbefore]
        rfl
      rw [Page.of, window, ← hall]
      simp only [List.map_map, List.head?_map, List.getLast?_map, Option.map_map]
      rfl

end Rows

end Rika.TranscriptPages
