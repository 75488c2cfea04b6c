import Rika.ThreadSearch

namespace Rika.ThreadSearch

open WideText (Units units)

variable {casing : Casing} {order : LocaleOrder}

section Terms

variable {pattern text : Units} {separator : UInt16} {texts : List Units} {document : Document} {parsed : ParsedQuery}
    {result : Result}

theorem infix_of_append {other : Units} (hpattern : separator ∉ pattern)
    (h : pattern <:+: text ++ separator :: other) : pattern <:+: text ∨ pattern <:+: other := by
  obtain ⟨before, after, heq⟩ := h
  rw [List.append_assoc] at heq
  rcases List.append_eq_append_iff.mp heq with ⟨middle, htext, hrest⟩ | ⟨middle, hbefore, hrest⟩
  · -- the pattern begins in the text
    rcases List.append_eq_append_iff.mp hrest with ⟨tail, hmiddle, -⟩ | ⟨tail, hpatternEq, htail⟩
    · exact .inl ⟨before, tail, by rw [htext, hmiddle, List.append_assoc]⟩
    · cases tail with
      | nil =>
        rw [List.append_nil] at hpatternEq
        exact .inl ⟨before, [], by rw [htext, hpatternEq, List.append_nil]⟩
      | cons first tail =>
        rw [List.cons_append] at htail
        obtain ⟨rfl, -⟩ := List.cons.inj htail
        exact absurd (hpatternEq ▸ List.mem_append_right _ List.mem_cons_self) hpattern
  · cases middle with
    | nil =>
      rw [List.nil_append] at hrest
      cases pattern with
      | nil => exact .inl List.nil_infix
      | cons first pattern =>
        rw [List.cons_append] at hrest
        exact absurd ((List.cons.inj hrest).1 ▸ List.mem_cons_self) hpattern
    | cons first middle =>
      rw [List.cons_append] at hrest
      exact .inr ⟨middle, after, by rw [(List.cons.inj hrest).2, List.append_assoc]⟩

theorem infix_of_intercalate (hpattern : separator ∉ pattern)
    (hne : texts ≠ []) (h : pattern <:+: [separator].intercalate texts) : ∃ text ∈ texts, pattern <:+: text := by
  induction texts with
  | nil => exact absurd rfl hne
  | cons text texts ih =>
    cases texts with
    | nil =>
      rw [List.intercalate_singleton] at h
      exact ⟨text, List.mem_cons_self, h⟩
    | cons other texts =>
      rw [List.intercalate_cons_cons, List.append_assoc, List.singleton_append] at h
      rcases infix_of_append hpattern h with htext | hrest
      · exact ⟨text, List.mem_cons_self, htext⟩
      · obtain ⟨found, hfound, hinfix⟩ := ih (List.cons_ne_nil _ _) hrest
        exact ⟨found, List.mem_cons_of_mem _ hfound, hinfix⟩

theorem toLocaleLowerCase_intercalate (casing : Casing) (hne : texts ≠ []) :
    casing.toLocaleLowerCase ([10].intercalate texts) = [10].intercalate (texts.map casing.toLocaleLowerCase) := by
  induction texts with
  | nil => exact absurd rfl hne
  | cons text texts ih =>
    cases texts with
    | nil => rw [List.map_singleton, List.intercalate_singleton, List.intercalate_singleton]
    | cons other texts =>
      rw [List.intercalate_cons_cons, List.append_assoc, List.singleton_append, casing.lineBreak,
        ih (List.cons_ne_nil _ _), List.map_cons, List.map_cons, List.map_cons, List.intercalate_cons_cons,
        List.append_assoc, List.singleton_append]

theorem includesAll_singleton {value : Units} :
    includesAll casing text [value] = true ↔ casing.toLocaleLowerCase value <:+: casing.toLocaleLowerCase text := by
  simp [includesAll]

theorem mem_sourceOrder (source : MatchSource) : source ∈ sourceOrder := by
  cases source <;> decide

theorem exists_source {term : Units} (hterm : 10 ∉ term) (h : includesAll casing (searchable document) [term] = true) :
    ∃ source, includesAll casing (document.field source) [term] = true := by
  have hne : sourceOrder.map document.field ≠ [] := by simp [sourceOrder]
  rw [includesAll_singleton, searchable, toLocaleLowerCase_intercalate casing hne] at h
  obtain ⟨text, htext, hinfix⟩ := infix_of_intercalate (casing.noLineBreak term hterm) (by simp [sourceOrder]) h
  rw [List.map_map] at htext
  obtain ⟨source, -, rfl⟩ := List.mem_map.mp htext
  exact ⟨source, includesAll_singleton.mpr hinfix⟩

theorem foldl_gather_matchedBy (document : Document) (parsed : ParsedQuery) (sources : List MatchSource) (gathered : Gathered) :
    (sources.foldl (gather casing document parsed) gathered).matchedBy =
      gathered.matchedBy ++ sources.filter (relevant casing document parsed) := by
  induction sources generalizing gathered with
  | nil => exact (List.append_nil _).symm
  | cons source sources ih =>
    rw [List.foldl_cons, ih, gather]
    cases hrelevant : relevant casing document parsed source with
    | false => rw [if_pos rfl, List.filter_cons_of_neg (by simp [hrelevant])]
    | true =>
      rw [if_neg Bool.noConfusion, List.filter_cons_of_pos hrelevant]
      split
      · rw [List.append_assoc, List.singleton_append]
      · rw [List.append_assoc, List.singleton_append]

/-- A result is reported where the joined text has all terms and the files all file terms, for each source that has
some. -/
theorem resultFor_eq_some (h : resultFor casing document parsed = some result) :
    includesAll casing (searchable document) parsed.terms = true ∧ includesAll casing document.files parsed.files = true ∧
      result.threadId = document.thread.id ∧ result.updatedAt = document.thread.updatedAt ∧
        ∀ source, source ∈ result.matchedBy ↔ relevant casing document parsed source = true := by
  rw [resultFor, Option.ite_none_left_eq_some] at h
  obtain ⟨hadmitted, hresult⟩ := h
  rw [not_or, Bool.not_eq_false, Bool.not_eq_false] at hadmitted
  obtain rfl := Option.some.inj hresult
  refine ⟨hadmitted.1, hadmitted.2, rfl, rfl, fun source => ?_⟩
  dsimp only
  rw [foldl_gather_matchedBy, List.nil_append, List.mem_filter]
  exact and_iff_right (mem_sourceOrder source)

variable (casing) in
/-- A term that has a line break is in the text of one source of the document. -/
def Unbroken (parsed : ParsedQuery) (document : Document) : Prop :=
  ∀ term ∈ parsed.terms, 10 ∈ term → ∃ source, includesAll casing (document.field source) [term] = true

variable (casing) in
/-- The document satisfies the query, and every term has a source among those reported whose own text contains it. -/
structure Sourced (parsed : ParsedQuery) (document : Document) (result : Result) : Prop where
  terms : includesAll casing (searchable document) parsed.terms = true
  files : includesAll casing document.files parsed.files = true
  source : ∀ term ∈ parsed.terms, ∃ source ∈ result.matchedBy, includesAll casing (document.field source) [term] = true
  fileSource : ∀ path ∈ parsed.files, ∃ source ∈ result.matchedBy, includesAll casing (document.field source) [path] = true

/-- A result has a source for every term just when the terms with line breaks are in the text of one source each. -/
theorem sourced_iff
    (h : resultFor casing document parsed = some result) : Sourced casing parsed document result ↔ Unbroken casing parsed document := by
  obtain ⟨hterms, hfiles, -, -, hmatched⟩ := resultFor_eq_some h
  constructor
  · intro hsourced term hterm _
    obtain ⟨source, -, hsource⟩ := hsourced.source term hterm
    exact ⟨source, hsource⟩
  · intro hunbroken
    refine ⟨hterms, hfiles, fun term hterm => ?_, fun path hpath => ?_⟩
    · have hfound : ∃ source, includesAll casing (document.field source) [term] = true := by
        by_cases hbreak : 10 ∈ term
        · exact hunbroken term hterm hbreak
        · refine exists_source hbreak (includesAll_singleton.mpr ?_)
          exact of_decide_eq_true (List.all_eq_true.mp hterms term hterm)
      obtain ⟨source, hsource⟩ := hfound
      refine ⟨source, (hmatched source).mpr ?_, hsource⟩
      rw [relevant, Bool.or_eq_true, List.any_eq_true]
      exact .inl ⟨term, hterm, hsource⟩
    · have hinfix : includesAll casing (document.field .file) [path] = true :=
        includesAll_singleton.mpr (of_decide_eq_true (List.all_eq_true.mp hfiles path hpath))
      refine ⟨.file, (hmatched .file).mpr ?_, hinfix⟩
      rw [relevant, Bool.or_eq_true, Bool.and_eq_true, List.any_eq_true, List.any_eq_true]
      exact .inr ⟨rfl, path, hpath, hinfix⟩

end Terms

structure Index where
  documents : List Document
  distinct : (documents.map (·.thread.id)).Nodup

section Pages

variable (casing order) (index : Index) (input : SearchInput) (parsed : ParsedQuery)

def matching : List Result := (index.documents.filter (admits input)).filterMap fun document => resultFor casing document parsed

variable {casing order index input parsed}

theorem mem_matching {result : Result} : result ∈ matching casing index input parsed ↔
    ∃ document ∈ index.documents, admits input document = true ∧ resultFor casing document parsed = some result := by
  rw [matching, List.mem_filterMap]
  constructor
  · intro h
    obtain ⟨document, hdocument, hresult⟩ := h
    obtain ⟨hmem, hadmits⟩ := List.mem_filter.mp hdocument
    exact ⟨document, hmem, hadmits, hresult⟩
  · intro h
    obtain ⟨document, hmem, hadmits, hresult⟩ := h
    exact ⟨document, List.mem_filter.mpr ⟨hmem, hadmits⟩, hresult⟩

theorem eq_of_threadId_eq {left right : Result} (hleft : left ∈ matching casing index input parsed)
    (hright : right ∈ matching casing index input parsed) (h : left.threadId = right.threadId) : left = right := by
  obtain ⟨document, hdocument, -, hresult⟩ := mem_matching.mp hleft
  obtain ⟨other, hother, -, hotherResult⟩ := mem_matching.mp hright
  have hids : document.thread.id = other.thread.id := by
    rw [← (resultFor_eq_some hresult).2.2.1, ← (resultFor_eq_some hotherResult).2.2.1, h]
  have hsame : document = other := List.inj_on_of_nodup_map index.distinct hdocument hother hids
  rw [hsame, hotherResult] at hresult
  exact (Option.some.inj hresult).symm

theorem nodup_matching : (matching casing index input parsed).Nodup := by
  have hids : ((index.documents.filter (admits input)).map (·.thread.id)).Nodup :=
    index.distinct.sublist (List.filter_sublist.map _)
  refine List.Nodup.of_map (fun result : Result => result.threadId) ?_
  have hsub : ((matching casing index input parsed).map (·.threadId)).Sublist
      ((index.documents.filter (admits input)).map (·.thread.id)) := by
    rw [matching]
    induction index.documents.filter (admits input) with
    | nil => exact List.Sublist.slnil
    | cons document documents ih =>
      cases hresult : resultFor casing document parsed with
      | none =>
        simp only [List.filterMap_cons, hresult]
        exact ih.cons _
      | some result =>
        simp only [List.filterMap_cons, hresult, List.map_cons, (resultFor_eq_some hresult).2.2.1]
        exact ih.cons_cons _
  exact hids.sublist hsub

def cursorOf (result : Result) : Cursor := ⟨result.updatedAt, result.threadId⟩

theorem passed_trans {first second : Cursor} {updatedAt : Finite} {threadId : Units}
    (h : passed first second.updatedAt second.threadId = true) (hnext : passed second updatedAt threadId = true) :
    passed first updatedAt threadId = true := by
  simp only [passed, Bool.or_eq_true, Bool.and_eq_true, decide_eq_true_eq] at h hnext ⊢
  rcases h with hlt | ⟨heq, hid⟩
  · rcases hnext with hless | ⟨hsame, -⟩
    · exact .inl (lt_trans hless hlt)
    · exact .inl (hsame ▸ hlt)
  · rcases hnext with hless | ⟨hsame, hlater⟩
    · exact .inl (heq ▸ hless)
    · exact .inr ⟨hsame.trans heq, Std.TransCmp.lt_trans hid hlater⟩

theorem passed_irrefl (cursor : Cursor) : passed cursor cursor.updatedAt cursor.threadId = false := by
  simp [passed]

instance compareResults_trans (order : LocaleOrder) : Std.TransCmp (compareResults order) :=
  inferInstanceAs (Std.TransCmp (compareLex (fun left right : Result => compare right.updatedAt left.updatedAt)
    fun left right => order.compare left.threadId right.threadId))

theorem one_le_boundedLimit (limit : Option Rat) : 0 < boundedLimit limit := by
  rw [boundedLimit, maximumPageSize]
  omega

variable (casing order index input parsed) in
def paging : CursorPages Result where
  items := matching casing index input parsed
  nodup := nodup_matching
  compare := compareResults order
  trans := inferInstance
  strict left hleft right hright h := by
    rw [compareResults, Ordering.then_eq_eq] at h
    exact eq_of_threadId_eq hleft hright (order.strict h.2)
  after last result := passed (cursorOf last) result.updatedAt result.threadId
  after_irrefl last := passed_irrefl (cursorOf last)
  after_trans {first second last} h hnext :=
    @passed_trans (cursorOf first) (cursorOf second) last.updatedAt last.threadId h hnext
  size := boundedLimit input.limit
  size_pos := one_le_boundedLimit input.limit

theorem filterMap_filter_passed (cursor : Option Cursor) (documents : List Document) :
    (documents.filter fun document => cursor.all fun cursor => passed cursor document.thread.updatedAt document.thread.id).filterMap
        (fun document => resultFor casing document parsed) =
      (documents.filterMap fun document => resultFor casing document parsed).filter fun result =>
        cursor.all fun cursor => passed cursor result.updatedAt result.threadId := by
  rw [List.filterMap_filter, List.filter_filterMap]
  refine List.filterMap_congr fun document _ => ?_
  cases hresult : resultFor casing document parsed with
  | none => simp
  | some result =>
    obtain ⟨-, -, hid, hupdated, -⟩ := resultFor_eq_some hresult
    rw [Option.filter_some, hid, hupdated]

theorem selected_eq (cursor : Option Result) :
    selected casing order index.documents input (cursor.map cursorOf) parsed =
      ⟨(paging casing order index input parsed).page cursor, ((paging casing order index input parsed).next cursor).map cursorOf⟩ := by
  have hcursor (result : Result) : (cursor.map cursorOf).all (fun cursor => passed cursor result.updatedAt result.threadId) =
      cursor.all fun last => passed (cursorOf last) result.updatedAt result.threadId := by
    cases cursor <;> rfl
  have hrest : StableSort.toSorted (compareResults order) (((index.documents.filter (admits input)).filter fun document =>
      (cursor.map cursorOf).all fun cursor => passed cursor document.thread.updatedAt document.thread.id).filterMap
        fun document => resultFor casing document parsed) = (paging casing order index input parsed).rest cursor := by
    rw [filterMap_filter_passed]
    simp only [hcursor]
    rfl
  rw [selected, hrest, CursorPages.next]
  congr 1
  rw [apply_ite (Option.map cursorOf)]
  rfl

variable (casing order index input) in
/-- The pages of a search from a cursor on, each after the cursor of the page before, until there is none. -/
inductive Listing (query : Units) : Option Cursor → List SearchPage → Prop
  | last {cursor : Option Cursor} {page : SearchPage} : search casing order index.documents input query cursor = .ok page →
      page.nextCursor = none → Listing query cursor [page]
  | next {cursor : Option Cursor} {page : SearchPage} {after : Cursor} {pages : List SearchPage} :
      search casing order index.documents input query cursor = .ok page → page.nextCursor = some after →
        Listing query (some after) pages → Listing query cursor (page :: pages)

variable {query : Units}

theorem search_eq (hparse : parseQuery casing query = .ok parsed) (cursor : Option Result) :
    search casing order index.documents input query (cursor.map cursorOf) =
      .ok ⟨(paging casing order index input parsed).page cursor,
        ((paging casing order index input parsed).next cursor).map cursorOf⟩ := by
  rw [search, hparse, ← selected_eq]
  rfl

variable {last : Option Result}

theorem Listing.pages (hparse : parseQuery casing query = .ok parsed) {cursor : Option Cursor} {pages : List SearchPage}
    (h : Listing casing order index input query cursor pages) (hlast : last.map cursorOf = cursor) :
    (paging casing order index input parsed).Pages last (pages.map (·.results)) := by
  induction h generalizing last with
  | last hsearch hnone =>
    rw [← hlast, search_eq hparse] at hsearch
    cases hsearch
    exact .last (Option.map_eq_none_iff.mp hnone)
  | next hsearch hnext hpages ih =>
    rw [← hlast, search_eq hparse] at hsearch
    cases hsearch
    obtain ⟨final, hfinal, hcursor⟩ := Option.map_eq_some_iff.mp hnext
    exact .next hfinal (ih (by rw [Option.map_some, hcursor]))

theorem listing_of_pages (hparse : parseQuery casing query = .ok parsed) {pages : List (List Result)}
    (h : (paging casing order index input parsed).Pages last pages) :
    ∃ searched, Listing casing order index input query (last.map cursorOf) searched ∧ searched.map (·.results) = pages := by
  induction h with
  | last hnone => exact ⟨_, .last (search_eq hparse _) (by rw [hnone]; rfl), rfl⟩
  | next hnext hpages ih =>
    obtain ⟨searched, hsearched, hresults⟩ := ih
    refine ⟨_, .next (search_eq hparse _) (by rw [hnext]; rfl) hsearched, ?_⟩
    rw [List.map_cons, hresults]

variable (casing order index input parsed) in
/-- Wherever a page ends, the two orders agree about the last thread and each other of its update time. -/
def Agreeing : Prop :=
  ∀ pages, pages * boundedLimit input.limit < (matching casing index input parsed).length →
    ∀ last, ((StableSort.toSorted (compareResults order) (matching casing index input parsed)).take
        (pages * boundedLimit input.limit)).getLast? = some last →
      ∀ result ∈ matching casing index input parsed, result.updatedAt = last.updatedAt →
        (compare last.threadId result.threadId = .lt ↔ order.compare last.threadId result.threadId = .lt)

theorem listing_eq : (paging casing order index input parsed).listing =
    StableSort.toSorted (compareResults order) (matching casing index input parsed) := by
  have hall : (matching casing index input parsed).filter (fun _ => true) = matching casing index input parsed :=
    List.filter_eq_self.mpr fun _ _ => rfl
  rw [← hall]
  rfl

theorem straight_iff : (paging casing order index input parsed).Straight ↔ Agreeing casing order index input parsed := by
  have hlength : (paging casing order index input parsed).listing.length = (matching casing index input parsed).length :=
    CursorPages.listing_perm.length_eq
  rw [CursorPages.Straight, Agreeing, hlength]
  refine forall₂_congr fun pages _ => ?_
  rw [CursorPages.splitsAt_iff, listing_eq]
  refine forall₂_congr fun last _ => forall_congr' fun result => ?_
  have hafter : (paging casing order index input parsed).after last result = true ↔
      result.updatedAt < last.updatedAt ∨ result.updatedAt = last.updatedAt ∧ compare last.threadId result.threadId = .lt := by
    change passed (cursorOf last) result.updatedAt result.threadId = true ↔ _
    rw [passed, Bool.or_eq_true, Bool.and_eq_true, decide_eq_true_iff, decide_eq_true_iff, decide_eq_true_iff]
    rfl
  have hcompare : (paging casing order index input parsed).compare last result = .lt ↔
      result.updatedAt < last.updatedAt ∨
        result.updatedAt = last.updatedAt ∧ order.compare last.threadId result.threadId = .lt := by
    have horder : compareResults order last result = .lt ↔ _ := Ordering.then_eq_lt
    rw [compare_lt_iff_lt, compare_eq_iff_eq] at horder
    exact horder
  rw [hafter, hcompare, StableSort.mem_toSorted]
  refine forall_congr' fun _ => ⟨fun h heq => ?_, fun h => ?_⟩
  · have hnot : ¬result.updatedAt < last.updatedAt := by rw [heq]; exact lt_irrefl _
    simpa [hnot, heq] using h
  · exact or_congr_right (and_congr_right h)

variable (casing order index input parsed) in
/-- The pages return every matching thread once, the latest updated first, each with a source for every term. -/
structure Exact (pages : List SearchPage) : Prop where
  once : (pages.flatMap (·.results)).Perm (matching casing index input parsed)
  latest : (pages.flatMap (·.results)).Pairwise fun left right => right.updatedAt ≤ left.updatedAt
  sourced : ∀ result ∈ pages.flatMap (·.results), ∃ document ∈ index.documents,
    resultFor casing document parsed = some result ∧ Sourced casing parsed document result

theorem latest_listing : ((paging casing order index input parsed).listing).Pairwise
    fun left right => right.updatedAt ≤ left.updatedAt := by
  rw [listing_eq]
  have hsorted : StableSort.Sorted (compareResults order)
      (StableSort.toSorted (compareResults order) (matching casing index input parsed)) := StableSort.toSorted_sorted _
  refine hsorted.imp fun {left right} h => ?_
  by_contra hlt
  have hgt : compare right.updatedAt left.updatedAt = .gt := compare_gt_iff_gt.mpr (not_le.mp hlt)
  simp [compareResults, hgt] at h

/-- The cursors end, and are exact just when both orders of ids agree at the ends of pages and no term has a line break.
-/
theorem search_exact_iff (hparse : parseQuery casing query = .ok parsed) :
    (∃ pages, Listing casing order index input query none pages) ∧
      ((∀ pages, Listing casing order index input query none pages → Exact casing index input parsed pages) ↔
        Agreeing casing order index input parsed ∧ ∀ document ∈ index.documents, admits input document = true →
          resultFor casing document parsed ≠ none → Unbroken casing parsed document) := by
  obtain ⟨pages, hpages⟩ := @CursorPages.exists_pages Result (paging casing order index input parsed) none
  obtain ⟨searched, hsearched, -⟩ := listing_of_pages hparse hpages
  refine ⟨⟨searched, hsearched⟩, ?_⟩
  have hflat (searched : List SearchPage) : searched.flatMap (·.results) = (searched.map (·.results)).flatten := rfl
  rw [← straight_iff]
  constructor
  · intro h
    have hstraight : (paging casing order index input parsed).Straight := by
      refine CursorPages.exact_iff_straight.mp fun pages hpages => ?_
      obtain ⟨searched, hsearched, hresults⟩ := listing_of_pages hparse hpages
      have honce := (h searched hsearched).once
      rwa [hflat, hresults] at honce
    refine ⟨hstraight, fun document hdocument hadmits hsome => ?_⟩
    obtain ⟨result, hresult⟩ := Option.ne_none_iff_exists'.mp hsome
    have hmatching := mem_matching.mpr ⟨document, hdocument, hadmits, hresult⟩
    have hreturned := (h searched hsearched).once.mem_iff.mpr hmatching
    obtain ⟨other, hother, hotherResult, hsourced⟩ := (h searched hsearched).sourced result hreturned
    have hids : document.thread.id = other.thread.id := by
      rw [← (resultFor_eq_some hresult).2.2.1, ← (resultFor_eq_some hotherResult).2.2.1]
    rw [List.inj_on_of_nodup_map index.distinct hdocument hother hids]
    exact (sourced_iff hotherResult).mp hsourced
  · intro h searched hsearched
    obtain ⟨hstraight, hunbroken⟩ := h
    have hpages : (paging casing order index input parsed).Pages none (searched.map (·.results)) := hsearched.pages hparse rfl
    have hlisting : searched.flatMap (·.results) = (paging casing order index input parsed).listing := by
      rw [hflat]
      exact CursorPages.flatten_eq_listing hstraight hpages
    have honce : (searched.flatMap (·.results)).Perm (matching casing index input parsed) := by
      rw [hlisting]
      exact CursorPages.listing_perm
    refine ⟨honce, ?_, fun result hresult => ?_⟩
    · rw [hlisting]
      exact latest_listing
    · obtain ⟨document, hdocument, hadmits, hdocumentResult⟩ := mem_matching.mp (honce.mem_iff.mp hresult)
      refine ⟨document, hdocument, hdocumentResult, (sourced_iff hdocumentResult).mpr ?_⟩
      exact hunbroken document hdocument hadmits (by rw [hdocumentResult]; exact Option.some_ne_none _)

end Pages

section Samples

def sampleCasing : Casing where
  toLowerCase text := text.map Composer.lower
  toLocaleLowerCase text := text.map Composer.lower
  lineBreak text other := by
    rw [List.map_append, List.map_cons]
    rfl
  noLineBreak text h hmem := by
    obtain ⟨unit, hunit, hlower⟩ := List.mem_map.mp hmem
    rw [Composer.lower] at hlower
    split at hlower
    · next hupper =>
        have hrange : 65 ≤ unit.toNat ∧ unit.toNat ≤ 90 := by simpa using hupper
        have hvalue := congrArg UInt16.toNat hlower
        rw [UInt16.toNat_add] at hvalue
        have hten : (10 : UInt16).toNat = 10 := rfl
        have hshift : (32 : UInt16).toNat = 32 := rfl
        omega
    · rw [hlower] at hunit
      exact h hunit

/-- An order of letters that has `a` before `B`: the code units, with `a` and `A` exchanged. -/
def exchanged (unit : UInt16) : UInt16 := if unit = 97 then 65 else if unit = 65 then 97 else unit

theorem exchanged_exchanged (unit : UInt16) : exchanged (exchanged unit) = unit := by
  by_cases hlower : unit = 97
  · rw [hlower]
    rfl
  · by_cases hupper : unit = 65
    · rw [hupper]
      rfl
    · have hkept : exchanged unit = unit := by rw [exchanged, if_neg hlower, if_neg hupper]
      rw [hkept, hkept]

def sampleOrder : LocaleOrder where
  compare left right := compare (left.map exchanged) (right.map exchanged)
  trans := StableSort.compareOn_trans (fun text : Units => text.map exchanged) compare
  strict h := by
    have hinjective : Function.Injective exchanged := Function.LeftInverse.injective exchanged_exchanged
    exact List.map_injective_iff.mpr hinjective (Std.LawfulEqOrd.eq_of_compare h)

def sampleDocument (id : String) : Document where
  thread := ⟨units id.toList, [], units "x".toList, [], false, 0, 5⟩
  title := units "x".toList
  labels := []
  humanPrompts := []
  agentPrompts := []
  rootAssistant := []
  childAssistant := []
  files := []

def sampleIndex : Index := ⟨[sampleDocument "a", sampleDocument "B"], by decide +kernel⟩

def sampleInput : SearchInput := ⟨[], false, none, none, none, some 1⟩

theorem sample_search_exact_iff :
    (∃ pages, Listing sampleCasing sampleOrder sampleIndex sampleInput (units "x".toList) none pages) ∧
      ((∀ pages, Listing sampleCasing sampleOrder sampleIndex sampleInput (units "x".toList) none pages →
          Exact sampleCasing sampleIndex sampleInput ⟨[units "x".toList], []⟩ pages) ↔
        Agreeing sampleCasing sampleOrder sampleIndex sampleInput ⟨[units "x".toList], []⟩ ∧
          ∀ document ∈ sampleIndex.documents, admits sampleInput document = true →
            resultFor sampleCasing document ⟨[units "x".toList], []⟩ ≠ none →
              Unbroken sampleCasing ⟨[units "x".toList], []⟩ document) :=
  search_exact_iff (by decide +kernel)

/-- Of two threads of one update time, the second is not greater than the first as text, and never returned. -/
theorem sample_search_skips :
    ∃ pages, Listing sampleCasing sampleOrder sampleIndex sampleInput (units "x".toList) none pages ∧
      ∃ result ∈ matching sampleCasing sampleIndex sampleInput ⟨[units "x".toList], []⟩,
        result ∉ pages.flatMap (·.results) := by
  have hfirst : (search sampleCasing sampleOrder sampleIndex.documents sampleInput (units "x".toList) none).map
      (fun page => (page.results.map (·.threadId), page.nextCursor)) =
        .ok ([units "a".toList], some ⟨5, units "a".toList⟩) := by decide +kernel
  have hsecond : search sampleCasing sampleOrder sampleIndex.documents sampleInput (units "x".toList)
      (some ⟨5, units "a".toList⟩) = .ok ⟨[], none⟩ := by decide +kernel
  have hother : ∃ result ∈ matching sampleCasing sampleIndex sampleInput ⟨[units "x".toList], []⟩,
      result.threadId = units "B".toList := by decide +kernel
  cases hsearch : search sampleCasing sampleOrder sampleIndex.documents sampleInput (units "x".toList) none with
  | error message =>
    rw [hsearch] at hfirst
    cases hfirst
  | ok page =>
    rw [hsearch] at hfirst
    obtain ⟨hids, hnext⟩ := Prod.mk.inj (Except.ok.inj hfirst)
    obtain ⟨result, hresult, hid⟩ := hother
    refine ⟨[page, ⟨[], none⟩], .next hsearch hnext (.last hsecond rfl), result, hresult, fun hmem => ?_⟩
    simp only [List.flatMap_cons, List.flatMap_nil, List.append_nil] at hmem
    have hlisted := List.mem_map_of_mem (f := fun result : Result => result.threadId) hmem
    rw [hids, List.mem_singleton, hid] at hlisted
    exact absurd hlisted (by decide +kernel)

end Samples

end Rika.ThreadSearch
