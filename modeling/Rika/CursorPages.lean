import Mathlib.Data.List.Perm.Subperm
import Rika.KeysetPages

/-- Items that are listed page by page, each page after the last item of the one before, as `after` has it. -/
structure CursorPages (α : Type*) where
  items : List α
  nodup : items.Nodup
  compare : α → α → Ordering
  trans : Std.TransCmp compare
  strict : ∀ x ∈ items, ∀ y ∈ items, compare x y = .eq → x = y
  after : α → α → Bool
  after_irrefl : ∀ x, after x x = false
  after_trans : ∀ {x y z}, after x y = true → after y z = true → after x z = true
  size : Nat
  size_pos : 0 < size

namespace CursorPages

variable {α : Type*} (paging : CursorPages α)

instance : Std.TransCmp paging.compare := paging.trans

def rest (cursor : Option α) : List α :=
  StableSort.toSorted paging.compare (paging.items.filter fun x => cursor.all fun last => paging.after last x)

def page (cursor : Option α) : List α := (paging.rest cursor).take paging.size

def next (cursor : Option α) : Option α :=
  if paging.size < (paging.rest cursor).length then (paging.page cursor).getLast? else none

/-- The pages from a cursor on, until there is no next one. -/
inductive Pages : Option α → List (List α) → Prop
  | last {cursor : Option α} : paging.next cursor = none → Pages cursor [paging.page cursor]
  | next {cursor : Option α} {last : α} {pages : List (List α)} : paging.next cursor = some last → Pages (some last) pages →
      Pages cursor (paging.page cursor :: pages)

def listing : List α := paging.rest none

/-- What comes after the last of so many items of the listing is just the items that follow there. -/
def SplitsAt (count : Nat) : Prop :=
  ∀ last, (paging.listing.take count).getLast? = some last →
    ∀ x ∈ paging.listing, paging.after last x = true ↔ x ∈ paging.listing.drop count

def Straight : Prop := ∀ pages, pages * paging.size < paging.listing.length → paging.SplitsAt (pages * paging.size)

variable {paging}

section Rest

theorem listing_perm : paging.listing.Perm paging.items := by
  rw [listing, rest]
  refine (StableSort.toSorted_perm _ _).trans (List.Perm.of_eq (List.filter_eq_self.mpr fun x _ => rfl))

theorem listing_nodup : paging.listing.Nodup := listing_perm.nodup_iff.mpr paging.nodup

theorem rest_eq (cursor : Option α) :
    paging.rest cursor = paging.listing.filter fun x => cursor.all fun last => paging.after last x := by
  have hall : paging.items.filter (fun x => Option.all (fun last => paging.after last x) none) = paging.items :=
    List.filter_eq_self.mpr fun x _ => rfl
  rw [listing, rest, rest, hall, StableSort.toSorted_filter]
  exact paging.strict

variable {last x : α} {cursor : Option α} {pages : List (List α)}

theorem mem_rest_some : x ∈ paging.rest (some last) ↔ x ∈ paging.listing ∧ paging.after last x = true := by
  rw [rest_eq, List.mem_filter]
  rfl

theorem next_eq_some (h : paging.next cursor = some last) :
    paging.size < (paging.rest cursor).length ∧ (paging.page cursor).getLast? = some last := by
  rw [next, Option.ite_none_right_eq_some] at h
  exact h

theorem mem_rest_of_mem_page (h : x ∈ paging.page cursor) : x ∈ paging.rest cursor :=
  List.mem_of_mem_take h

theorem rest_of_next (h : paging.next cursor = some last) :
    paging.rest (some last) = (paging.rest cursor).filter fun x => paging.after last x := by
  have hlast : last ∈ paging.rest cursor := mem_rest_of_mem_page (List.mem_of_getLast? (next_eq_some h).2)
  rw [rest_eq, rest_eq, List.filter_filter]
  refine List.filter_congr fun x _ => ?_
  cases cursor with
  | none => simp
  | some before =>
    have hbefore := (mem_rest_some.mp hlast).2
    cases hafter : paging.after last x with
    | false => simp [hafter]
    | true => simp [hafter, paging.after_trans hbefore hafter]

theorem length_rest_lt (h : paging.next cursor = some last) :
    (paging.rest (some last)).length < (paging.rest cursor).length := by
  have hlast : last ∈ paging.rest cursor := mem_rest_of_mem_page (List.mem_of_getLast? (next_eq_some h).2)
  rw [rest_of_next h, List.length_filter_lt_length_iff_exists]
  exact ⟨last, hlast, by simp [paging.after_irrefl]⟩

theorem exists_pages (cursor : Option α) : ∃ pages, paging.Pages cursor pages := by
  induction hlength : (paging.rest cursor).length using Nat.strong_induction_on generalizing cursor with
  | _ length ih =>
    cases hnext : paging.next cursor with
    | none => exact ⟨_, .last hnext⟩
    | some last =>
      obtain ⟨pages, hpages⟩ := ih _ (hlength ▸ length_rest_lt hnext) (some last) rfl
      exact ⟨_, .next hnext hpages⟩

theorem Pages.mem_rest (h : paging.Pages cursor pages) (hx : x ∈ pages.flatten) : x ∈ paging.rest cursor := by
  induction h with
  | last hnext =>
    rw [List.flatten_singleton] at hx
    exact mem_rest_of_mem_page hx
  | next hnext hpages ih =>
    rw [List.flatten_cons, List.mem_append] at hx
    rcases hx with hx | hx
    · exact mem_rest_of_mem_page hx
    · have hrest := ih hx
      rw [rest_of_next hnext] at hrest
      exact List.mem_of_mem_filter hrest

theorem Pages.mem_of_mem_page (h : paging.Pages cursor pages) (hx : x ∈ paging.page cursor) : x ∈ pages.flatten := by
  cases h with
  | last hnext => rwa [List.flatten_singleton]
  | next hnext hpages =>
    rw [List.flatten_cons]
    exact List.mem_append_left _ hx

theorem mem_page_again (h : paging.next cursor = some last) (hx : x ∈ paging.page cursor)
    (hafter : paging.after last x = true) : x ∈ paging.page (some last) := by
  have hsplit : paging.rest cursor = paging.page cursor ++ (paging.rest cursor).drop paging.size :=
    (List.take_append_drop _ _).symm
  have hlength : ((paging.page cursor).filter fun x => paging.after last x).length ≤ paging.size :=
    (List.length_filter_le _ _).trans (List.length_take_le _ _)
  rw [page, rest_of_next h, hsplit, List.filter_append, List.take_append, List.take_of_length_le hlength]
  exact List.mem_append_left _ (List.mem_filter.mpr ⟨hx, hafter⟩)

theorem next_eq_none : paging.next cursor = none ↔ (paging.rest cursor).length ≤ paging.size := by
  rw [next]
  by_cases hlong : paging.size < (paging.rest cursor).length
  · have hpage : paging.page cursor ≠ [] := by
      have hpos := paging.size_pos
      rw [Ne, page, List.take_eq_nil_iff, not_or]
      exact ⟨by omega, List.ne_nil_of_length_pos (by omega)⟩
    rw [if_pos hlong, List.getLast?_eq_none_iff]
    exact iff_of_false hpage (by omega)
  · rw [if_neg hlong]
    exact iff_of_true rfl (by omega)

theorem splitsAt_iff {count : Nat} :
    paging.SplitsAt count ↔ ∀ last, (paging.listing.take count).getLast? = some last →
      ∀ x ∈ paging.listing, paging.after last x = true ↔ paging.compare last x = .lt := by
  have hall : paging.items.filter (fun x => Option.all (fun last => paging.after last x) none) = paging.items :=
    List.filter_eq_self.mpr fun x _ => rfl
  have hascending : KeysetPages.Ascending paging.compare paging.listing := by
    rw [listing, rest, hall]
    exact KeysetPages.ascending_toSorted paging.nodup paging.strict
  refine forall₂_congr fun last hlast => forall₂_congr fun x hx => ?_
  have hdrop : paging.listing.filter (fun x => paging.compare last x = .lt) = paging.listing.drop count := by
    have hsplit := List.take_append_drop count paging.listing
    rw [← hsplit] at hascending
    have hafter := KeysetPages.filter_after hascending hlast
    rwa [hsplit] at hafter
  rw [← hdrop, List.mem_filter, decide_eq_true_iff, and_iff_right hx]

end Rest

section Exactness

variable {count : Nat} {last : α} {cursor : Option α} {pages : List (List α)}

theorem rest_of_splitsAt (h : paging.SplitsAt count)
    (hlast : (paging.listing.take count).getLast? = some last) : paging.rest (some last) = paging.listing.drop count := by
  have hsplit : paging.listing = paging.listing.take count ++ paging.listing.drop count := (List.take_append_drop _ _).symm
  have hdisjoint : List.Disjoint (paging.listing.take count) (paging.listing.drop count) :=
    (List.nodup_append'.mp (hsplit ▸ listing_nodup)).2.2
  have hbefore : (paging.listing.take count).filter (fun x => paging.after last x) = [] := by
    rw [List.filter_eq_nil_iff]
    intro x hx hafter
    exact hdisjoint hx ((h last hlast x (List.mem_of_mem_take hx)).mp hafter)
  have hfollowing : (paging.listing.drop count).filter (fun x => paging.after last x) = paging.listing.drop count :=
    List.filter_eq_self.mpr fun x hx => (h last hlast x (List.mem_of_mem_drop hx)).mpr hx
  have hrest : paging.rest (some last) = paging.listing.filter fun x => paging.after last x := rest_eq (some last)
  rw [hrest]
  conv_lhs => rw [hsplit]
  rw [List.filter_append, hbefore, hfollowing, List.nil_append]

theorem getLast?_take (hrest : paging.rest cursor = paging.listing.drop count)
    (hnext : paging.next cursor = some last) : (paging.listing.take (count + paging.size)).getLast? = some last := by
  rw [List.take_add, List.getLast?_append, ← hrest]
  have hlast := (next_eq_some hnext).2
  rw [page] at hlast
  rw [hlast, Option.some_or]

theorem flatten_of_straight (h : paging.Straight)
    (hpages : paging.Pages cursor pages) (hrest : paging.rest cursor = paging.listing.drop (count * paging.size)) :
    pages.flatten = paging.rest cursor := by
  induction hpages generalizing count with
  | last hnext =>
    rw [List.flatten_singleton, page, List.take_of_length_le (next_eq_none.mp hnext)]
  | @next cursor last pages hnext hpages ih =>
    have hlong := (next_eq_some hnext).1
    have hcount : (count + 1) * paging.size = count * paging.size + paging.size := Nat.succ_mul _ _
    have hlast : (paging.listing.take ((count + 1) * paging.size)).getLast? = some last := by
      rw [hcount]
      exact getLast?_take hrest hnext
    have hsplits : paging.SplitsAt ((count + 1) * paging.size) := by
      refine h (count + 1) ?_
      rw [hrest, List.length_drop] at hlong
      omega
    have hafter := rest_of_splitsAt hsplits hlast
    rw [List.flatten_cons, ih hafter, hafter, hcount, ← List.drop_drop, ← hrest, page, List.take_append_drop]

theorem flatten_eq_listing (h : paging.Straight) (hpages : paging.Pages none pages) : pages.flatten = paging.listing := by
  have hrest : paging.rest none = paging.listing.drop (0 * paging.size) := by rw [Nat.zero_mul, List.drop_zero, listing]
  rw [flatten_of_straight h hpages hrest, listing]

/-- What is left of an exact listing is exact: after so many pages the listing splits, if it goes on. -/
theorem splits_of_exact (hpages : paging.Pages cursor pages)
    (hrest : paging.rest cursor = paging.listing.drop count) (hperm : pages.flatten.Perm (paging.listing.drop count))
    (hlong : count + paging.size < paging.listing.length) :
    paging.SplitsAt (count + paging.size) ∧ ∃ last pages', paging.Pages (some last) pages' ∧
      paging.rest (some last) = paging.listing.drop (count + paging.size) ∧
        pages'.flatten.Perm (paging.listing.drop (count + paging.size)) := by
  cases hpages with
  | last hnext =>
    rw [next_eq_none, hrest, List.length_drop] at hnext
    omega
  | @next _ last pages' hnext hpages' =>
    have hsplit : paging.listing.drop count = paging.page cursor ++ paging.listing.drop (count + paging.size) := by
      rw [page, hrest, ← List.drop_drop, List.take_append_drop]
    rw [hsplit, List.flatten_cons, List.perm_append_left_iff] at hperm
    have hsplits : paging.SplitsAt (count + paging.size) := by
      intro last' hlast' x hx
      rw [getLast?_take hrest hnext] at hlast'
      obtain rfl := Option.some.inj hlast'
      constructor
      · intro hafter
        have hmem : x ∈ paging.rest (some last) := mem_rest_some.mpr ⟨hx, hafter⟩
        rw [rest_of_next hnext, hrest, hsplit, List.mem_filter, List.mem_append] at hmem
        rcases hmem.1 with hpage | hdrop
        · exact hperm.mem_iff.mp (hpages'.mem_of_mem_page (mem_page_again hnext hpage hafter))
        · exact hdrop
      · intro hdrop
        exact (mem_rest_some.mp (hpages'.mem_rest (hperm.mem_iff.mpr hdrop))).2
    exact ⟨hsplits, last, pages', hpages', rest_of_splitsAt hsplits (getLast?_take hrest hnext), hperm⟩

/-- Every run of pages holds each item once just when the listing splits wherever a page of it ends. -/
theorem exact_iff_straight : (∀ pages, paging.Pages none pages → pages.flatten.Perm paging.items) ↔ paging.Straight := by
  constructor
  · intro h
    obtain ⟨pages, hpages⟩ := @exists_pages α paging none
    have hexact (count : Nat) (hlong : count * paging.size < paging.listing.length) :
        paging.SplitsAt (count * paging.size) ∧ ∃ cursor pages', paging.Pages cursor pages' ∧
          paging.rest cursor = paging.listing.drop (count * paging.size) ∧
            pages'.flatten.Perm (paging.listing.drop (count * paging.size)) := by
      induction count with
      | zero =>
        refine ⟨fun last hlast => ?_, none, pages, hpages, ?_, ?_⟩
        · rw [Nat.zero_mul, List.take_zero] at hlast
          cases hlast
        · rw [Nat.zero_mul, List.drop_zero, listing]
        · rw [Nat.zero_mul, List.drop_zero]
          exact (h pages hpages).trans listing_perm.symm
      | succ count ih =>
        rw [Nat.succ_mul] at hlong ⊢
        obtain ⟨-, cursor, pages', hpages', hrest, hperm⟩ := ih (by omega)
        obtain ⟨hsplits, last, after, hafter⟩ := splits_of_exact hpages' hrest hperm hlong
        exact ⟨hsplits, some last, after, hafter⟩
    exact fun count hlong => (hexact count hlong).1
  · intro h pages hpages
    rw [flatten_eq_listing h hpages]
    exact listing_perm

end Exactness

end CursorPages
