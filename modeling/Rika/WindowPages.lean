import Rika.KeysetPages

namespace WindowPages

variable {α κ : Type*}

inductive Place (κ : Type*)
  | newest
  | before (cursor : κ)
  | after (cursor : κ)

structure Window (α : Type*) where
  items : List α
  hasOlder : Bool
  hasNewer : Bool

variable (compare : κ → κ → Ordering) (key : α → κ)

/-- A page of an ascending listing: the last items, the last ones before a cursor, or the first ones after it. -/
def window (xs : List α) (size : Nat) : Place κ → Window α
  | .newest => ⟨xs.drop (xs.length - size), size < xs.length, false⟩
  | .before cursor =>
    let older := xs.filter fun x => compare (key x) cursor = .lt
    ⟨older.drop (older.length - size), size < older.length, xs.any fun x => compare (key x) cursor ≠ .lt⟩
  | .after cursor =>
    let newer := xs.filter fun x => compare (key x) cursor = .gt
    ⟨newer.take size, xs.any fun x => compare (key x) cursor ≠ .gt, size < newer.length⟩

/-- The pages from a place to the oldest one, each before the first item of the page that was read. -/
inductive Older (page : Place κ → Window α) : Place κ → List (List α) → Prop
  | last {place : Place κ} : (page place).hasOlder = false → Older page place [(page place).items]
  | next {place : Place κ} {first : α} {pages : List (List α)} : (page place).hasOlder = true →
      (page place).items.head? = some first → Older page (.before (key first)) pages →
      Older page place ((page place).items :: pages)

/-- The pages from a place to the newest one, each after the last item of the page that was read. -/
inductive Newer (page : Place κ → Window α) : Place κ → List (List α) → Prop
  | last {place : Place κ} : (page place).hasNewer = false → Newer page place [(page place).items]
  | next {place : Place κ} {last : α} {pages : List (List α)} : (page place).hasNewer = true →
      (page place).items.getLast? = some last → Newer page (.after (key last)) pages →
      Newer page place ((page place).items :: pages)

section Boundary

variable {p : α → Bool} {xs : List α}

section

variable (h : xs.Pairwise fun left right => p left = true → p right = true)

include h

theorem take_findIdx : xs.take (xs.findIdx p) = xs.filter fun x => !p x := by
  induction xs with
  | nil => rfl
  | cons x xs ih =>
    rw [List.findIdx_cons]
    cases hx : p x with
    | true =>
      have hrest : (x :: xs).filter (fun x => !p x) = [] := by
        rw [List.filter_eq_nil_iff]
        intro y hy
        rcases List.mem_cons.mp hy with rfl | hy
        · simp [hx]
        · simp [List.rel_of_pairwise_cons h hy hx]
      rw [hrest]
      rfl
    | false => simp [hx, ih h.tail]

theorem drop_findIdx : xs.drop (xs.findIdx p) = xs.filter p := by
  induction xs with
  | nil => rfl
  | cons x xs ih =>
    rw [List.findIdx_cons]
    cases hx : p x with
    | true =>
      have hall : (x :: xs).filter p = x :: xs := by
        rw [List.filter_eq_self]
        intro y hy
        rcases List.mem_cons.mp hy with rfl | hy
        · exact hx
        · exact List.rel_of_pairwise_cons h hy hx
      rw [hall]
      rfl
    | false => simp [hx, ih h.tail]

theorem findIdx_eq_length : xs.findIdx p = (xs.filter fun x => !p x).length := by
  rw [← take_findIdx h, List.length_take, min_eq_left List.findIdx_le_length]

end

theorem findIdx_lt_length : xs.findIdx p < xs.length ↔ xs.any p = true := by
  rw [List.findIdx_lt_length, List.any_eq_true]

theorem findIdx_pos (h : xs.Pairwise fun left right => p left = true → p right = true) :
    0 < xs.findIdx p ↔ (xs.any fun x => !p x) = true := by
  rw [findIdx_eq_length h, List.length_filter_pos_iff, List.any_eq_true]

end Boundary

section Runs

variable {compare key} {xs : List α} {size : Nat}

/-- The order of items by their keys. -/
abbrev Sorted (compare : κ → κ → Ordering) (key : α → κ) (xs : List α) : Prop :=
  KeysetPages.Ascending (fun left right => compare (key left) (key right)) xs

variable [Std.TransCmp compare]

instance transCmp_key (compare : κ → κ → Ordering) [Std.TransCmp compare] (key : α → κ) :
    Std.TransCmp fun left right => compare (key left) (key right) := StableSort.compareOn_trans key compare

section

variable (h : Sorted compare key xs) (hsize : 0 < size)

include h hsize

theorem exists_older {place : Place κ} {earlier later : List α} (hxs : xs = earlier ++ later)
    (hitems : (window compare key xs size place).items = earlier.drop (earlier.length - size))
    (holder : (window compare key xs size place).hasOlder = decide (size < earlier.length)) :
    ∃ pages, Older key (window compare key xs size) place pages ∧ pages.reverse.flatten = earlier := by
  induction hlength : earlier.length using Nat.strong_induction_on generalizing place earlier later with
  | _ length ih =>
    by_cases hmore : size < earlier.length
    · obtain ⟨kept, taken, hsplit, htaken⟩ : ∃ kept taken, earlier = kept ++ taken ∧ taken = earlier.drop (earlier.length - size) :=
        ⟨_, _, (List.take_append_drop (earlier.length - size) earlier).symm, rfl⟩
      have hcount : taken.length = size := by
        rw [htaken, List.length_drop]
        omega
      have hkept : kept.length + size = earlier.length := by
        rw [hsplit, List.length_append, hcount]
      obtain ⟨first, rest, htakenCons⟩ : ∃ first rest, taken = first :: rest :=
        List.exists_cons_of_length_pos (by omega)
      have hhead : (taken ++ later).head? = some first := by rw [htakenCons]; rfl
      have hxs' : xs = kept ++ (taken ++ later) := by rw [hxs, hsplit, List.append_assoc]
      have hfilter : xs.filter (fun x => compare (key x) (key first) = .lt) = kept := by
        have hsorted := h
        rw [hxs'] at hsorted ⊢
        exact KeysetPages.filter_before hsorted hhead
      have hitems' : (window compare key xs size (.before (key first))).items = kept.drop (kept.length - size) := by
        simp only [window, hfilter]
      have holder' : (window compare key xs size (.before (key first))).hasOlder = decide (size < kept.length) := by
        simp only [window, hfilter]
      obtain ⟨pages, hpages, hflatten⟩ := ih kept.length (by omega) hxs' hitems' holder' rfl
      refine ⟨(window compare key xs size place).items :: pages, .next ?_ ?_ hpages, ?_⟩
      · rw [holder]
        exact decide_eq_true hmore
      · rw [hitems, ← htaken, htakenCons]
        rfl
      · rw [List.reverse_cons, List.flatten_append, hflatten, List.flatten_singleton, hitems, ← htaken, hsplit]
    · refine ⟨_, .last (by rw [holder]; exact decide_eq_false hmore), ?_⟩
      have hall : earlier.length - size = 0 := by omega
      rw [List.reverse_singleton, List.flatten_singleton, hitems, hall, List.drop_zero]

theorem exists_newer {place : Place κ} {earlier later : List α}
    (hxs : xs = earlier ++ later) (hitems : (window compare key xs size place).items = later.take size)
    (hnewer : (window compare key xs size place).hasNewer = decide (size < later.length)) :
    ∃ pages, Newer key (window compare key xs size) place pages ∧ pages.flatten = later := by
  induction hlength : later.length using Nat.strong_induction_on generalizing place earlier later with
  | _ length ih =>
    by_cases hmore : size < later.length
    · have hcount : (later.take size).length = size := by
        rw [List.length_take]
        omega
      obtain ⟨last, hlast⟩ : ∃ last, (later.take size).getLast? = some last := by
        refine ⟨_, List.getLast?_eq_some_getLast (l := later.take size) ?_⟩
        exact List.ne_nil_of_length_pos (by omega)
      have hrest : (earlier ++ later.take size).getLast? = some last := by
        rw [List.getLast?_append, hlast]
        rfl
      have hxs' : xs = (earlier ++ later.take size) ++ later.drop size := by
        rw [List.append_assoc, List.take_append_drop, hxs]
      have hgt (x : α) : compare (key x) (key last) = .gt ↔ compare (key last) (key x) = .lt := Std.OrientedCmp.gt_iff_lt
      have hfilter : xs.filter (fun x => compare (key x) (key last) = .gt) = later.drop size := by
        have hsorted := h
        simp only [hgt]
        rw [hxs'] at hsorted ⊢
        exact KeysetPages.filter_after hsorted hrest
      have hdropped : (later.drop size).length < length := by
        rw [List.length_drop]
        omega
      have hitems' : (window compare key xs size (.after (key last))).items = (later.drop size).take size := by
        simp only [window, hfilter]
      have hnewer' : (window compare key xs size (.after (key last))).hasNewer = decide (size < (later.drop size).length) := by
        simp only [window, hfilter]
      obtain ⟨pages, hpages, hflatten⟩ := ih _ hdropped hxs' hitems' hnewer' rfl
      refine ⟨(window compare key xs size place).items :: pages, .next ?_ ?_ hpages, ?_⟩
      · rw [hnewer]
        exact decide_eq_true hmore
      · rw [hitems, hlast]
      · rw [List.flatten_cons, hflatten, hitems, List.take_append_drop]
    · refine ⟨_, .last (by rw [hnewer]; exact decide_eq_false hmore), ?_⟩
      rw [List.flatten_singleton, hitems, List.take_of_length_le (by omega)]

theorem older_exact :
    ∃ pages, Older key (window compare key xs size) .newest pages ∧ pages.reverse.flatten = xs :=
  exists_older h hsize (List.append_nil xs).symm rfl rfl

theorem newer_exact {start : κ} (hstart : ∀ x ∈ xs, compare (key x) start = .gt) :
    ∃ pages, Newer key (window compare key xs size) (.after start) pages ∧ pages.flatten = xs := by
  have hfilter : xs.filter (fun x => compare (key x) start = .gt) = xs :=
    List.filter_eq_self.mpr fun x hx => decide_eq_true (hstart x hx)
  exact exists_newer h hsize (List.nil_append xs).symm (by simp only [window, hfilter]) (by simp only [window, hfilter])

end

end Runs

section Slices

variable {compare key} {xs : List α} {size : Nat} [Std.TransCmp compare] {cursor : κ}

theorem Sorted.gt_mono (h : Sorted compare key xs) : xs.Pairwise fun left right =>
    decide (compare (key left) cursor = .gt) = true → decide (compare (key right) cursor = .gt) = true := by
  refine List.Pairwise.imp (fun {left right} hlt hgt => ?_) h
  rw [decide_eq_true_iff] at hgt ⊢
  have hright : compare (key right) (key left) = .gt := Std.OrientedCmp.gt_iff_lt.mpr hlt
  exact Std.TransCmp.gt_trans hright hgt

theorem Sorted.isGE_mono (h : Sorted compare key xs) : xs.Pairwise fun left right =>
    (compare (key left) cursor).isGE = true → (compare (key right) cursor).isGE = true := by
  refine List.Pairwise.imp (fun {left right} hlt hge => ?_) h
  have hright : compare (key right) (key left) = .gt := Std.OrientedCmp.gt_iff_lt.mpr hlt
  exact Std.TransCmp.isGE_trans (by rw [hright]; rfl) hge

theorem not_isGE (o : Ordering) : (!o.isGE) = decide (o = .lt) := by cases o <;> rfl

theorem isGE_eq_ne (o : Ordering) : o.isGE = decide (o ≠ .lt) := by cases o <;> rfl

omit [Std.TransCmp compare] in
theorem window_newest : window compare key xs size .newest =
    ⟨(xs.take xs.length).drop (xs.length - size), 0 < xs.length - size, xs.length < xs.length⟩ := by
  rw [window, Window.mk.injEq, List.take_length]
  refine ⟨rfl, ?_, by simp only [lt_irrefl, decide_false]⟩
  rw [decide_eq_decide, Nat.sub_pos_iff_lt]

variable (size) in
theorem window_before (h : Sorted compare key xs) {stop : Nat}
    (hstop : stop = xs.findIdx fun x => (compare (key x) cursor).isGE) :
    window compare key xs size (.before cursor) =
      ⟨(xs.take stop).drop (stop - size), 0 < stop - size, stop < xs.length⟩ := by
  have htake : xs.take stop = xs.filter fun x => compare (key x) cursor = .lt := by
    rw [hstop, take_findIdx h.isGE_mono]
    exact List.filter_congr fun x _ => not_isGE _
  have hlength : stop = (xs.filter fun x => compare (key x) cursor = .lt).length := by
    rw [← htake, List.length_take, min_eq_left (hstop ▸ List.findIdx_le_length)]
  have hnewer : (stop < xs.length) = ((xs.any fun x => decide (compare (key x) cursor ≠ .lt)) = true) := by
    rw [hstop, findIdx_lt_length]
    simp only [isGE_eq_ne]
  rw [htake, window, Window.mk.injEq]
  refine ⟨by rw [← hlength], ?_, by simp only [hnewer, Bool.decide_eq_true]⟩
  rw [← hlength, decide_eq_decide, Nat.sub_pos_iff_lt]

variable (size) in
theorem window_after (h : Sorted compare key xs) {start : Nat}
    (hstart : start = xs.findIdx fun x => compare (key x) cursor = .gt) :
    window compare key xs size (.after cursor) =
      ⟨(xs.take (min xs.length (start + size))).drop start, 0 < start, min xs.length (start + size) < xs.length⟩ := by
  have hdrop : xs.drop start = xs.filter fun x => compare (key x) cursor = .gt := by
    rw [hstart, drop_findIdx h.gt_mono]
  have holder : (0 < start) = ((xs.any fun x => decide (compare (key x) cursor ≠ .gt)) = true) := by
    rw [hstart, findIdx_pos h.gt_mono]
    simp only [ne_eq, decide_not]
  have hitems : (xs.take (min xs.length (start + size))).drop start = (xs.drop start).take size := by
    rw [min_comm, ← List.take_take, List.take_length, List.drop_take, Nat.add_sub_cancel_left]
  rw [hitems, hdrop, window, Window.mk.injEq]
  refine ⟨rfl, by simp only [holder, Bool.decide_eq_true], ?_⟩
  rw [← hdrop, List.length_drop, decide_eq_decide]
  omega

end Slices

section Back

def older (xs : List α) : Option κ → List α
  | none => xs
  | some cursor => xs.filter fun x => compare (key x) cursor = .lt

def pageBefore (xs : List α) (size : Nat) (before : Option κ) : Window α :=
  window compare key xs size (before.elim .newest .before)

variable {compare key} {xs : List α} {size : Nat} {before : Option κ}

theorem pageBefore_items : (pageBefore compare key xs size before).items =
    (older compare key xs before).drop ((older compare key xs before).length - size) := by
  cases before <;> rfl

theorem pageBefore_hasOlder : (pageBefore compare key xs size before).hasOlder =
    decide (size < (older compare key xs before).length) := by
  cases before <;> rfl

variable [Std.TransCmp compare]

theorem older_initial (h : Sorted compare key xs) : ∃ later, xs = older compare key xs before ++ later := by
  cases before with
  | none => exact ⟨[], (List.append_nil xs).symm⟩
  | some cursor =>
    have htake : older compare key xs (some cursor) = xs.take (xs.findIdx fun x => (compare (key x) cursor).isGE) := by
      rw [take_findIdx h.isGE_mono]
      exact List.filter_congr fun x _ => (not_isGE _).symm
    exact ⟨xs.drop (xs.findIdx fun x => (compare (key x) cursor).isGE), by rw [htake, List.take_append_drop]⟩

theorem older_append (h : Sorted compare key xs) {first : α} (hfirst : (pageBefore compare key xs size before).items.head? = some first) :
    older compare key xs before = older compare key xs (some (key first)) ++ (pageBefore compare key xs size before).items := by
  obtain ⟨later, hlater⟩ : ∃ later, xs = older compare key xs before ++ later := older_initial h
  rw [pageBefore_items] at hfirst ⊢
  obtain ⟨kept, taken, hkept, htaken⟩ : ∃ kept taken, older compare key xs before = kept ++ taken ∧
      taken = (older compare key xs before).drop ((older compare key xs before).length - size) :=
    ⟨_, _, (List.take_append_drop _ _).symm, rfl⟩
  rw [← htaken] at hfirst ⊢
  have hxs : xs = kept ++ (taken ++ later) := by rw [hlater, hkept, List.append_assoc]
  have hhead : (taken ++ later).head? = some first := by rw [List.head?_append, hfirst]; rfl
  have hfilter : older compare key xs (some (key first)) = kept := by
    have hsorted := h
    rw [older]
    rw [hxs] at hsorted ⊢
    exact KeysetPages.filter_before hsorted hhead
  rw [hfilter, hkept]

omit [Std.TransCmp compare] in
theorem pageBefore_head (hsize : 0 < size) (h : (pageBefore compare key xs size before).hasOlder = true) :
    ∃ first, (pageBefore compare key xs size before).items.head? = some first := by
  rw [pageBefore_hasOlder, decide_eq_true_eq] at h
  have hpos : 0 < (pageBefore compare key xs size before).items.length := by
    rw [pageBefore_items, List.length_drop]
    omega
  obtain ⟨first, rest, hcons⟩ := List.exists_cons_of_length_pos hpos
  exact ⟨first, by rw [hcons]; rfl⟩

omit [Std.TransCmp compare] in
theorem pageBefore_all (h : (pageBefore compare key xs size before).hasOlder = false) :
    (pageBefore compare key xs size before).items = older compare key xs before := by
  rw [pageBefore_hasOlder, decide_eq_false_iff_not] at h
  have hzero : (older compare key xs before).length - size = 0 := by omega
  rw [pageBefore_items, hzero, List.drop_zero]

end Back

end WindowPages
