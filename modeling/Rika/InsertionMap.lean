import Mathlib.Data.List.Dedup
import Mathlib.Data.List.Flatten

/-- A map whose entries stand as those of a JavaScript `Map`: a present key keeps its place and a new one goes to the
end. -/
structure InsertionMap (κ ν : Type*) where
  entries : List (κ × ν)
  nodupKeys : (entries.map Prod.fst).Nodup
deriving DecidableEq

namespace InsertionMap

variable {κ ν : Type*}

def empty : InsertionMap κ ν := ⟨[], List.nodup_nil⟩

instance : Inhabited (InsertionMap κ ν) := ⟨empty⟩

def keys (m : InsertionMap κ ν) : List κ := m.entries.map Prod.fst

def values (m : InsertionMap κ ν) : List ν := m.entries.map Prod.snd

def size (m : InsertionMap κ ν) : Nat := m.entries.length

/-- Deletes oldest keys until at most `limit` entries remain. -/
def evict (limit : Nat) (m : InsertionMap κ ν) : InsertionMap κ ν where
  entries := m.entries.drop (m.size - limit)
  nodupKeys := m.nodupKeys.sublist ((List.drop_sublist _ _).map _)

@[simp] theorem entries_empty : (empty : InsertionMap κ ν).entries = [] := rfl

variable [DecidableEq κ]

def setEntry (k : κ) (v : ν) : List (κ × ν) → List (κ × ν)
  | [] => [(k, v)]
  | e :: es => if e.1 = k then (k, v) :: es else e :: setEntry k v es

theorem keys_setEntry (k : κ) (v : ν) (es : List (κ × ν)) : (setEntry k v es).map Prod.fst =
      if k ∈ es.map Prod.fst then es.map Prod.fst else es.map Prod.fst ++ [k] := by
  induction es with
  | nil => simp [setEntry]
  | cons e es ih =>
    by_cases he : e.1 = k
    · simp [setEntry, he]
    · simp only [setEntry, if_neg he, List.map_cons, ih, List.mem_cons, Ne.symm he, false_or]
      split <;> simp

variable {k : κ} {es : List (κ × ν)} {m : InsertionMap κ ν} {v : ν}

theorem setEntry_of_notMem (hk : k ∉ es.map Prod.fst) (v : ν) : setEntry k v es = es ++ [(k, v)] := by
  induction es with
  | nil => rfl
  | cons e es ih =>
    simp only [List.map_cons, List.mem_cons, not_or] at hk
    rw [setEntry, if_neg (Ne.symm hk.1), ih hk.2, List.cons_append]

section

variable (m : InsertionMap κ ν) (k : κ)

def get : Option ν := m.entries.lookup k

def has : Bool := (m.get k).isSome

def set (v : ν) : InsertionMap κ ν where
  entries := setEntry k v m.entries
  nodupKeys := by
    rw [keys_setEntry]
    split
    · exact m.nodupKeys
    · next hk =>
        rw [← List.concat_eq_append]
        exact m.nodupKeys.concat hk

def delete : InsertionMap κ ν where
  entries := m.entries.filter (fun e => e.1 ≠ k)
  nodupKeys := m.nodupKeys.sublist (List.filter_sublist.map _)

end

def mapValues (m : InsertionMap κ ν) (f : ν → ν) : InsertionMap κ ν where
  entries := m.entries.map fun e => (e.1, f e.2)
  nodupKeys := by
    rw [List.map_map]
    exact m.nodupKeys

def ofList (es : List (κ × ν)) : InsertionMap κ ν := es.foldl (fun m e => m.set e.1 e.2) empty

theorem lookup_cons_ite (k : κ) (e : κ × ν) (es : List (κ × ν)) :
    List.lookup k (e :: es) = if k = e.1 then some e.2 else List.lookup k es := by
  obtain ⟨a, b⟩ := e
  by_cases hk : k = a
  · simp [hk]
  · have hb : (k == a) = false := beq_eq_false_iff_ne.mpr hk
    rw [List.lookup_cons, hb, if_neg hk]

theorem get_eq_some : m.get k = some v ↔ (k, v) ∈ m.entries := by
  obtain ⟨es, hes⟩ := m
  simp only [get]
  induction es with
  | nil => simp
  | cons e es ih =>
    obtain ⟨a, b⟩ := e
    simp only [List.map_cons, List.nodup_cons] at hes
    by_cases ha : k = a
    · subst ha
      have hk : (k, v) ∉ es := fun h => hes.1 (List.mem_map_of_mem h)
      simp [hk, eq_comm]
    · simp [lookup_cons_ite, ha, ih hes.2]

theorem has_iff : m.has k = true ↔ ∃ v, m.get k = some v := by
  simp [has, Option.isSome_iff_exists]

theorem mem_keys : k ∈ m.keys ↔ ∃ v, m.get k = some v := by
  simp [keys, get_eq_some]

theorem get_eq_none : m.get k = none ↔ k ∉ m.keys := by
  rw [mem_keys, Option.eq_none_iff_forall_ne_some]
  simp

theorem mem_values : v ∈ m.values ↔ ∃ k, m.get k = some v := by
  simp [values, get_eq_some]

@[simp] theorem get_empty (k : κ) : (empty : InsertionMap κ ν).get k = none := rfl

section

variable (m : InsertionMap κ ν) (k j : κ)

@[simp] theorem get_set (v : ν) :
    (m.set k v).get j = if j = k then some v else m.get j := by
  simp only [get, set]
  induction m.entries with
  | nil => simp [setEntry, lookup_cons_ite]
  | cons e es ih =>
    by_cases he : e.1 = k
    · by_cases hj : j = k <;> simp [setEntry, lookup_cons_ite, he, hj]
    · rw [setEntry, if_neg he, lookup_cons_ite, lookup_cons_ite, ih]
      by_cases hj : j = e.1
      · rw [if_pos hj, if_pos hj, if_neg (hj ▸ he)]
      · rw [if_neg hj, if_neg hj]

@[simp] theorem get_delete :
    (m.delete k).get j = if j = k then none else m.get j := by
  ext v
  rw [get_eq_some]
  by_cases hj : j = k
  · simp [delete, hj]
  · simp [delete, hj, get_eq_some]

@[simp] theorem has_set (v : ν) :
    (m.set k v).has j = (decide (j = k) || m.has j) := by
  by_cases hj : j = k <;> simp [has, hj]

@[simp] theorem has_delete :
    (m.delete k).has j = (!decide (j = k) && m.has j) := by
  by_cases hj : j = k <;> simp [has, hj]

end

@[simp] theorem get_mapValues (m : InsertionMap κ ν) (f : ν → ν) (k : κ) : (m.mapValues f).get k = (m.get k).map f := by
  simp only [get, mapValues]
  induction m.entries with
  | nil => rfl
  | cons e es ih =>
    rw [List.map_cons, lookup_cons_ite, lookup_cons_ite, ih]
    split <;> rfl

theorem get_evict {limit : Nat} (h : (m.evict limit).get k = some v) : m.get k = some v := by
  rw [get_eq_some] at h ⊢
  exact (List.drop_sublist _ _).mem h

theorem values_delete (m : InsertionMap κ ν) (k : κ) :
    (m.delete k).values = (m.entries.filter fun e => e.1 ≠ k).map Prod.snd := rfl

/-- A deletion takes nothing out of what the values make up, unless the deleted
value makes up something. -/
theorem flatMap_values_delete {β : Type*} (m : InsertionMap κ ν) (k : κ) (f : ν → List β) :
    m.values.flatMap f = (m.delete k).values.flatMap f ↔ ∀ v, m.get k = some v → f v = [] := by
  rw [values_delete, values, List.flatMap_map, List.flatMap_map]
  have hentries : (∀ v, m.get k = some v → f v = []) ↔ ∀ e ∈ m.entries, ¬ e.1 ≠ k → f e.2 = [] := by
    simp only [get_eq_some, not_not]
    constructor
    · rintro h ⟨_, v⟩ he rfl
      exact h v he
    · exact fun h v hv => h (k, v) hv rfl
  rw [hentries]
  generalize m.entries = es
  induction es with
  | nil => simp
  | cons e es ih =>
    rw [List.forall_mem_cons, List.flatMap_cons, List.filter_cons]
    by_cases he : e.1 ≠ k
    · rw [if_pos (decide_eq_true he), List.flatMap_cons, List.append_cancel_left_eq]
      exact ih.trans ⟨fun h => ⟨fun hk => absurd he hk, h⟩, And.right⟩
    · rw [if_neg (by simpa using he)]
      constructor
      · intro h
        have hlength := congrArg List.length h
        have hle := ((List.filter_sublist (l := es) (p := fun e => e.1 ≠ k)).flatMap fun e => f e.2).length_le
        rw [List.length_append] at hlength
        have hnil : f e.2 = [] := List.eq_nil_of_length_eq_zero (by omega)
        rw [hnil, List.nil_append] at h
        exact ⟨fun _ => hnil, ih.mp h⟩
      · rintro ⟨hnil, h⟩
        rw [hnil he, List.nil_append, ih.mpr h]

theorem entries_set_of_get_none (hk : m.get k = none) (v : ν) : (m.set k v).entries = m.entries ++ [(k, v)] :=
  setEntry_of_notMem (get_eq_none.mp hk) v

theorem entries_foldl_set (es : List (κ × ν)) (m : InsertionMap κ ν)
    (hes : (m.keys ++ es.map Prod.fst).Nodup) :
    (es.foldl (fun m e => m.set e.1 e.2) m).entries = m.entries ++ es := by
  induction es generalizing m with
  | nil => simp
  | cons e es ih =>
    have he : m.get e.1 = none := by
      rw [get_eq_none]
      intro h
      exact (List.disjoint_of_nodup_append hes) h (by simp)
    have hkeys : (m.set e.1 e.2).keys = m.keys ++ [e.1] := by
      simp [keys, entries_set_of_get_none he]
    rw [List.foldl_cons, ih _ (by simpa [hkeys] using hes), entries_set_of_get_none he]
    simp

theorem entries_ofList (hes : (es.map Prod.fst).Nodup) : (ofList es).entries = es := by
  simpa [ofList] using entries_foldl_set es empty (by simpa [keys] using hes)

section Lists

variable {es : List (κ × ν)} {m : InsertionMap κ ν} {k : κ} {v : ν}

theorem get_foldl_set (h : (es.foldl (fun m e => m.set e.1 e.2) m).get k = some v) : (k, v) ∈ es ∨ m.get k = some v := by
  induction es generalizing m with
  | nil => exact .inr h
  | cons e es ih =>
    rw [List.foldl_cons] at h
    rcases ih h with h | h
    · exact .inl (List.mem_cons_of_mem _ h)
    · rw [get_set] at h
      split at h
      · next hk =>
          cases h
          exact .inl (hk ▸ List.mem_cons_self)
      · exact .inr h

theorem mem_of_get_ofList (h : (ofList es).get k = some v) : (k, v) ∈ es := by
  rcases get_foldl_set h with h | h
  · exact h
  · cases h

theorem exists_get_foldl_set
    (h : k ∈ es.map Prod.fst ∨ ∃ v, m.get k = some v) : ∃ v, (es.foldl (fun m e => m.set e.1 e.2) m).get k = some v := by
  induction es generalizing m with
  | nil =>
    rcases h with h | h
    · cases h
    · exact h
  | cons e es ih =>
    rw [List.foldl_cons]
    refine ih ?_
    rw [get_set]
    by_cases hk : k = e.1
    · exact .inr ⟨e.2, if_pos hk⟩
    · rw [if_neg hk]
      rcases h with h | h
      · rcases List.mem_cons.mp h with h | h
        · exact absurd h hk
        · exact .inl h
      · exact .inr h

theorem exists_get_ofList (h : k ∈ es.map Prod.fst) : ∃ v, (ofList es).get k = some v :=
  exists_get_foldl_set (.inl h)

end Lists

section Writes

def write (m : InsertionMap κ ν) (e : κ × Option ν) : InsertionMap κ ν :=
  match e.2 with
  | none => m.delete e.1
  | some v => m.set e.1 v

@[simp] theorem get_write (m : InsertionMap κ ν) (e : κ × Option ν) (k : κ) :
    (m.write e).get k = if k = e.1 then e.2 else m.get k := by
  obtain ⟨j, w⟩ := e
  cases w with
  | none => exact get_delete m j k
  | some v => exact get_set m j k v

variable {writes : List (κ × Option ν)} {k : κ}

theorem get_foldl_write_of_notMem (h : k ∉ writes.map Prod.fst) (m : InsertionMap κ ν) :
    (writes.foldl write m).get k = m.get k := by
  induction writes generalizing m with
  | nil => rfl
  | cons e writes ih =>
    rw [List.map_cons, List.mem_cons, not_or] at h
    rw [List.foldl_cons, ih h.2, get_write, if_neg h.1]

theorem get_foldl_write_of_mem {w : Option ν} (h : (k, w) ∈ writes)
    (hnodup : (writes.map Prod.fst).Nodup) (m : InsertionMap κ ν) : (writes.foldl write m).get k = w := by
  induction writes generalizing m with
  | nil => cases h
  | cons e writes ih =>
    rw [List.map_cons, List.nodup_cons] at hnodup
    rw [List.foldl_cons]
    rcases List.mem_cons.mp h with rfl | h
    · rw [get_foldl_write_of_notMem hnodup.1, get_write, if_pos rfl]
    · exact ih h hnodup.2 _

theorem flatMap_entries_set {β : Type*} (m : InsertionMap κ ν) {v : ν} {f : κ × ν → List β} {xs : List β}
    (h : (f (k, v)).Perm (((m.get k).elim [] fun old => f (k, old)) ++ xs)) :
    ((m.set k v).entries.flatMap f).Perm (m.entries.flatMap f ++ xs) := by
  obtain ⟨entries, hnodup⟩ := m
  change (f (k, v)).Perm (((entries.lookup k).elim [] fun old => f (k, old)) ++ xs) at h
  change ((setEntry k v entries).flatMap f).Perm (entries.flatMap f ++ xs)
  clear hnodup
  induction entries with
  | nil =>
    rw [List.lookup_nil, Option.elim_none, List.nil_append] at h
    rw [setEntry, List.flatMap_singleton, List.flatMap_nil, List.nil_append]
    exact h
  | cons e entries ih =>
    rw [lookup_cons_ite] at h
    rw [setEntry]
    by_cases he : e.1 = k
    · subst he
      rw [if_pos rfl, Option.elim_some] at h
      rw [if_pos rfl, List.flatMap_cons, List.flatMap_cons, List.append_assoc]
      refine (h.append_right _).trans ?_
      rw [List.append_assoc]
      exact List.Perm.append_left _ List.perm_append_comm
    · rw [if_neg (Ne.symm he)] at h
      rw [if_neg he, List.flatMap_cons, List.flatMap_cons, List.append_assoc]
      exact List.Perm.append_left _ (ih h)

end Writes

end InsertionMap
