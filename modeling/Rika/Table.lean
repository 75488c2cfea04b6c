import Mathlib.Data.List.Dedup

/-- A table with a primary key: its rows, in the order they were inserted, no
two of them with one key. -/
structure Table {ρ κ : Type*} (key : ρ → κ) where
  rows : List ρ
  unique : (rows.map key).Nodup

namespace Table

variable {ρ κ : Type*} {key : ρ → κ}

def empty : Table key := ⟨[], List.nodup_nil⟩

instance : Inhabited (Table key) := ⟨empty⟩

section

variable (table : Table key) (p : ρ → Bool)

def select : List ρ := table.rows.filter p

/-- `UPDATE .. SET .. WHERE p`, where the assignment leaves the key alone. -/
def update (f : ρ → ρ) (hf : ∀ row, key (f row) = key row := by intro _; rfl) : Table key where
  rows := table.rows.map fun row => if p row then f row else row
  unique := by
    have hkeys : (table.rows.map fun row => if p row then f row else row).map key = table.rows.map key := by
      rw [List.map_map]
      apply List.map_congr_left
      intro row _
      dsimp only [Function.comp_apply]
      split
      · exact hf row
      · rfl
    rw [hkeys]
    exact table.unique

/-- `DELETE .. WHERE p`. -/
def delete : Table key where
  rows := table.rows.filter fun row => !p row
  unique := table.unique.sublist (List.filter_sublist.map _)

end

variable {table table' : Table key} {p : ρ → Bool} {row row' : ρ} {f : ρ → ρ} {hf : ∀ row, key (f row) = key row} {k : κ}

@[simp] theorem mem_select :
    row ∈ table.select p ↔ row ∈ table.rows ∧ p row = true := List.mem_filter

theorem rows_update (table : Table key) (p : ρ → Bool) (f : ρ → ρ) (hf : ∀ row, key (f row) = key row) :
    (table.update p f hf).rows = table.rows.map fun row => if p row then f row else row := rfl

theorem rows_delete (table : Table key) (p : ρ → Bool) :
    (table.delete p).rows = table.rows.filter fun row => !p row := rfl

@[simp] theorem mem_update : row ∈ (table.update p f hf).rows ↔ ∃ old ∈ table.rows, (if p old then f old else old) = row :=
  List.mem_map

@[simp] theorem mem_delete : row ∈ (table.delete p).rows ↔ row ∈ table.rows ∧ p row = false := by
  simp [rows_delete]

theorem eq_of_key_eq (table : Table key) (h : row ∈ table.rows) (h' : row' ∈ table.rows)
    (hkey : key row = key row') : row = row' :=
  List.inj_on_of_nodup_map table.unique h h' hkey

variable [DecidableEq κ]

section

variable (table : Table key)

def find (k : κ) : Option ρ := table.rows.find? fun row => key row = k

/-- `INSERT`: refused when the key is taken. -/
def insert (row : ρ) : Option (Table key) :=
  if h : key row ∈ table.rows.map key then none
  else
    some
      { rows := table.rows ++ [row]
        unique := by
          rw [List.map_append, List.map_singleton, ← List.concat_eq_append]
          exact table.unique.concat h }

/-- `INSERT .. ON CONFLICT DO UPDATE SET f`. -/
def upsert (row : ρ) (f : ρ → ρ) (hf : ∀ row, key (f row) = key row := by intro _; rfl) :
    Table key :=
  match table.insert row with
  | some table' => table'
  | none => table.update (fun old => key old = key row) f hf

def set (row : ρ) : Table key :=
  table.upsert row (fun old => if key old = key row then row else old) (by
    intro old
    split
    · next h => exact h.symm
    · rfl)

def insertAll (rows : List ρ) : Option (Table key) := rows.foldlM insert table

end

theorem find_eq_some {table : Table key} {k : κ} {row : ρ} :
    table.find k = some row ↔ row ∈ table.rows ∧ key row = k := by
  constructor
  · intro h
    exact ⟨List.mem_of_find?_eq_some h, by simpa using List.find?_some h⟩
  · rintro ⟨hrow, rfl⟩
    cases hfind : table.find (key row) with
    | none =>
      have hne := List.find?_eq_none.mp hfind row hrow
      simp at hne
    | some other =>
      have hother := List.mem_of_find?_eq_some hfind
      have hkey : key other = key row := by simpa using List.find?_some hfind
      rw [table.eq_of_key_eq hother hrow hkey]

theorem find_eq_none : table.find k = none ↔ ∀ row ∈ table.rows, key row ≠ k := by
  simp [find]

theorem mem_of_find (h : table.find k = some row) : row ∈ table.rows :=
  (find_eq_some.mp h).1

theorem key_of_find (h : table.find k = some row) : key row = k :=
  (find_eq_some.mp h).2

theorem find_key (h : row ∈ table.rows) : table.find (key row) = some row :=
  find_eq_some.mpr ⟨h, rfl⟩

theorem find_eq_none_iff_notMem : table.find k = none ↔ k ∉ table.rows.map key := by
  rw [find_eq_none, List.mem_map]
  exact ⟨fun h ⟨other, hother, hkey⟩ => h other hother hkey, fun h other hother hkey => h ⟨other, hother, hkey⟩⟩

theorem insert_eq_none : table.insert row = none ↔ table.find (key row) ≠ none := by
  rw [insert, Ne, find_eq_none_iff_notMem, not_not]
  split <;> simp_all

theorem insert_eq_some : table.insert row = some table' ↔ table.find (key row) = none ∧ table'.rows = table.rows ++ [row] := by
  rw [insert, find_eq_none_iff_notMem]
  split
  · next h => simp [h]
  · next h =>
      obtain ⟨rows', unique'⟩ := table'
      simp [h, eq_comm]

theorem find_of_rows_append (h : table'.rows = table.rows ++ [row]) (k : κ) :
    table'.find k = if k = key row then some row else table.find k := by
  split
  · next hk => exact find_eq_some.mpr ⟨by rw [h]; simp, hk.symm⟩
  · next hk =>
      rw [find, h, List.find?_append, List.find?_singleton, if_neg (by simpa using Ne.symm hk), Option.or_none]
      rfl

theorem find_insert (h : table.insert row = some table') (k : κ) :
    table'.find k = if k = key row then some row else table.find k :=
  find_of_rows_append (insert_eq_some.mp h).2 k

theorem mem_update_key (h : table.find (key row) = some row) :
    row' ∈ (table.update (fun other => key other = key row) f hf).rows ↔
      row' = f row ∨ row' ∈ table.rows ∧ key row' ≠ key row := by
  rw [mem_update]
  constructor
  · rintro ⟨old, hold, rfl⟩
    by_cases hkey : key old = key row
    · obtain rfl := table.eq_of_key_eq hold (mem_of_find h) hkey
      exact .inl (if_pos (decide_eq_true rfl))
    · rw [if_neg (by simpa using hkey)]
      exact .inr ⟨hold, hkey⟩
  · rintro (rfl | ⟨hrow', hkey⟩)
    · exact ⟨row, mem_of_find h, if_pos (decide_eq_true rfl)⟩
    · exact ⟨row', hrow', if_neg (by simpa using hkey)⟩

@[simp] theorem find_update (table : Table key) (p : ρ → Bool) (f : ρ → ρ) (hf : ∀ row, key (f row) = key row)
    (k : κ) : (table.update p f hf).find k = (table.find k).map fun row => if p row then f row else row := by
  cases hfind : table.find k with
  | none =>
    rw [Option.map_none, find_eq_none]
    intro row hrow
    obtain ⟨old, hold, rfl⟩ := mem_update.mp hrow
    have hne := find_eq_none.mp hfind old hold
    split
    · rwa [hf]
    · exact hne
  | some row =>
    obtain ⟨hrow, rfl⟩ := find_eq_some.mp hfind
    refine find_eq_some.mpr ⟨mem_update.mpr ⟨row, hrow, rfl⟩, ?_⟩
    dsimp only
    split
    · exact hf row
    · rfl

theorem find_update_key (h : table.find (key row) = some row) (f : ρ → ρ) (hf : ∀ row, key (f row) = key row) (k : κ) :
    (table.update (fun other => key other = key row) f hf).find k =
      if k = key row then some (f row) else table.find k := by
  rw [find_update]
  split
  · next hk =>
      rw [hk, h, Option.map_some]
      exact congrArg some (if_pos (decide_eq_true rfl))
  · next hk =>
      cases hfind : table.find k with
      | none => rfl
      | some other =>
        rw [Option.map_some, key_of_find hfind]
        exact congrArg some (if_neg (by simpa using hk))

@[simp] theorem find_delete (table : Table key) (p : ρ → Bool) (k : κ) :
    (table.delete p).find k = (table.find k).filter fun row => !p row := by
  ext row
  rw [find_eq_some, mem_delete, Option.filter_eq_some_iff, find_eq_some]
  simp only [Bool.not_eq_true']
  tauto

theorem find_upsert (table : Table key) (row : ρ) (f : ρ → ρ) (hf : ∀ row, key (f row) = key row) (k : κ) :
    (table.upsert row f hf).find k =
      if k = key row then some ((table.find k).elim row f) else table.find k := by
  rw [upsert]
  split
  · next table' h =>
      rw [find_insert h]
      split
      · next hk => rw [hk, (insert_eq_some.mp h).1, Option.elim_none]
      · rfl
  · next h =>
      rw [find_update]
      cases hfind : table.find k with
      | none =>
        have hk : k ≠ key row := fun hk => insert_eq_none.mp h (hk ▸ hfind)
        rw [if_neg hk, Option.map_none]
      | some old =>
        rw [Option.map_some, key_of_find hfind, Option.elim_some]
        by_cases hk : k = key row <;> simp [hk]

theorem mem_upsert (h : row' ∈ (table.upsert row f hf).rows) :
    row' = row ∨ row' ∈ table.rows ∨ ∃ old ∈ table.rows, key old = key row ∧ f old = row' := by
  have hfind := find_key h
  rw [find_upsert] at hfind
  split at hfind
  · next hk =>
      cases hold : table.find (key row') with
      | none =>
        rw [hold] at hfind
        exact .inl (Option.some_inj.mp hfind).symm
      | some old =>
        rw [hold] at hfind
        obtain ⟨hmem, hkey⟩ := find_eq_some.mp hold
        exact .inr (.inr ⟨old, hmem, hkey.trans hk, Option.some_inj.mp hfind⟩)
  · exact .inr (.inl (mem_of_find hfind))

theorem find_set (table : Table key) (row : ρ) (k : κ) :
    (table.set row).find k = if k = key row then some row else table.find k := by
  rw [set, find_upsert]
  split
  · next hk =>
      cases hold : table.find k with
      | none => rfl
      | some old => rw [Option.elim_some, if_pos ((key_of_find hold).trans hk)]
  · rfl

theorem mem_set : row' ∈ (table.set row).rows ↔ row' = row ∨ row' ∈ table.rows ∧ key row' ≠ key row := by
  constructor
  · intro h
    have hfind := find_key h
    rw [find_set] at hfind
    split at hfind
    · exact .inl (Option.some_inj.mp hfind).symm
    · next hne => exact .inr ⟨mem_of_find hfind, hne⟩
  · rintro (rfl | ⟨hrow, hne⟩)
    · exact mem_of_find (by rw [find_set, if_pos rfl])
    · exact mem_of_find (by rw [find_set, if_neg hne, find_key hrow])

theorem mem_set_new (h : ∀ other ∈ table.rows, key other ≠ key row) :
    row' ∈ (table.set row).rows ↔ row' = row ∨ row' ∈ table.rows := by
  rw [mem_set]
  exact or_congr_right (and_iff_left_of_imp (h row'))

section Held

variable {τ : Type*} {g : ρ → τ} {value : τ}

theorem map_find_eq_some : (table.find k).map g = some value ↔ ∃ row ∈ table.rows, key row = k ∧ g row = value := by
  simp only [Option.map_eq_some_iff, find_eq_some, and_assoc]

theorem mem_delete_held [DecidableEq τ] :
    row ∈ (table.delete fun row => decide ((table.find k).map g = some value) && decide (key row = k)).rows ↔
      row ∈ table.rows ∧ ¬ (key row = k ∧ g row = value) := by
  rw [mem_delete, Bool.and_eq_false_iff, decide_eq_false_iff_not, decide_eq_false_iff_not, map_find_eq_some]
  refine and_congr_right fun hrow => ⟨?_, ?_⟩
  · rintro (hnone | hother) ⟨hkey, hvalue⟩
    · exact hnone ⟨row, hrow, hkey, hvalue⟩
    · exact hother hkey
  · intro hkept
    by_cases hkey : key row = k
    · left
      rintro ⟨other, hother, hkey', hvalue⟩
      rw [table.eq_of_key_eq hother hrow (hkey'.trans hkey.symm)] at hvalue
      exact hkept ⟨hkey, hvalue⟩
    · exact .inr hkey

end Held

theorem rows_upsert_ne_nil (table : Table key) (row : ρ) (f : ρ → ρ) (hf : ∀ row, key (f row) = key row) :
    (table.upsert row f hf).rows ≠ [] := by
  have hfind := find_upsert table row f hf (key row)
  rw [if_pos rfl] at hfind
  exact List.ne_nil_of_mem (mem_of_find hfind)

theorem rows_insertAll {rows : List ρ} (h : table.insertAll rows = some table') : table'.rows = table.rows ++ rows := by
  induction rows generalizing table with
  | nil =>
    cases h
    rw [List.append_nil]
  | cons row rows ih =>
    rw [insertAll, List.foldlM_cons] at h
    obtain ⟨next, hnext, h⟩ := Option.bind_eq_some_iff.mp h
    rw [ih h, (insert_eq_some.mp hnext).2, List.append_assoc, List.singleton_append]

section

variable (table : Table key)

theorem filter_key (k : κ) :
    (table.rows.filter fun row => key row = k) = (table.find k).toList := by
  cases hfind : table.find k with
  | none =>
    rw [Option.toList_none, List.filter_eq_nil_iff]
    intro row hrow
    simpa using find_eq_none.mp hfind row hrow
  | some row =>
    have hrow : row ∈ table.rows.filter fun row => key row = k := by simpa using find_eq_some.mp hfind
    have hnodup : (table.rows.filter fun row => key row = k).Nodup := (List.Nodup.of_map key table.unique).filter _
    obtain ⟨-, hkey⟩ := find_eq_some.mp hfind
    refine List.perm_singleton.mp ((List.perm_ext_iff_of_nodup hnodup (List.nodup_singleton row)).mpr ?_)
    intro other
    rw [List.mem_singleton]
    constructor
    · intro hother
      obtain ⟨hmem, hof⟩ := by simpa using hother
      exact table.eq_of_key_eq hmem (mem_of_find hfind) (hof.trans hkey.symm)
    · rintro rfl
      exact hrow

theorem rows_perm (k : κ) :
    table.rows.Perm ((table.find k).toList ++ table.rows.filter fun row => key row ≠ k) := by
  have hsplit := (List.filter_append_perm (fun row => decide (key row = k)) table.rows).symm
  rw [filter_key] at hsplit
  simpa using hsplit

section

variable (row : ρ) (f : ρ → ρ) (hf : ∀ row, key (f row) = key row)

theorem filter_upsert
    (hrow : p row = false) (hold : ∀ old ∈ table.rows, key old = key row → p old = false ∧ p (f old) = false) :
    (table.upsert row f hf).rows.filter p = table.rows.filter p := by
  rw [upsert]
  split
  · next table' h => rw [(insert_eq_some.mp h).2, List.filter_append, List.filter_singleton, hrow]; simp
  · rw [rows_update]
    generalize table.rows = rows at hold ⊢
    induction rows with
    | nil => rfl
    | cons old rows ih =>
      rw [List.map_cons, List.filter_cons, List.filter_cons, ih fun other hother => hold other (by simp [hother])]
      by_cases hkey : key old = key row
      · obtain ⟨hp, hpf⟩ := hold old (by simp) hkey
        simp [hkey, hp, hpf]
      · simp [hkey]

theorem rows_upsert_perm : (table.upsert row f hf).rows.Perm
      ((table.find (key row)).elim row f :: table.rows.filter fun other => key other ≠ key row) := by
  have hperm := (table.upsert row f hf).rows_perm (key row)
  rw [find_upsert, if_pos rfl, Option.toList_some, List.singleton_append, filter_upsert table row f hf] at hperm
  · exact hperm
  · simp
  · intro old _ hkey
    simp [hf, hkey]

end

theorem length_set_le (row : ρ) : (table.set row).rows.length ≤ table.rows.length + 1 := by
  rw [set, (rows_upsert_perm ..).length_eq, List.length_cons]
  exact Nat.add_le_add_right (List.length_filter_le ..) 1

end

theorem length_delete_key (h : table.find k = some row) :
    (table.delete fun row => key row = k).rows.length + 1 = table.rows.length := by
  rw [(table.rows_perm k).length_eq, h, rows_delete, Option.toList_some, List.singleton_append, List.length_cons]
  simp

theorem countP_change (h : table.find k = some row) {q : ρ → Bool}
    (hpq : ∀ other ∈ table.rows, key other ≠ k → p other = q other) :
    table.rows.countP p + (q row).toNat = table.rows.countP q + (p row).toNat := by
  obtain ⟨hrow, rfl⟩ := find_eq_some.mp h
  obtain ⟨rows, unique⟩ := table
  obtain ⟨before, after, rfl⟩ := List.append_of_mem hrow
  rw [List.map_append, List.map_cons, List.nodup_middle, List.nodup_cons, List.mem_append] at unique
  have hbefore : before.countP p = before.countP q := by
    apply List.countP_congr
    intro other hother
    have hne : key other ≠ key row := fun hkey => unique.1 (.inl (hkey ▸ List.mem_map_of_mem hother))
    rw [hpq other (by simp [hother]) hne]
  have hafter : after.countP p = after.countP q := by
    apply List.countP_congr
    intro other hother
    have hne : key other ≠ key row := fun hkey => unique.1 (.inr (hkey ▸ List.mem_map_of_mem hother))
    rw [hpq other (by simp [hother]) hne]
  have hone (p : ρ → Bool) : (row :: after).countP p = after.countP p + (p row).toNat := by
    rw [List.countP_cons]
    cases p row <;> rfl
  rw [List.countP_append, List.countP_append, hbefore, hone, hone, hafter]
  omega

end Table
