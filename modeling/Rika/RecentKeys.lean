import Mathlib.Data.List.Perm.Subperm
import Rika.InsertionMap

namespace InsertionMap

variable {κ ν : Type*}

theorem keys_evict (limit : Nat) (m : InsertionMap κ ν) : (m.evict limit).keys = m.keys.drop (m.size - limit) :=
  List.map_drop

theorem size_eq (m : InsertionMap κ ν) : m.size = m.keys.length := List.length_map .. |>.symm

/-- The key is there, and every key after it is one of the others. -/
def Recent (m : InsertionMap κ ν) (k : κ) (others : List κ) : Prop :=
  ∃ older newer, m.keys = older ++ k :: newer ∧ newer ⊆ others

variable {m : InsertionMap κ ν} {k : κ} {limit : Nat} {others : List κ}

theorem recent_evict {older newer : List κ}
    (hkeys : m.keys = older ++ k :: newer) (hsub : newer ⊆ others) (hlt : newer.length < limit) :
    (m.evict limit).Recent k others := by
  have hsize : m.size - limit ≤ older.length := by
    rw [size_eq, hkeys, List.length_append, List.length_cons]
    omega
  refine ⟨older.drop (m.size - limit), newer, ?_, hsub⟩
  rw [keys_evict, hkeys, List.drop_append_of_le_length hsize]

variable [DecidableEq κ]

def renew (limit : Nat) (m : InsertionMap κ ν) (k : κ) (v : ν) : InsertionMap κ ν :=
  ((m.delete k).set k v).evict limit

theorem Recent.get (h : m.Recent k others) : ∃ v, m.get k = some v := by
  obtain ⟨older, newer, hkeys, -⟩ := h
  rw [← mem_keys, hkeys]
  exact List.mem_append_right _ (List.mem_cons_self ..)

theorem keys_renewed (m : InsertionMap κ ν) (k : κ) (v : ν) :
    ((m.delete k).set k v).keys = m.keys.filter (· ≠ k) ++ [k] := by
  have hnone : (m.delete k).get k = none := by
    rw [get_delete, if_pos rfl]
  have hfilter : (m.delete k).keys = m.keys.filter (· ≠ k) := by
    rw [keys, delete, keys, List.filter_map]
    rfl
  rw [← hfilter, keys, entries_set_of_get_none hnone, List.map_append]
  rfl

theorem recent_renew_self (hlimit : 0 < limit) (m : InsertionMap κ ν) (k : κ) (v : ν) : (m.renew limit k v).Recent k [] :=
  recent_evict (keys_renewed m k v) (List.Subset.refl _) hlimit

theorem length_le_dedup {keys : List κ} (hnodup : keys.Nodup) (hsub : keys ⊆ others) : keys.length ≤ others.dedup.length :=
  (hnodup.subperm fun _ hk => List.mem_dedup.mpr (hsub hk)).length_le

theorem recent_renew {k' : κ} (h : m.Recent k others)
    (hne : k' ≠ k) (hlt : (k' :: others).dedup.length < limit) (v : ν) : (m.renew limit k' v).Recent k (k' :: others) := by
  obtain ⟨older, newer, hkeys, hsub⟩ := h
  have hrenewed : ((m.delete k').set k' v).keys =
      older.filter (· ≠ k') ++ k :: (newer.filter (· ≠ k') ++ [k']) := by
    rw [keys_renewed, hkeys, List.filter_append, List.filter_cons_of_pos (by simpa using Ne.symm hne), List.append_assoc]
    rfl
  have hsub' : newer.filter (· ≠ k') ++ [k'] ⊆ k' :: others := by
    intro key hkey
    rcases List.mem_append.mp hkey with hkey | hkey
    · exact List.mem_cons_of_mem _ (hsub (List.mem_of_mem_filter hkey))
    · rw [List.mem_singleton.mp hkey]
      exact List.mem_cons_self ..
  have hnodup : (newer.filter (· ≠ k') ++ [k']).Nodup := by
    have hall : ((m.delete k').set k' v).keys.Nodup := ((m.delete k').set k' v).nodupKeys
    rw [hrenewed] at hall
    exact (List.nodup_cons.mp (List.Nodup.of_append_right hall)).2
  exact recent_evict hrenewed hsub' (Nat.lt_of_le_of_lt (length_le_dedup hnodup hsub') hlt)

def renewedSince (k : κ) (since : Option (List κ)) (renewed : List κ) : Option (List κ) :=
  renewed.foldl (fun since k' => if k' = k then some [] else since.map (k' :: ·)) since

/-- The key is recent as long as fewer others than the limit were renewed since. -/
def Tracks (limit : Nat) (m : InsertionMap κ ν) (k : κ) (since : Option (List κ)) : Prop :=
  ∀ others, since = some others → others.dedup.length < limit → m.Recent k others

theorem Tracks.none (limit : Nat) (m : InsertionMap κ ν) (k : κ) : m.Tracks limit k none := by
  intro others h
  cases h

theorem Tracks.renewAll (hlimit : 0 < limit) {since : Option (List κ)} (h : m.Tracks limit k since) (renewed : List (κ × ν)) :
    (renewed.foldl (fun m e => m.renew limit e.1 e.2) m).Tracks limit k (renewedSince k since (renewed.map Prod.fst)) := by
  induction renewed generalizing m since with
  | nil => exact h
  | cons e renewed ih =>
    refine ih ?_
    intro others hothers hlt
    dsimp only at hothers ⊢
    by_cases hself : e.1 = k
    · rw [if_pos hself] at hothers
      obtain rfl := Option.some_inj.mp hothers
      rw [← hself]
      exact recent_renew_self hlimit m e.1 e.2
    · rw [if_neg hself] at hothers
      obtain ⟨earlier, hearlier, rfl⟩ := Option.map_eq_some_iff.mp hothers
      have hle : earlier.dedup.length ≤ (e.1 :: earlier).dedup.length :=
        length_le_dedup (List.nodup_dedup earlier) fun _ hk => List.mem_cons_of_mem _ (List.mem_dedup.mp hk)
      exact recent_renew (h earlier hearlier (Nat.lt_of_le_of_lt hle hlt)) hself hlt e.2

end InsertionMap
