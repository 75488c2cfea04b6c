import Mathlib.Data.List.Basic

/-! Logs that grow at their end only, each item under a guard on those before it. -/

namespace AppendLog

variable {α : Type*} {follows : List α → α → Bool} {log : List α} {item : α}

def Guarded (follows : List α → α → Bool) (log : List α) : Prop :=
  ∀ i item, log[i]? = some item → follows (log.take i) item = true

theorem guarded_nil : Guarded follows [] := nofun

theorem Guarded.concat (h : Guarded follows log) (hitem : follows log item = true) : Guarded follows (log ++ [item]) := by
  intro i other hother
  by_cases hi : i < log.length
  · rw [List.getElem?_append_left hi] at hother
    rw [List.take_append_of_le_length (Nat.le_of_lt hi)]
    exact h i other hother
  · have hlt : i < (log ++ [item]).length := (List.getElem?_eq_some_iff.mp hother).1
    obtain rfl : i = log.length := by
      rw [List.length_append, List.length_singleton] at hlt
      omega
    rw [List.getElem?_concat_length] at hother
    obtain rfl := Option.some_inj.mp hother
    rwa [List.take_left]

theorem Guarded.of_concat (h : Guarded follows (log ++ [item])) : Guarded follows log ∧ follows log item = true := by
  constructor
  · intro i other hother
    have hlt : i < log.length := (List.getElem?_eq_some_iff.mp hother).1
    have hfollows := h i other (by rw [List.getElem?_append_left hlt, hother])
    rwa [List.take_append_of_le_length (Nat.le_of_lt hlt)] at hfollows
  · have hfollows := h log.length item List.getElem?_concat_length
    rwa [List.take_left] at hfollows

theorem Guarded.split {before after : List α} (h : Guarded follows (before ++ item :: after)) :
    follows before item = true := by
  have hfollows := h before.length item (by simp)
  rwa [List.take_left] at hfollows

theorem Guarded.last {p : α → Bool} (h : Guarded follows log)
    (hcloses : ∀ known item, follows known item = true → known.any p = false) {i : Nat} (hi : log[i]? = some item)
    (hp : p item = true) : i + 1 = log.length := by
  have hlt : i < log.length := (List.getElem?_eq_some_iff.mp hi).1
  by_contra hne
  have hnext : i + 1 < log.length := by omega
  have hnone := hcloses _ _ (h (i + 1) log[i + 1] (List.getElem?_eq_getElem hnext))
  rw [List.any_eq_false] at hnone
  exact hnone item (List.mem_of_getElem? (by rw [List.getElem?_take_of_lt (Nat.lt_succ_self i)]; exact hi)) hp

end AppendLog
