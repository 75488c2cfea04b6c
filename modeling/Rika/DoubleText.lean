import Mathlib.Data.Nat.Log
import Mathlib.Tactic.Ring

/-! The naturals that a double holds, and the numerals it is printed as. -/

namespace Double

section

variable (n : Nat)

def ulp : Nat := 2 ^ (Nat.log 2 n - 52)

def round : Nat :=
  if 2 * (n % ulp n) < ulp n ∨ 2 * (n % ulp n) = ulp n ∧ n / ulp n % 2 = 0 then n / ulp n * ulp n
  else (n / ulp n + 1) * ulp n

def shorter (double zeros : Nat) : Option Nat :=
  let down := double / 10 ^ zeros * 10 ^ zeros
  let up := down + 10 ^ zeros
  (if double - down ≤ up - double then [down, up] else [up, down]).find? fun numeral => round numeral = double

def print (double : Nat) : Nat := (((List.range 20).reverse).findSome? (shorter double)).getD double

def reprint : Nat := print (round n)

theorem ulp_pos : 0 < ulp n := Nat.two_pow_pos _

theorem ulp_mono {n m : Nat} (h : n ≤ m) : ulp n ≤ ulp m :=
  Nat.pow_le_pow_right (by omega) (Nat.sub_le_sub_right (Nat.log_mono_right h) 52)

theorem lt_ulp : n < 2 ^ 53 * ulp n := by
  have hlog : n < 2 ^ (Nat.log 2 n + 1) := Nat.lt_pow_succ_log_self (by omega) n
  rw [ulp, ← pow_add]
  exact hlog.trans_le (Nat.pow_le_pow_right (by omega) (by omega))

theorem ulp_le {n : Nat} (h : 1 < ulp n) : 2 ^ 52 * ulp n ≤ n := by
  have hlog : 52 < Nat.log 2 n := by
    by_contra hle
    rw [ulp, Nat.sub_eq_zero_of_le (by omega)] at h
    omega
  have hne : n ≠ 0 := fun hzero => by rw [hzero, Nat.log_zero_right] at hlog; omega
  rw [ulp, ← pow_add, Nat.add_sub_cancel' (by omega)]
  exact Nat.pow_log_le_self 2 hne

theorem le_round : n / ulp n * ulp n ≤ round n := by
  rw [round]
  split
  · exact le_refl _
  · exact Nat.mul_le_mul_right _ (Nat.le_succ _)

theorem round_le : round n ≤ (n / ulp n + 1) * ulp n := by
  rw [round]
  split
  · exact Nat.mul_le_mul_right _ (Nat.le_succ _)
  · exact le_refl _

theorem div_ulp_lt : n / ulp n < 2 ^ 53 := by
  rw [Nat.div_lt_iff_lt_mul (ulp_pos n)]
  exact lt_ulp n

theorem round_le_of_ulp_eq {n m : Nat} (hulp : ulp n = ulp m) (h : n ≤ m) : round n ≤ round m := by
  have hdiv : n / ulp m ≤ m / ulp m := Nat.div_le_div_right h
  have hn := Nat.div_add_mod n (ulp m)
  have hm := Nat.div_add_mod m (ulp m)
  rcases hdiv.lt_or_eq with hlt | heq
  · calc
      round n ≤ (n / ulp n + 1) * ulp n := round_le n
      _ ≤ m / ulp m * ulp m := by rw [hulp]; exact Nat.mul_le_mul_right _ hlt
      _ ≤ round m := le_round m
  · rw [heq] at hn
    rw [round, round, hulp, heq]
    split
    · split
      · exact le_refl _
      · exact Nat.mul_le_mul_right _ (Nat.le_succ _)
    · split
      · omega
      · exact le_refl _

theorem round_le_of_ulp_lt {n m : Nat} (hulp : ulp n < ulp m) : round n ≤ round m := by
  have htwo : 2 * ulp n ≤ ulp m := by
    rw [ulp, ulp] at hulp
    rw [ulp, ulp, mul_comm, ← pow_succ]
    exact Nat.pow_le_pow_right (by omega) ((Nat.pow_lt_pow_iff_right (by omega)).mp hulp)
  have hone : 1 < ulp m := Nat.lt_of_le_of_lt (ulp_pos n) hulp
  have hdiv : 2 ^ 52 ≤ m / ulp m := (Nat.le_div_iff_mul_le (ulp_pos m)).mpr (ulp_le hone)
  calc
    round n ≤ (n / ulp n + 1) * ulp n := round_le n
    _ ≤ 2 ^ 53 * ulp n := Nat.mul_le_mul_right _ (div_ulp_lt n)
    _ = 2 ^ 52 * (2 * ulp n) := by ring
    _ ≤ 2 ^ 52 * ulp m := Nat.mul_le_mul_left _ htwo
    _ ≤ m / ulp m * ulp m := Nat.mul_le_mul_right _ hdiv
    _ ≤ round m := le_round m

theorem round_mono : Monotone round := fun _ _ h =>
  (ulp_mono h).lt_or_eq.elim round_le_of_ulp_lt fun hulp => round_le_of_ulp_eq hulp h

theorem round_of_dvd {n : Nat} (h : ulp n ∣ n) : round n = n := by
  rw [round, Nat.mod_eq_zero_of_dvd h, if_pos (.inl (ulp_pos n)), Nat.div_mul_cancel h]

theorem round_mul {a : Nat} (j : Nat) (h : a ≤ 2 ^ 53) : round (a * 2 ^ j) = a * 2 ^ j := by
  apply round_of_dvd
  rcases h.lt_or_eq with hlt | rfl
  · have hlog : Nat.log 2 (a * 2 ^ j) - 52 ≤ j := by
      by_cases hzero : a = 0
      · rw [hzero, Nat.zero_mul, Nat.log_zero_right]
        exact Nat.zero_le _
      · have hpow : a * 2 ^ j < 2 ^ (53 + j) := by
          rw [pow_add]
          exact Nat.mul_lt_mul_of_pos_right hlt (Nat.two_pow_pos j)
        have := Nat.log_lt_of_lt_pow (Nat.mul_ne_zero hzero (Nat.two_pow_pos j).ne') hpow
        omega
    exact Dvd.dvd.mul_left (pow_dvd_pow 2 hlog) a
  · rw [ulp, ← pow_add, Nat.log_pow (by omega)]
    exact pow_dvd_pow 2 (by omega)

theorem round_round : round (round n) = round n := by
  have hlt := div_ulp_lt n
  have hround : round n = n / ulp n * ulp n ∨ round n = (n / ulp n + 1) * ulp n := by
    rw [round]
    exact ite_eq_or_eq _ _ _
  rcases hround with hround | hround
  · rw [hround]
    exact round_mul _ hlt.le
  · rw [hround]
    exact round_mul _ hlt

theorem round_print {double : Nat} (h : round double = double) : round (print double) = double := by
  rw [print]
  cases hfind : ((List.range 20).reverse).findSome? (shorter double) with
  | none => exact h
  | some numeral =>
    obtain ⟨zeros, -, hshorter⟩ := List.exists_of_findSome?_eq_some hfind
    rw [shorter] at hshorter
    have hreads := List.find?_some hshorter
    exact of_decide_eq_true hreads

theorem round_reprint : round (reprint n) = round n := round_print (round_round n)

end

theorem reprint_mono : Monotone reprint := by
  intro n m h
  rcases (round_mono h).lt_or_eq with hlt | heq
  · by_contra hgt
    have hle := round_mono (Nat.le_of_lt (not_le.mp hgt))
    rw [round_reprint, round_reprint] at hle
    omega
  · rw [reprint, reprint, heq]

theorem reprint_reprint (n : Nat) : reprint (reprint n) = reprint n := by
  rw [reprint, round_reprint, reprint]

theorem reprint_zero : reprint 0 = 0 := by decide +kernel

theorem le_reprint {printed n : Nat} (hprinted : reprint printed = printed) (h : printed ≤ n) : printed ≤ reprint n :=
  hprinted ▸ reprint_mono h

example : reprint 9007199254740993 = 9007199254740992 := by decide +kernel

example : reprint (2 ^ 60) = 1152921504606847000 := by decide +kernel

end Double
