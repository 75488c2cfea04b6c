import Mathlib.Tactic.ByContra

namespace Bisection

/-- The loop that halves an interval towards its last point that fits, for as many steps as it
is given. -/
def last (fits : Nat → Bool) : Nat → Nat → Nat → Nat
  | 0, low, _ => low
  | steps + 1, low, high =>
    if low < high then
      if fits ((low + high + 1) / 2) then last fits steps ((low + high + 1) / 2) high
      else last fits steps low ((low + high + 1) / 2 - 1)
    else low

structure IsLast (fits : Nat → Bool) (bound point : Nat) : Prop where
  le : point ≤ bound
  holds : fits point = true
  last : ∀ other, point < other → other ≤ bound → fits other = false

/-- When what fits is closed downwards, an interval is halved down to its last point. -/
theorem isLast_last {fits : Nat → Bool} (hdown : ∀ m n, m ≤ n → fits n = true → fits m = true) {bound : Nat}
    {steps low high : Nat} (hlow : fits low = true) (hle : low ≤ high) (hbound : high ≤ bound)
    (hhigh : ∀ other, high < other → other ≤ bound → fits other = false) (hsteps : high - low ≤ steps) :
    IsLast fits bound (last fits steps low high) := by
  induction steps generalizing low high with
  | zero =>
    obtain rfl : low = high := by omega
    exact ⟨hbound, hlow, hhigh⟩
  | succ steps ih =>
    rw [last]
    by_cases hlt : low < high
    · rw [if_pos hlt]
      by_cases hmiddle : fits ((low + high + 1) / 2) = true
      · rw [if_pos hmiddle]
        exact ih hmiddle (by omega) hbound hhigh (by omega)
      · rw [if_neg hmiddle]
        refine ih hlow (by omega) (by omega) (fun other hother hle' => ?_) (by omega)
        by_contra hfits
        have hother' : (low + high + 1) / 2 ≤ other := by omega
        exact hmiddle (hdown _ _ hother' ((Bool.not_eq_false _).mp hfits))
    · rw [if_neg hlt]
      obtain rfl : low = high := by omega
      exact ⟨hbound, hlow, hhigh⟩

end Bisection
