import Mathlib.Data.List.Basic

namespace Fold

variable {σ α ε : Type*}

theorem bind_eq_ok {β γ : Type _} {x : Except ε β} {f : β → Except ε γ} {c : γ} :
    (x >>= f) = .ok c ↔ ∃ b, x = .ok b ∧ f b = .ok c := by
  cases x with
  | error e => simp [bind, Except.bind]
  | ok b => simp [bind, Except.bind]

theorem ite_error_eq_ok {β : Type*} {p : Prop} [Decidable p] {e : ε} {x : Except ε β} {b : β} :
    (if p then .error e else x) = .ok b ↔ ¬ p ∧ x = .ok b := by
  split <;> simp_all

theorem ite_else_error_eq_ok {β : Type*} {p : Prop} [Decidable p] {e : ε} {x : Except ε β} {b : β} :
    (if p then x else .error e) = .ok b ↔ p ∧ x = .ok b := by
  split <;> simp_all

variable {β : Type*} {s : σ} {f : σ → α → σ} {P : σ → α → Prop}

theorem map_fst_eq_ok {γ : Type*} {x : Except ε (β × γ)} {b : β} (h : x.map Prod.fst = .ok b) : ∃ c, x = .ok (b, c) := by
  cases x with
  | error _ => cases h
  | ok pair =>
    cases h
    exact ⟨pair.2, rfl⟩

theorem map_snd_eq_ok {γ : Type*} {x : Except ε (β × γ)} {c : γ} (h : x.map Prod.snd = .ok c) : ∃ b, x = .ok (b, c) := by
  cases x with
  | error _ => cases h
  | ok pair =>
    cases h
    exact ⟨pair.1, rfl⟩

/-- A loop that cannot fail: each element finds what it needs, and leaves
what the remaining elements need. -/
theorem foldlM_some {f : σ → α → Option σ} (P : σ → List α → Prop)
    (step : ∀ s x xs, P s (x :: xs) → ∃ s', f s x = some s' ∧ P s' xs)
    (xs : List α) (s : σ) (h : P s xs) : ∃ s', xs.foldlM f s = some s' ∧ P s' [] := by
  induction xs generalizing s with
  | nil => exact ⟨s, rfl, h⟩
  | cons x xs ih =>
    obtain ⟨s₁, h₁, hP⟩ := step s x xs h
    obtain ⟨s₂, h₂, hP₂⟩ := ih s₁ hP
    exact ⟨s₂, by rw [List.foldlM_cons, h₁]; exact h₂, hP₂⟩

theorem foldlM_some_preserves {f : σ → α → Option σ} (observe : σ → β)
    (step : ∀ s x s', f s x = some s' → observe s' = observe s) {xs : List α} {s' : σ}
    (h : xs.foldlM f s = some s') : observe s' = observe s := by
  induction xs generalizing s with
  | nil => cases h; rfl
  | cons x xs ih =>
    rw [List.foldlM_cons] at h
    obtain ⟨s₁, h₁, h₂⟩ := Option.bind_eq_some_iff.mp h
    exact (ih h₂).trans (step s x s₁ h₁)

/-- A loop of guarded updates succeeds exactly when every guard holds, and
then computes the fold of the updates. -/
theorem foldlM_guarded {f : σ → α → Except ε σ} {g : σ → α → σ} {P : α → Prop}
    (step : ∀ s x s', f s x = .ok s' ↔ P x ∧ s' = g s x) (xs : List α) (s s' : σ) :
    xs.foldlM f s = .ok s' ↔ (∀ x ∈ xs, P x) ∧ s' = xs.foldl g s := by
  induction xs generalizing s with
  | nil => simp [pure, Except.pure, eq_comm]
  | cons x xs ih =>
    simp only [List.foldlM_cons, bind_eq_ok, step, List.mem_cons, forall_eq_or_imp, List.foldl_cons]
    constructor
    · rintro ⟨s₁, ⟨hx, rfl⟩, h⟩
      obtain ⟨hxs, rfl⟩ := (ih _).mp h
      exact ⟨⟨hx, hxs⟩, rfl⟩
    · rintro ⟨⟨hx, hxs⟩, rfl⟩
      exact ⟨g s x, ⟨hx, rfl⟩, (ih _).mpr ⟨hxs, rfl⟩⟩

/-- `P` holds before every step of a run. -/
def Throughout (f : σ → α → σ) (P : σ → α → Prop) : σ → List α → Prop
  | _, [] => True
  | s, x :: xs => P s x ∧ Throughout f P (f s x) xs

instance throughoutDecidable {f : σ → α → σ} {P : σ → α → Prop} [∀ s x, Decidable (P s x)] (s : σ) :
    (xs : List α) → Decidable (Throughout f P s xs)
  | [] => inferInstanceAs (Decidable True)
  | x :: xs =>
    have : Decidable (Throughout f P (f s x) xs) := throughoutDecidable (f s x) xs
    inferInstanceAs (Decidable (P s x ∧ Throughout f P (f s x) xs))

theorem throughout_append {before : List α} {x : α} {after : List α}
    (h : Throughout f P s (before ++ x :: after)) : Throughout f P s before ∧ P (before.foldl f s) x := by
  induction before generalizing s with
  | nil => exact ⟨trivial, h.1⟩
  | cons y before ih =>
    obtain ⟨hbefore, hx⟩ := ih h.2
    exact ⟨⟨h.1, hbefore⟩, hx⟩

theorem throughout_append_iff {before after : List α} :
    Throughout f P s (before ++ after) ↔ Throughout f P s before ∧ Throughout f P (before.foldl f s) after := by
  induction before generalizing s with
  | nil => simp [Throughout]
  | cons x before ih => simp only [List.cons_append, Throughout, ih, List.foldl_cons, and_assoc]

theorem foldl_invariant (I : σ → Prop)
    (step : ∀ s x, I s → P s x → I (f s x)) {xs : List α} (hs : I s) (hP : Throughout f P s xs) :
    I (xs.foldl f s) := by
  induction xs generalizing s with
  | nil => exact hs
  | cons x xs ih => exact ih (step s x hs hP.1) hP.2

def refuse (error : Option ε) : Except ε Unit :=
  match error with
  | none => .ok ()
  | some error => .error error

theorem refuse_eq_ok {error : Option ε} {u : Unit} : refuse error = .ok u ↔ error = none := by
  cases error <;> simp [refuse]

end Fold
