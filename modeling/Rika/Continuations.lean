import Mathlib.Logic.Relation

namespace Continuations

variable {σ ρ ι : Type*}

/-- Asking, and then asking for each continuation that an answer offers, until none is left. -/
inductive Follows (answers : σ → ρ → Prop) (next : ρ → List σ) : List σ → List ρ → Prop
  | done : Follows answers next [] []
  | ask {s : σ} {r : ρ} {pending : List σ} {rs : List ρ} : answers s r → Follows answers next (next r ++ pending) rs →
      Follows answers next (s :: pending) (r :: rs)

section

variable (answers : σ → ρ → Prop) (next : ρ → List σ)

def Offers (s s' : σ) : Prop := ∃ r, answers s r ∧ s' ∈ next r

def Reached : σ → σ → Prop := Relation.ReflTransGen (Offers answers next)

end

variable {answers : σ → ρ → Prop} {next : ρ → List σ}

variable {good : σ → Prop} {s : σ} {rs : List ρ} {pending : List σ}

theorem Reached.keeps (hgood : ∀ s r, good s → answers s r → ∀ s' ∈ next r, good s') {s' : σ}
    (h : Reached answers next s s') (hs : good s) : good s' := by
  induction h with
  | refl => exact hs
  | tail _ hoffers ih =>
    obtain ⟨r, hanswer, hmem⟩ := hoffers
    exact hgood _ r ih hanswer _ hmem

theorem Follows.append {left right : List σ} {rs' : List ρ} (hleft : Follows answers next left rs)
    (hright : Follows answers next right rs') : Follows answers next (left ++ right) (rs ++ rs') := by
  induction hleft with
  | done => exact hright
  | ask hanswer _ ih => exact .ask hanswer (by rwa [List.append_assoc] at ih)

theorem Follows.all (h : ∀ s ∈ pending, ∃ rs, Follows answers next [s] rs) : ∃ rs, Follows answers next pending rs := by
  induction pending with
  | nil => exact ⟨[], .done⟩
  | cons s pending ih =>
    obtain ⟨rs, hrs⟩ := h s List.mem_cons_self
    obtain ⟨rest, hrest⟩ := ih fun s' hs' => h s' (List.mem_cons_of_mem s hs')
    exact ⟨rs ++ rest, hrs.append hrest⟩

theorem exists_follows {β : Type*} {lt : β → β → Prop} (hwf : WellFounded lt) (measure : σ → β)
    (hstep : ∀ s, good s → ∃ r, answers s r ∧ ∀ s' ∈ next r, good s' ∧ lt (measure s') (measure s)) (h : good s) :
    ∃ rs, Follows answers next [s] rs := by
  induction hsize : measure s using hwf.induction generalizing s with
  | _ size ih =>
    obtain ⟨r, hanswer, hnext⟩ := hstep s h
    have hrest : ∀ s' ∈ next r, ∃ rs, Follows answers next [s'] rs := by
      intro s' hs'
      obtain ⟨hgood, hsmaller⟩ := hnext s' hs'
      exact ih (measure s') (hsize ▸ hsmaller) hgood rfl
    obtain ⟨rs, hrs⟩ := Follows.all hrest
    exact ⟨r :: rs, .ask hanswer (by rwa [List.append_nil])⟩

/-- What each question asks for is in one of the answers, where it is in its own or a continuation asks for it. -/
theorem Follows.covers {asked : σ → ι → Prop} {holds : ρ → ι → Prop}
    (hgood : ∀ s r, good s → answers s r → ∀ s' ∈ next r, good s')
    (hstep : ∀ s r x, good s → answers s r → asked s x → holds r x ∨ ∃ s' ∈ next r, asked s' x)
    (h : Follows answers next pending rs) (hpending : ∀ s ∈ pending, good s)
    (hs : s ∈ pending) {x : ι} (hx : asked s x) : ∃ r ∈ rs, holds r x := by
  induction h generalizing s with
  | done => cases hs
  | @ask first r pending rs hanswer _ ih =>
    obtain ⟨hfirst, hrest⟩ := List.forall_mem_cons.mp hpending
    have hnext : ∀ s' ∈ next r ++ pending, good s' :=
      List.forall_mem_append.mpr ⟨hgood first r hfirst hanswer, hrest⟩
    rcases List.mem_cons.mp hs with rfl | hs
    · rcases hstep s r x hfirst hanswer hx with hholds | ⟨s', hs', hasked⟩
      · exact ⟨r, List.mem_cons_self, hholds⟩
      · obtain ⟨other, hother, hholds⟩ := ih hnext (List.mem_append_left _ hs') hasked
        exact ⟨other, List.mem_cons_of_mem r hother, hholds⟩
    · obtain ⟨other, hother, hholds⟩ := ih hnext (List.mem_append_right _ hs) hx
      exact ⟨other, List.mem_cons_of_mem r hother, hholds⟩

end Continuations
