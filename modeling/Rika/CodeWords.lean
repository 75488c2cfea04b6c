import Rika.Substrings

/-- A code whose words begin with a lead symbol, go on with others, and begin no other word. -/
structure CodeWords {α β : Type} (word : α → List β) (lead : β → Bool) : Prop where
  shape : ∀ a, ∃ b rest, word a = b :: rest ∧ lead b = true ∧ ∀ x ∈ rest, lead x = false
  prefix_free : ∀ a c, word a <+: word c → a = c

namespace CodeWords

variable {α β : Type} {word : α → List β} {lead : β → Bool}

def Starts (lead : β → Bool) (symbols : List β) : Prop := ∀ x ∈ symbols.head?, lead x = true

theorem starts_nil : Starts lead [] := fun _ hx => by cases hx

section

variable (code : CodeWords word lead)

include code

theorem word_ne_nil (a : α) : word a ≠ [] := by
  obtain ⟨b, rest, h, _⟩ := code.shape a
  rw [h]
  exact List.cons_ne_nil b rest

theorem starts_word (a : α) (symbols : List β) : Starts lead (word a ++ symbols) := by
  obtain ⟨b, rest, h, hlead, _⟩ := code.shape a
  intro x hx
  rw [h, List.cons_append, List.head?_cons, Option.mem_some_iff] at hx
  rw [← hx]
  exact hlead

theorem starts_text (text : List α) : Starts lead (text.flatMap word) := by
  cases text with
  | nil => exact starts_nil
  | cons a text =>
    rw [List.flatMap_cons]
    exact code.starts_word a _

theorem not_starts_part {a : α} {part rest : List β} (h : word a = part ++ rest)
    (hpart : part ≠ []) (hrest : rest ≠ []) (symbols : List β) : ¬Starts lead (rest ++ symbols) := by
  intro hstarts
  obtain ⟨b, others, hword, _, hothers⟩ := code.shape a
  cases part with
  | nil => exact hpart rfl
  | cons c part =>
    cases rest with
    | nil => exact hrest rfl
    | cons x rest =>
      rw [hword, List.cons_append] at h
      have hmem : x ∈ others := by
        rw [(List.cons.inj h).2]
        exact List.mem_append_right part List.mem_cons_self
      have hlead := hstarts x rfl
      rw [hothers x hmem] at hlead
      exact Bool.false_ne_true hlead

end

variable {text other : List α} {before after : List β}

theorem cut (word : α → List β) (h : text.flatMap word = before ++ after) :
    (∃ p q, text = p ++ q ∧ before = p.flatMap word ∧ after = q.flatMap word) ∨
      ∃ p a q part rest, text = p ++ a :: q ∧ before = p.flatMap word ++ part ∧ after = rest ++ q.flatMap word ∧
        word a = part ++ rest ∧ part ≠ [] ∧ rest ≠ [] := by
  induction text generalizing before with
  | nil =>
    obtain ⟨hbefore, hafter⟩ := List.append_eq_nil_iff.mp h.symm
    exact Or.inl ⟨[], [], rfl, hbefore, hafter⟩
  | cons a text ih =>
    rw [List.flatMap_cons] at h
    rcases List.append_eq_append_iff.mp h with ⟨more, hbefore, htext⟩ | ⟨rest, hword, hafter⟩
    · rcases ih htext with ⟨p, q, rfl, hp, hq⟩ | ⟨p, c, q, part, rest, rfl, hp, hq, hc, hpart, hrest⟩
      · refine Or.inl ⟨a :: p, q, rfl, ?_, hq⟩
        rw [hbefore, hp, List.flatMap_cons]
      · refine Or.inr ⟨a :: p, c, q, part, rest, rfl, ?_, hq, hc, hpart, hrest⟩
        rw [hbefore, hp, List.flatMap_cons, List.append_assoc]
    · by_cases hnone : rest = []
      · subst hnone
        refine Or.inl ⟨[a], text, rfl, ?_, hafter⟩
        rw [List.append_nil] at hword
        rw [List.flatMap_cons, List.flatMap_nil, List.append_nil, hword]
      · by_cases hbegin : before = []
        · subst hbegin
          refine Or.inl ⟨[], a :: text, rfl, rfl, ?_⟩
          rw [List.flatMap_cons, hafter, hword, List.nil_append]
        · exact Or.inr ⟨[], a, text, before, rest, rfl, rfl, hafter, hword, hbegin, hnone⟩

section

variable (code : CodeWords word lead)

include code

theorem cut_starts (h : text.flatMap word = before ++ after) (hafter : Starts lead after) :
    ∃ p q, text = p ++ q ∧ before = p.flatMap word ∧ after = q.flatMap word := by
  rcases cut word h with hcut | ⟨p, a, q, part, rest, _, _, hq, hword, hpart, hrest⟩
  · exact hcut
  · rw [hq] at hafter
    exact absurd hafter (code.not_starts_part hword hpart hrest _)

theorem cut_flatMap
    (h : text.flatMap word = other.flatMap word ++ after) : ∃ q, text = other ++ q ∧ after = q.flatMap word := by
  induction other generalizing text with
  | nil => exact ⟨text, rfl, h.symm⟩
  | cons a other ih =>
    rw [List.flatMap_cons, List.append_assoc] at h
    cases text with
    | nil => exact absurd (List.append_eq_nil_iff.mp h.symm).1 (code.word_ne_nil a)
    | cons c text =>
      have hboth : word c ++ text.flatMap word = word a ++ (other.flatMap word ++ after) := h
      have heq : c = a := by
        rcases List.append_eq_append_iff.mp hboth with ⟨more, hlong, _⟩ | ⟨more, hlong, _⟩
        · exact code.prefix_free c a ⟨more, hlong.symm⟩
        · exact (code.prefix_free a c ⟨more, hlong.symm⟩).symm
      subst heq
      obtain ⟨q, htext, hq⟩ := ih (List.append_cancel_left hboth)
      exact ⟨q, congrArg (c :: ·) htext, hq⟩

theorem flatMap_injective (h : text.flatMap word = other.flatMap word) : text = other := by
  have hcut : text.flatMap word = other.flatMap word ++ [] := by rw [h, List.append_nil]
  obtain ⟨q, htext, hq⟩ := code.cut_flatMap hcut
  cases q with
  | nil => rw [htext, List.append_nil]
  | cons a q => exact absurd (List.append_eq_nil_iff.mp hq.symm).1 (code.word_ne_nil a)

theorem place {pattern : List α} (hne : pattern ≠ [])
    (h : text.flatMap word = before ++ pattern.flatMap word ++ after) :
    ∃ p q, text = p ++ pattern ++ q ∧ before = p.flatMap word ∧ after = q.flatMap word := by
  rw [List.append_assoc] at h
  have hstarts : Starts lead (pattern.flatMap word ++ after) := by
    cases pattern with
    | nil => exact absurd rfl hne
    | cons a pattern =>
      rw [List.flatMap_cons, List.append_assoc]
      exact code.starts_word a _
  obtain ⟨p, rest, htext, hp, hrest⟩ := code.cut_starts h hstarts
  obtain ⟨q, hsplit, hq⟩ := code.cut_flatMap hrest.symm
  refine ⟨p, q, ?_, hp, hq⟩
  rw [htext, hsplit, List.append_assoc]

end

section Places

open Substrings

variable (code : CodeWords word lead) {text pattern : List α} (hne : pattern ≠ [])
include code hne

theorem absent_iff : Absent (pattern.flatMap word) (text.flatMap word) ↔ Absent pattern text := by
  constructor
  · intro h before after heq
    refine h (before.flatMap word) (after.flatMap word) ?_
    rw [heq, List.flatMap_append, List.flatMap_append]
  · intro h before after heq
    obtain ⟨p, q, htext, _⟩ := code.place hne heq
    exact h p q htext

variable {p q : List α}

theorem first_flatMap (h : First pattern text p q) :
    First (pattern.flatMap word) (text.flatMap word) (p.flatMap word) (q.flatMap word) := by
  refine ⟨by rw [h.eq, List.flatMap_append, List.flatMap_append], fun other rest heq => ?_⟩
  obtain ⟨p', q', htext, rfl, rfl⟩ := code.place hne heq
  have hle := h.first p' q' htext
  have hboth : p ++ (pattern ++ q) = p' ++ (pattern ++ q') := by
    rw [← List.append_assoc, ← List.append_assoc, ← h.eq, htext]
  obtain ⟨more, hmore⟩ : p <+: p' := List.prefix_of_prefix_length_le ⟨_, hboth⟩ ⟨_, rfl⟩ hle
  rw [← hmore, List.flatMap_append, List.length_append]
  omega

theorem first_of_flatMap {before after : List β} (h : First (pattern.flatMap word) (text.flatMap word) before after) :
    ∃ p q, First pattern text p q ∧ before = p.flatMap word ∧ after = q.flatMap word := by
  obtain ⟨p, q, htext, rfl, rfl⟩ := code.place hne h.eq
  refine ⟨p, q, ⟨htext, fun other rest heq => ?_⟩, rfl, rfl⟩
  have hwords : text.flatMap word = other.flatMap word ++ pattern.flatMap word ++ rest.flatMap word := by
    rw [heq, List.flatMap_append, List.flatMap_append]
  have hle := h.first _ _ hwords
  by_contra hlt
  have hboth : p ++ (pattern ++ q) = other ++ (pattern ++ rest) := by
    rw [← List.append_assoc, ← List.append_assoc, ← htext, heq]
  obtain ⟨more, hmore⟩ : other <+: p := List.prefix_of_prefix_length_le ⟨_, rfl⟩ ⟨_, hboth⟩ (by omega)
  rw [← hmore, List.flatMap_append, List.length_append] at hle
  cases more with
  | nil =>
    rw [← hmore, List.append_nil] at hlt
    exact hlt (Nat.le_refl _)
  | cons a more =>
    have hpos := List.length_pos_iff.mpr (code.word_ne_nil a)
    rw [List.flatMap_cons, List.length_append] at hle
    omega

theorem only_iff :
    Only (pattern.flatMap word) (text.flatMap word) (p.flatMap word) (q.flatMap word) ↔ Only pattern text p q := by
  constructor
  · intro h
    have heq : (p ++ pattern ++ q).flatMap word = text.flatMap word := by
      rw [h.eq, List.flatMap_append, List.flatMap_append]
    refine ⟨(code.flatMap_injective heq).symm, fun other rest htext => ?_⟩
    refine code.flatMap_injective (h.only _ (rest.flatMap word) ?_)
    rw [htext, List.flatMap_append, List.flatMap_append]
  · intro h
    refine ⟨by rw [h.eq, List.flatMap_append, List.flatMap_append], fun other rest heq => ?_⟩
    obtain ⟨p', q', htext, rfl, _⟩ := code.place hne heq
    rw [h.only p' q' htext]

theorem pieces_flatMap {pieces : List (List α)} (h : Pieces pattern text pieces) :
    Pieces (pattern.flatMap word) (text.flatMap word) (pieces.map (List.flatMap word)) := by
  induction h with
  | last h => exact Pieces.last ((code.absent_iff hne).mpr h)
  | next h _ ih => exact Pieces.next (code.first_flatMap hne h) ih

theorem pieces_of_flatMap {symbols : List β} {pieces : List (List β)}
    (h : Pieces (pattern.flatMap word) symbols pieces) {text : List α} (htext : symbols = text.flatMap word) :
    ∃ others, Pieces pattern text others ∧ pieces = others.map (List.flatMap word) := by
  induction h generalizing text with
  | last h =>
    subst htext
    exact ⟨[text], Pieces.last ((code.absent_iff hne).mp h), rfl⟩
  | next h _ ih =>
    subst htext
    obtain ⟨p, q, hfirst, rfl, rfl⟩ := code.first_of_flatMap hne h
    obtain ⟨others, hothers, rfl⟩ := ih rfl
    exact ⟨p :: others, Pieces.next hfirst hothers, rfl⟩

end Places

end CodeWords
