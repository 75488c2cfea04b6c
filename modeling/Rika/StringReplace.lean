import Rika.Substrings
import Rika.WideText

namespace StringReplace

open Substrings
open WideText (Units)

def dollar : UInt16 := 36

def ampersand : UInt16 := 38

def quote : UInt16 := 39

def backquote : UInt16 := 96

/-- What a template stands for at a match, in which a dollar may begin a reference to the match or
to what is before or after it. -/
def substitution (before matched after : Units) : Units → Units
  | [] => []
  | [u] => [u]
  | u :: v :: rest =>
    if u = dollar ∧ v = dollar then dollar :: substitution before matched after rest
    else if u = dollar ∧ v = ampersand then matched ++ substitution before matched after rest
    else if u = dollar ∧ v = backquote then before ++ substitution before matched after rest
    else if u = dollar ∧ v = quote then after ++ substitution before matched after rest
    else u :: substitution before matched after (v :: rest)

/-- The matches after what is before are replaced, `fuel` of them at most. -/
def replaceAllFrom (search template : Units) : Nat → Units → Units → Units
  | 0, _, text => text
  | fuel + 1, before, text =>
    match find search text with
    | none => text
    | some i =>
      text.take i ++ substitution (before ++ text.take i) search (text.drop (i + search.length)) template ++
        replaceAllFrom search template fuel (before ++ text.take (i + search.length)) (text.drop (i + search.length))

def replaceAll (text search template : Units) : Units := replaceAllFrom search template text.length [] text

def plain : Units → Bool
  | [] => true
  | [_] => true
  | u :: v :: rest =>
    !(u = dollar && (v = dollar || v = ampersand || v = backquote || v = quote)) && plain (v :: rest)

theorem substitution_plain {template : Units} (h : plain template = true) (before matched after : Units) :
    substitution before matched after template = template := by
  induction template using plain.induct with
  | case1 => rfl
  | case2 => rfl
  | case3 u v rest ih =>
    simp only [plain, Bool.and_eq_true, Bool.not_eq_true', Bool.and_eq_false_iff, decide_eq_false_iff_not,
      Bool.or_eq_false_iff] at h
    obtain ⟨hnone, hrest⟩ := h
    have hnot : ∀ w, w = dollar ∨ w = ampersand ∨ w = backquote ∨ w = quote → ¬(u = dollar ∧ v = w) := by
      intro w hw hboth
      rcases hnone with hu | hv
      · exact hu hboth.1
      · rw [hboth.2] at hv
        rcases hw with rfl | rfl | rfl | rfl
        · exact hv.1.1.1 rfl
        · exact hv.1.1.2 rfl
        · exact hv.1.2 rfl
        · exact hv.2 rfl
    rw [substitution, if_neg (hnot _ (Or.inl rfl)), if_neg (hnot _ (Or.inr (Or.inl rfl))),
      if_neg (hnot _ (Or.inr (Or.inr (Or.inl rfl)))), if_neg (hnot _ (Or.inr (Or.inr (Or.inr rfl)))), ih hrest]

section Scanning

variable {α : Type} [DecidableEq α]

/-- A text read from the left, in which what begins with a pattern is replaced and passed over. -/
def scan (pattern other : List α) : Nat → List α → List α
  | _, [] => []
  | skip + 1, _ :: text => scan pattern other skip text
  | 0, x :: text =>
    if pattern <+: x :: text then other ++ scan pattern other (pattern.length - 1) text
    else x :: scan pattern other 0 text

theorem scan_skip (pattern other passed text : List α) :
    scan pattern other passed.length (passed ++ text) = scan pattern other 0 text := by
  induction passed with
  | nil => rfl
  | cons x passed ih => exact ih

variable {pattern text : List α}

theorem scan_pattern (hne : pattern ≠ []) (other text : List α) :
    scan pattern other 0 (pattern ++ text) = other ++ scan pattern other 0 text := by
  cases pattern with
  | nil => exact absurd rfl hne
  | cons x pattern =>
    rw [List.cons_append, scan, if_pos ⟨text, rfl⟩, List.length_cons, Nat.add_sub_cancel, scan_skip]

theorem scan_word (other : List α) {word : List α} (h : ∀ rest, rest ≠ [] → rest <:+ word → ¬pattern <+: rest ++ text) :
    scan pattern other 0 (word ++ text) = word ++ scan pattern other 0 text := by
  induction word with
  | nil => rfl
  | cons x word ih =>
    have hword := ih fun rest hne hsuffix => h rest hne (hsuffix.trans (List.suffix_cons x word))
    have hnot : ¬pattern <+: x :: (word ++ text) := h (x :: word) (List.cons_ne_nil x word) List.suffix_rfl
    rw [List.cons_append, scan, if_neg hnot, hword]
    rfl

theorem scan_absent (other : List α) (h : Absent pattern text) : scan pattern other 0 text = text := by
  have hnil : text = text ++ [] := (List.append_nil text).symm
  have hscan : scan pattern other 0 [] = [] := rfl
  rw [hnil, scan_word other, hscan]
  intro rest _ hsuffix hinit
  obtain ⟨before, hbefore⟩ := hsuffix
  rw [List.append_nil] at hinit
  obtain ⟨after, hafter⟩ := hinit
  refine h before after ?_
  rw [← hbefore, ← hafter, List.append_assoc]

theorem scan_first {before after : List α} (hne : pattern ≠ []) (other : List α)
    (h : First pattern text before after) : scan pattern other 0 text = before ++ other ++ scan pattern other 0 after := by
  rw [h.eq, List.append_assoc, scan_word other, scan_pattern hne, List.append_assoc]
  intro rest hrest hsuffix hinit
  obtain ⟨passed, hpassed⟩ := hsuffix
  obtain ⟨more, hmore⟩ := hinit
  have hplace : text = passed ++ pattern ++ more := by
    rw [h.eq, ← hpassed, List.append_assoc, List.append_assoc, List.append_assoc, hmore]
  have hle := h.first passed more hplace
  have hpos := List.length_pos_iff.mpr hrest
  rw [← hpassed, List.length_append] at hle
  omega

theorem scan_singleton (x : α) (other text : List α) :
    scan [x] other 0 text = text.flatMap fun y => if y = x then other else [y] := by
  induction text with
  | nil => rfl
  | cons y text ih =>
    rw [scan, List.flatMap_cons]
    by_cases h : y = x
    · rw [if_pos (by rw [h]; exact ⟨text, rfl⟩), if_pos h, List.length_singleton, Nat.sub_self, ih]
    · rw [if_neg fun hinit => h (List.cons_prefix_cons.mp hinit).1.symm, if_neg h, ih]
      rfl

end Scanning

section Replacing

variable {search template text : Units}

theorem replaceAllFrom_plain (hne : search ≠ []) (h : plain template = true) (fuel : Nat)
    (before : Units) (hfuel : text.length ≤ fuel) :
    replaceAllFrom search template fuel before text = scan search template 0 text := by
  induction fuel generalizing before text with
  | zero =>
    rw [List.length_eq_zero_iff.mp (Nat.le_zero.mp hfuel)]
    rfl
  | succ fuel ih =>
    rw [replaceAllFrom]
    cases hfind : find search text with
    | none => exact (scan_absent template (find_none hfind)).symm
    | some i =>
      obtain ⟨passed, after, rfl, hfirst⟩ := find_some hfind
      obtain ⟨hpassed, hafter⟩ := cut_eq hfirst.eq
      have hlength : text.length = passed.length + search.length + after.length := by
        rw [hfirst.eq, List.length_append, List.length_append]
      have hpos : 0 < search.length := List.length_pos_iff.mpr hne
      dsimp only
      rw [hpassed, hafter, substitution_plain h, ih _ (by omega), scan_first hne template hfirst]

theorem replaceAll_plain (hne : search ≠ []) (h : plain template = true) (text : Units) :
    replaceAll text search template = scan search template 0 text :=
  replaceAllFrom_plain hne h text.length [] (Nat.le_refl _)

theorem replaceAll_absent (template : Units) (h : Absent search text) : replaceAll text search template = text := by
  rw [replaceAll]
  cases text with
  | nil => rfl
  | cons u text =>
    rw [List.length_cons, replaceAllFrom]
    cases hfind : find search (u :: text) with
    | none => rfl
    | some i =>
      obtain ⟨before, after, _, hfirst⟩ := find_some hfind
      exact absurd hfirst.eq (h before after)

theorem replaceAll_unit {t : UInt16} (h : t ∈ text → plain template = true) :
    replaceAll text [t] template = text.flatMap fun u => if u = t then template else [u] := by
  by_cases hmem : t ∈ text
  · rw [replaceAll_plain (List.cons_ne_nil t []) (h hmem), scan_singleton]
  · rw [replaceAll_absent]
    · have hsame : text.flatMap (fun u => if u = t then template else [u]) = text.flatMap fun u => [u] := by
        refine List.flatMap_congr fun u hu => ?_
        have hother : u ≠ t := fun heq => hmem (heq ▸ hu)
        rw [if_neg hother]
      rw [hsame, List.flatMap_singleton']
    · intro before after heq
      refine hmem ?_
      rw [heq]
      exact List.mem_append_left after (List.mem_append_right before List.mem_cons_self)

end Replacing

end StringReplace
