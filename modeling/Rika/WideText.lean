import Mathlib.Algebra.BigOperators.Group.List.Basic
import Mathlib.Algebra.GroupWithZero.Nat

namespace WideText

abbrev Units := List UInt16

def isHigh (u : UInt16) : Bool := 0xD800 ≤ u.toNat && u.toNat ≤ 0xDBFF

def isLow (u : UInt16) : Bool := 0xDC00 ≤ u.toNat && u.toNat ≤ 0xDFFF

def charUnits (c : Char) : Units :=
  if c.toNat < 0x10000 then [UInt16.ofNat c.toNat]
  else [UInt16.ofNat (0xD800 + (c.toNat - 0x10000) / 0x400), UInt16.ofNat (0xDC00 + (c.toNat - 0x10000) % 0x400)]

def units (text : List Char) : Units := text.flatMap charUnits

def replacement : Char := '\uFFFD'

def pairChar (high low : UInt16) : Char :=
  Char.ofNat (0x10000 + (high.toNat - 0xD800) * 0x400 + (low.toNat - 0xDC00))

def loneChar (u : UInt16) : Char := if isHigh u || isLow u then replacement else Char.ofNat u.toNat

def scalars : Units → List Char
  | [] => []
  | [u] => [loneChar u]
  | u :: v :: rest => if isHigh u && isLow v then pairChar u v :: scalars rest else loneChar u :: scalars (v :: rest)

def utf8Size (text : List Char) : Nat := (text.map Char.utf8Size).sum

def byteLength (text : Units) : Nat := utf8Size (scalars text)

@[simp] theorem units_nil : units [] = [] := rfl

@[simp] theorem units_cons (c : Char) (text : List Char) : units (c :: text) = charUnits c ++ units text := rfl

theorem units_append (text others : List Char) : units (text ++ others) = units text ++ units others :=
  List.flatMap_append

@[simp] theorem utf8Size_cons (c : Char) (text : List Char) : utf8Size (c :: text) = c.utf8Size + utf8Size text :=
  List.sum_cons

@[simp] theorem utf8Size_append (text others : List Char) : utf8Size (text ++ others) = utf8Size text + utf8Size others := by
  rw [utf8Size, List.map_append, List.sum_append]
  rfl

section Characters

theorem toNat_lt (c : Char) : c.toNat < 0x110000 := by
  have h := c.valid
  simp only [UInt32.isValidChar, Nat.isValidChar] at h
  change c.val.toNat < 0x110000
  omega

theorem toNat_notSurrogate (c : Char) : c.toNat < 0xD800 ∨ 0xDFFF < c.toNat := by
  have h := c.valid
  simp only [UInt32.isValidChar, Nat.isValidChar] at h
  change c.val.toNat < 0xD800 ∨ 0xDFFF < c.val.toNat
  omega

theorem charUnits_cases (c : Char) :
    (∃ u, charUnits c = [u] ∧ isHigh u = false ∧ isLow u = false ∧ loneChar u = c) ∨
      ∃ u v, charUnits c = [u, v] ∧ isHigh u = true ∧ isLow v = true ∧ isHigh v = false ∧ pairChar u v = c ∧
        c.utf8Size = 4 := by
  have hlt := toNat_lt c
  have hnot := toNat_notSurrogate c
  rw [charUnits]
  by_cases h : c.toNat < 0x10000
  · rw [if_pos h]
    have hunit : (UInt16.ofNat c.toNat).toNat = c.toNat := UInt16.toNat_ofNat_of_lt' h
    have hhigh : isHigh (UInt16.ofNat c.toNat) = false := by
      rw [isHigh, hunit]
      simp
      omega
    have hlow : isLow (UInt16.ofNat c.toNat) = false := by
      rw [isLow, hunit]
      simp
      omega
    refine Or.inl ⟨_, rfl, hhigh, hlow, ?_⟩
    rw [loneChar, hhigh, hlow, hunit]
    exact Char.ofNat_toNat c
  · rw [if_neg h]
    have hu : (UInt16.ofNat (0xD800 + (c.toNat - 0x10000) / 0x400)).toNat = 0xD800 + (c.toNat - 0x10000) / 0x400 :=
      UInt16.toNat_ofNat_of_lt' (by change _ < 65536; omega)
    have hv : (UInt16.ofNat (0xDC00 + (c.toNat - 0x10000) % 0x400)).toNat = 0xDC00 + (c.toNat - 0x10000) % 0x400 :=
      UInt16.toNat_ofNat_of_lt' (by change _ < 65536; omega)
    refine Or.inr ⟨_, _, rfl, ?_, ?_, ?_, ?_, ?_⟩
    · rw [isHigh, hu]
      simp
      omega
    · rw [isLow, hv]
      simp
      omega
    · rw [isHigh, hv]
      simp
      omega
    · rw [pairChar, hu, hv]
      have hsum : 0x10000 + (0xD800 + (c.toNat - 0x10000) / 0x400 - 0xD800) * 0x400 +
          (0xDC00 + (c.toNat - 0x10000) % 0x400 - 0xDC00) = c.toNat := by omega
      rw [hsum]
      exact Char.ofNat_toNat c
    · rw [Char.utf8Size_eq_four_iff, UInt32.lt_iff_toNat_lt]
      change 0xFFFF < c.toNat
      omega

theorem charUnits_ne_nil (c : Char) : charUnits c ≠ [] := by
  rcases charUnits_cases c with ⟨u, h, _⟩ | ⟨u, v, h, _⟩ <;> rw [h] <;> exact List.cons_ne_nil _ _

end Characters

section Scalars

theorem scalars_charUnits (c : Char) (rest : Units) : scalars (charUnits c ++ rest) = c :: scalars rest := by
  rcases charUnits_cases c with ⟨u, h, hhigh, _, hlone⟩ | ⟨u, v, h, hhigh, hlow, _, hpair, _⟩
  · rw [h]
    cases rest with
    | nil => exact congrArg (fun c => [c]) hlone
    | cons v rest =>
      change scalars (u :: v :: rest) = _
      rw [scalars, hhigh, Bool.false_and, if_neg Bool.false_ne_true, hlone]
  · rw [h]
    change scalars (u :: v :: rest) = _
    rw [scalars, hhigh, hlow, Bool.true_and, if_pos rfl, hpair]

section

variable (text : List Char)

theorem scalars_units_append (rest : Units) : scalars (units text ++ rest) = text ++ scalars rest := by
  induction text with
  | nil => rfl
  | cons c text ih => rw [units_cons, List.append_assoc, scalars_charUnits, ih, List.cons_append]

@[simp] theorem scalars_units : scalars (units text) = text := by
  have h := scalars_units_append text []
  rwa [List.append_nil, scalars, List.append_nil] at h

theorem units_injective : Function.Injective units :=
  Function.LeftInverse.injective scalars_units

@[simp] theorem byteLength_units : byteLength (units text) = utf8Size text := by
  rw [byteLength, scalars_units]

theorem byteLength_units_append (rest : Units) :
    byteLength (units text ++ rest) = utf8Size text + byteLength rest := by
  rw [byteLength, scalars_units_append, utf8Size_append]
  rfl

end

end Scalars

section Prefixes

def fitting (budget : Nat) : List Char → List Char
  | [] => []
  | c :: text => if c.utf8Size ≤ budget then c :: fitting (budget - c.utf8Size) text else []

/-- The longest prefix of a text that a number of bytes has room for. -/
structure LongestPrefix (budget : Nat) (text kept : List Char) : Prop where
  isPrefix : kept <+: text
  size : utf8Size kept ≤ budget
  longest : ∀ other, other <+: text → utf8Size other ≤ budget → other <+: kept

theorem longestPrefix_fitting (budget : Nat) (text : List Char) : LongestPrefix budget text (fitting budget text) := by
  induction text generalizing budget with
  | nil => exact ⟨List.prefix_rfl, Nat.zero_le _, fun _ h _ => h⟩
  | cons c text ih =>
    rw [fitting]
    by_cases hfits : c.utf8Size ≤ budget
    · rw [if_pos hfits]
      have htail := ih (budget - c.utf8Size)
      refine ⟨List.cons_prefix_cons.mpr ⟨rfl, htail.isPrefix⟩, ?_, fun other hother hsize => ?_⟩
      · have hle := htail.size
        rw [utf8Size_cons]
        omega
      · cases other with
        | nil => exact List.nil_prefix
        | cons d other =>
          obtain ⟨hhead, hrest⟩ := List.cons_prefix_cons.mp hother
          subst hhead
          rw [utf8Size_cons] at hsize
          exact List.cons_prefix_cons.mpr ⟨rfl, htail.longest other hrest (by omega)⟩
    · rw [if_neg hfits]
      refine ⟨List.nil_prefix, Nat.zero_le _, fun other hother hsize => ?_⟩
      cases other with
      | nil => exact List.nil_prefix
      | cons d other =>
        obtain ⟨rfl, _⟩ := List.cons_prefix_cons.mp hother
        rw [utf8Size_cons] at hsize
        omega

variable {budget n : Nat} {text : List Char} {c : Char} {u : UInt16}

theorem fitting_eq_self : fitting budget text = text ↔ utf8Size text ≤ budget := by
  have h := longestPrefix_fitting budget text
  constructor
  · intro heq
    rw [← heq]
    exact h.size
  · intro hsize
    exact h.isPrefix.eq_of_length_le (h.longest text List.prefix_rfl hsize).length_le

theorem fitting_append (h : utf8Size text ≤ budget) (others : List Char) :
    fitting budget (text ++ others) = text ++ fitting (budget - utf8Size text) others := by
  induction text generalizing budget with
  | nil => rfl
  | cons c text ih =>
    rw [utf8Size_cons] at h
    rw [List.cons_append, fitting, if_pos (by omega), ih (by omega), utf8Size_cons, List.cons_append, Nat.sub_sub]

theorem fitting_append_of_lt (h : budget < utf8Size text) (others : List Char) :
    fitting budget (text ++ others) = fitting budget text := by
  induction text generalizing budget with
  | nil => exact absurd h (Nat.not_lt_zero _)
  | cons c text ih =>
    rw [utf8Size_cons] at h
    rw [List.cons_append, fitting, fitting]
    by_cases hfits : c.utf8Size ≤ budget
    · rw [if_pos hfits, if_pos hfits, ih (by omega)]
    · rw [if_neg hfits, if_neg hfits]

theorem take_charUnits_append (h : charUnits c = [u]) (rest : Units) (n : Nat) :
    (charUnits c ++ rest).take (n + 1) = charUnits c ++ rest.take n := by
  rw [h]
  rfl

theorem take_pair_append {v : UInt16} (h : charUnits c = [u, v]) (rest : Units) (n : Nat) :
    (charUnits c ++ rest).take (n + 2) = charUnits c ++ rest.take n := by
  rw [h]
  rfl

theorem byteLength_charUnits_append (c : Char) (rest : Units) :
    byteLength (charUnits c ++ rest) = c.utf8Size + byteLength rest := by
  rw [byteLength, scalars_charUnits]
  exact utf8Size_cons _ _

theorem byteLength_singleton (h : isHigh u = true) : byteLength [u] = 3 := by
  rw [byteLength, scalars, loneChar, h, Bool.true_or, if_pos rfl]
  decide

theorem byteLength_take_le (text : List Char) {m : Nat} (h : m ≤ n) :
    byteLength ((units text).take m) ≤ byteLength ((units text).take n) := by
  induction text generalizing m n with
  | nil =>
    have hnil : (units []).take m = (units []).take n := by rw [units_nil, List.take_nil, List.take_nil]
    exact Nat.le_of_eq (congrArg byteLength hnil)
  | cons c text ih =>
    rw [units_cons]
    rcases charUnits_cases c with ⟨u, hunits, _⟩ | ⟨u, v, hunits, hhigh, _, _, _, hsize⟩
    · cases m with
      | zero => exact Nat.zero_le _
      | succ m =>
        obtain ⟨n, rfl⟩ : ∃ k, n = k + 1 := ⟨n - 1, by omega⟩
        rw [take_charUnits_append hunits, take_charUnits_append hunits, byteLength_charUnits_append,
          byteLength_charUnits_append]
        exact Nat.add_le_add_left (ih (by omega)) _
    · match m, n, h with
      | 0, _, _ => exact Nat.zero_le _
      | 1, 1, _ => exact Nat.le_refl _
      | 1, n + 2, _ =>
        rw [take_pair_append hunits, byteLength_charUnits_append, hunits, hsize]
        change byteLength [u] ≤ _
        rw [byteLength_singleton hhigh]
        omega
      | m + 2, n + 2, h =>
        rw [take_pair_append hunits, take_pair_append hunits, byteLength_charUnits_append,
          byteLength_charUnits_append]
        exact Nat.add_le_add_left (ih (by omega)) _

def dropHalf (text : Units) : Units :=
  match text.getLast? with
  | none => text
  | some final => if isHigh final then text.dropLast else text

theorem dropHalf_cons {text : Units} (h : text ≠ [] ∨ isHigh u = false) : dropHalf (u :: text) = u :: dropHalf text := by
  cases text with
  | nil =>
    have hhigh : isHigh u = false := h.resolve_left (fun hne => hne rfl)
    rw [dropHalf, dropHalf]
    simp [hhigh]
  | cons v text =>
    rw [dropHalf, dropHalf, List.getLast?_cons_cons]
    cases hlast : (v :: text).getLast? with
    | none => rfl
    | some final =>
      dsimp only
      split
      · rfl
      · rfl

theorem dropHalf_take (hle : n ≤ (units text).length) (hfits : byteLength ((units text).take n) ≤ budget)
    (hlast : ∀ other, n < other → other ≤ (units text).length → budget < byteLength ((units text).take other)) :
    dropHalf ((units text).take n) = units (fitting budget text) := by
  induction text generalizing budget n with
  | nil => rw [units_nil, List.take_nil]; rfl
  | cons c text ih =>
    rw [units_cons] at hle hfits hlast ⊢
    rw [List.length_append] at hle hlast
    rw [fitting]
    rcases charUnits_cases c with ⟨u, hunits, hhigh, _⟩ | ⟨u, v, hunits, hhigh, _, hvhigh, _, hsize⟩
    · have hlength : (charUnits c).length = 1 := by rw [hunits]; rfl
      rw [hlength] at hle hlast
      by_cases hroom : c.utf8Size ≤ budget
      · rw [if_pos hroom]
        cases n with
        | zero =>
          have hone := hlast 1 Nat.zero_lt_one (by omega)
          rw [take_charUnits_append hunits, byteLength_charUnits_append, List.take_zero] at hone
          exact absurd hone (by change ¬budget < c.utf8Size + 0; omega)
        | succ n =>
          rw [take_charUnits_append hunits, byteLength_charUnits_append] at hfits
          rw [take_charUnits_append hunits, units_cons]
          have htail : dropHalf ((units text).take n) = units (fitting (budget - c.utf8Size) text) := by
            refine ih (by omega) (by omega) fun other hother hbound => ?_
            have hnext := hlast (other + 1) (by omega) (by omega)
            rw [take_charUnits_append hunits, byteLength_charUnits_append] at hnext
            omega
          rw [hunits]
          change dropHalf (u :: (units text).take n) = u :: units _
          rw [dropHalf_cons (Or.inr hhigh), htail]
      · rw [if_neg hroom]
        cases n with
        | zero => rfl
        | succ n =>
          rw [take_charUnits_append hunits, byteLength_charUnits_append] at hfits
          omega
    · have hlength : (charUnits c).length = 2 := by rw [hunits]; rfl
      rw [hlength] at hle hlast
      by_cases hroom : c.utf8Size ≤ budget
      · rw [if_pos hroom]
        have htwo : 2 ≤ n := by
          by_contra hlt
          have hpair := hlast 2 (by omega) (by omega)
          rw [take_pair_append hunits _ 0, byteLength_charUnits_append, List.take_zero] at hpair
          exact absurd hpair (by change ¬budget < c.utf8Size + 0; omega)
        obtain ⟨n, rfl⟩ : ∃ k, n = k + 2 := ⟨n - 2, by omega⟩
        rw [take_pair_append hunits, byteLength_charUnits_append] at hfits
        rw [take_pair_append hunits, units_cons]
        have htail : dropHalf ((units text).take n) = units (fitting (budget - c.utf8Size) text) := by
          refine ih (by omega) (by omega) fun other hother hbound => ?_
          have hnext := hlast (other + 2) (by omega) (by omega)
          rw [take_pair_append hunits, byteLength_charUnits_append] at hnext
          omega
        rw [hunits]
        change dropHalf (u :: v :: (units text).take n) = u :: v :: units _
        rw [dropHalf_cons (Or.inl (List.cons_ne_nil _ _)), dropHalf_cons (Or.inr hvhigh), htail]
      · rw [if_neg hroom]
        match n with
        | 0 => rfl
        | 1 =>
          rw [hunits]
          change dropHalf [u] = []
          rw [dropHalf]
          simp [hhigh]
        | n + 2 =>
          rw [take_pair_append hunits, byteLength_charUnits_append] at hfits
          omega

end Prefixes

end WideText
