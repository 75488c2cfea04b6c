import Rika.TranscriptUnit
import Rika.UnitOrdering
import Rika.WideText

namespace Lexicographic

theorem toDigits_eq {base : Nat} (hbase : 1 < base) (n : Nat) : Nat.toDigits base n = (digits base n).map Nat.digitChar := by
  induction n using Nat.strong_induction_on with
  | h n ih =>
    rw [Nat.toDigits_eq_if hbase]
    by_cases hlt : n < base
    · rw [if_pos hlt, digits]
      by_cases hzero : n = 0
      · rw [if_pos hzero, hzero]
        rfl
      · rw [if_neg hzero, Nat.digits_of_lt base n hzero hlt]
        rfl
    · have hpos : 0 < n := by omega
      have hdiv : n / base ≠ 0 := by
        rw [Nat.div_ne_zero_iff]
        omega
      rw [if_neg hlt, ih _ (Nat.div_lt_self hpos hbase), digits, digits, if_neg hdiv, if_neg (by omega),
        Nat.digits_def' hbase hpos, List.reverse_cons, List.map_append]
      rfl

theorem mem_digits_lt {base n digit : Nat} (hbase : 1 < base) (h : digit ∈ digits base n) : digit < base := by
  rw [digits] at h
  split at h
  · rw [List.mem_singleton] at h
    omega
  · exact Nat.digits_lt_base hbase (List.mem_reverse.mp h)

end Lexicographic

namespace Rika.TranscriptUnit

open UnitOrdering (CodeUnit digitUnit)
open WideText (toNat_lt toNat_notSurrogate)

def codeUnit (code : Nat) : CodeUnit := ⟨code % 65536, Nat.mod_lt code (Nat.succ_pos _)⟩

def charUnit (c : Char) : CodeUnit := codeUnit c.toNat

def codeUnits (value : String) : List CodeUnit := (value.toList.flatMap charCodes).map codeUnit

def UnitOrderSegment.codes (segment : UnitOrderSegment) : UnitOrdering.UnitOrderSegment :=
  ⟨segment.sequence, segment.part, codeUnits segment.key⟩

theorem charUnit_digitChar {digit : Nat} (h : digit < 16) : charUnit digit.digitChar = digitUnit digit := by
  interval_cases digit <;> rfl

theorem map_padStart {base width n : Nat} (hbase : 1 < base) (hle : base ≤ 16) :
    (padStart width (Nat.toDigits base n)).map charUnit =
      (Lexicographic.padStart width 0 (Lexicographic.digits base n)).map digitUnit := by
  have hdigits : (Nat.toDigits base n).map charUnit = (Lexicographic.digits base n).map digitUnit := by
    rw [Lexicographic.toDigits_eq hbase, List.map_map]
    apply List.map_congr_left
    intro digit hdigit
    exact charUnit_digitChar (Nat.lt_of_lt_of_le (Lexicographic.mem_digits_lt hbase hdigit) hle)
  have hlength : (Nat.toDigits base n).length = (Lexicographic.digits base n).length := by
    rw [Lexicographic.toDigits_eq hbase, List.length_map]
  rw [padStart, List.leftpad, List.map_append, hdigits, Lexicographic.padStart, List.map_append, hlength,
    List.map_replicate, List.map_replicate]
  rfl

theorem map_encodeNumber (value : Int) (offset : Nat) :
    (encodeNumber value offset).map charUnit = UnitOrdering.encodeNumber value offset :=
  map_padStart (by omega) (by omega)

theorem charCodes_lt {c : Char} {code : Nat} (h : code ∈ charCodes c) : code < 65536 := by
  have hc := toNat_lt c
  rw [charCodes] at h
  split at h
  · rw [List.mem_singleton] at h
    omega
  · simp only [List.mem_cons, List.not_mem_nil, or_false] at h
    omega

theorem map_encodeKey (value : String) : (encodeKey value).map charUnit = UnitOrdering.encodeKey (codeUnits value) := by
  have hcodes : ∀ codes : List Nat, (∀ code ∈ codes, code < 65536) →
      (codes.flatMap fun code => padStart 4 (Nat.toDigits 16 code)).map charUnit =
        (codes.map codeUnit).flatMap UnitOrdering.encodeUnit := by
    intro codes hcodes
    induction codes with
    | nil => rfl
    | cons code codes ih =>
      have hval : (codeUnit code).val = code := Nat.mod_eq_of_lt (hcodes code (by simp))
      rw [List.flatMap_cons, List.map_append, ih fun other hother => hcodes other (by simp [hother]), List.map_cons,
        List.flatMap_cons, map_padStart (by omega) (by omega), UnitOrdering.encodeUnit, hval]
  rw [encodeKey, List.map_append, hcodes, UnitOrdering.encodeKey]
  · rfl
  · intro code hcode
    obtain ⟨c, -, hc⟩ := List.mem_flatMap.mp hcode
    exact charCodes_lt hc

theorem map_encodeSegment (segment : UnitOrderSegment) :
    (encodeSegment segment).map charUnit = UnitOrdering.encodeSegment segment.codes := by
  rw [encodeSegment, List.map_append, List.map_append, map_encodeNumber, map_encodeNumber, map_encodeKey]
  rfl

theorem map_encodeUnitOrder (order : UnitOrder) : (encodeUnitOrder order).toList.map charUnit =
      (order.segments.map (·.codes)).flatMap UnitOrdering.encodeSegment := by
  rw [encodeUnitOrder, String.toList_ofList, List.map_flatMap, List.flatMap_map]
  apply List.flatMap_congr
  intro segment _
  exact map_encodeSegment segment

theorem charCodes_append {c d : Char} {s t : List Nat} (h : charCodes c ++ s = charCodes d ++ t) : c = d ∧ s = t := by
  have hc := toNat_notSurrogate c
  have hd := toNat_notSurrogate d
  have hc' := toNat_lt c
  have hd' := toNat_lt d
  have heq : c.toNat = d.toNat ∧ s = t := by
    simp only [charCodes] at h
    split at h <;> split at h <;> simp only [List.cons_append, List.nil_append, List.cons.injEq] at h
    · exact h
    · omega
    · omega
    · exact ⟨by omega, h.2.2⟩
  exact ⟨Char.toNat_inj.mp heq.1, heq.2⟩

theorem flatMap_charCodes_injective {cs ds : List Char} (h : cs.flatMap charCodes = ds.flatMap charCodes) : cs = ds := by
  have hsome (c : Char) : charCodes c ≠ [] := by
    rw [charCodes]
    split <;> simp
  induction cs generalizing ds with
  | nil =>
    cases ds with
    | nil => rfl
    | cons d ds => exact absurd (List.append_eq_nil_iff.mp (h.symm.trans List.flatMap_nil)).1 (hsome d)
  | cons c cs ih =>
    cases ds with
    | nil => exact absurd (List.append_eq_nil_iff.mp (h.trans List.flatMap_nil)).1 (hsome c)
    | cons d ds =>
      rw [List.flatMap_cons, List.flatMap_cons] at h
      obtain ⟨rfl, hrest⟩ := charCodes_append h
      rw [ih hrest]

theorem codeUnits_injective {left right : String} (h : codeUnits left = codeUnits right) : left = right := by
  have hval (value : String) : (codeUnits value).map Fin.val = value.toList.flatMap charCodes := by
    rw [codeUnits, List.map_map]
    refine (List.map_congr_left fun code hcode => ?_).trans (List.map_id _)
    obtain ⟨c, -, hc⟩ := List.mem_flatMap.mp hcode
    exact Nat.mod_eq_of_lt (charCodes_lt hc)
  have hcodes : left.toList.flatMap charCodes = right.toList.flatMap charCodes := by
    rw [← hval, ← hval, h]
  exact String.toList_inj.mp (flatMap_charCodes_injective hcodes)

theorem wellFormedString_codeUnits (value : String) : UnitOrdering.wellFormedString (codeUnits value) = true := by
  rw [codeUnits]
  generalize value.toList = cs
  induction cs with
  | nil => rfl
  | cons c cs ih =>
    have hc := toNat_notSurrogate c
    have hc' := toNat_lt c
    rw [List.flatMap_cons, List.map_append, charCodes]
    split
    · have hval : (codeUnit c.toNat).val = c.toNat := Nat.mod_eq_of_lt (by omega)
      rw [List.map_singleton, List.singleton_append, UnitOrdering.wellFormedString_cons, ih]
      · simp only [UnitOrdering.isHighSurrogate, hval]
        simp
        omega
      · simp only [UnitOrdering.isLowSurrogate, hval]
        simp
        omega
    · have hhigh : (codeUnit (0xD800 + (c.toNat - 0x10000) / 0x400)).val =
          0xD800 + (c.toNat - 0x10000) / 0x400 := Nat.mod_eq_of_lt (by omega)
      have hlow : (codeUnit (0xDC00 + (c.toNat - 0x10000) % 0x400)).val =
          0xDC00 + (c.toNat - 0x10000) % 0x400 := Nat.mod_eq_of_lt (by omega)
      have hfirst : UnitOrdering.isHighSurrogate (codeUnit (0xD800 + (c.toNat - 0x10000) / 0x400)) = true := by
        rw [UnitOrdering.isHighSurrogate, hhigh, Bool.and_eq_true, decide_eq_true_eq, decide_eq_true_eq]
        omega
      have hsecond : UnitOrdering.isLowSurrogate (codeUnit (0xDC00 + (c.toNat - 0x10000) % 0x400)) = true := by
        rw [UnitOrdering.isLowSurrogate, hlow, Bool.and_eq_true, decide_eq_true_eq, decide_eq_true_eq]
        omega
      rw [List.map_cons, List.map_cons, List.map_nil, List.cons_append, List.cons_append, List.nil_append,
        UnitOrdering.wellFormedString, if_pos hfirst, hsecond, ih]
      rfl

theorem UnitOrder.accepted (order : UnitOrder) : UnitOrdering.Accepted (order.segments.map (·.codes)) := by
  constructor
  · rw [ne_eq, List.map_eq_nil_iff]
    exact order.nonempty
  · intro codes hcodes
    obtain ⟨segment, -, rfl⟩ := List.mem_map.mp hcodes
    refine ⟨segment.sequence_ge, segment.sequence_le, Int.natCast_nonneg _, Int.ofNat_le.mpr segment.part_le, ?_,
      wellFormedString_codeUnits segment.key⟩
    intro hnil
    exact segment.key_ne (codeUnits_injective (hnil.trans (by rfl)))

theorem UnitOrderSegment.codes_injective {left right : UnitOrderSegment} (h : left.codes = right.codes) : left = right := by
  obtain ⟨sequence, part, key⟩ := left
  obtain ⟨sequence', part', key'⟩ := right
  rw [codes, codes, UnitOrdering.UnitOrderSegment.mk.injEq] at h
  obtain ⟨rfl, hpart, hkey⟩ := h
  obtain rfl := Int.ofNat_inj.mp hpart
  obtain rfl := codeUnits_injective hkey
  rfl

theorem encodeUnitOrder_injective {left right : UnitOrder} (h : encodeUnitOrder left = encodeUnitOrder right) :
    left = right := by
  have hcodes : left.segments.map (·.codes) = right.segments.map (·.codes) := by
    refine UnitOrdering.flatMap_encodeSegment_injective left.accepted right.accepted ?_
    rw [← map_encodeUnitOrder, ← map_encodeUnitOrder, h]
  have hsegments := (List.map_injective_iff.mpr fun _ _ => UnitOrderSegment.codes_injective) hcodes
  obtain ⟨segments, nonempty⟩ := left
  obtain ⟨segments', nonempty'⟩ := right
  obtain rfl := hsegments
  rfl

end Rika.TranscriptUnit
