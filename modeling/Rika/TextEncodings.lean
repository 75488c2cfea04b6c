import Mathlib.Data.List.Count
import Rika.CodeWords
import Rika.Utf8Stream

namespace TextEncodings

open CodeWords Utf8Stream WideText

def leadByte (byte : UInt8) : Bool := byte.toNat < 0x80 || 0xC0 ≤ byte.toNat

def leadUnit (unit : UInt16) : Bool := !isLow unit

section Words

variable {n : Nat} {a c : Char}

theorem leadByte_ofNat (hn : n < 256) (h : n < 0x80 ∨ 0xC0 ≤ n) : leadByte (UInt8.ofNat n) = true := by
  rw [leadByte, toNat_ofNat hn]
  simpa using h

theorem not_leadByte_ofNat (hlow : 0x80 ≤ n) (hhigh : n < 0xC0) : leadByte (UInt8.ofNat n) = false := by
  rw [leadByte, toNat_ofNat (by omega)]
  simp
  omega

theorem encodeChar_shape (c : Char) :
    ∃ b rest, encodeChar c = b :: rest ∧ leadByte b = true ∧ ∀ x ∈ rest, leadByte x = false := by
  have hlt := toNat_lt c
  rw [encodeChar]
  generalize c.toNat = value at hlt
  have htail : ∀ n, leadByte (UInt8.ofNat (0x80 + n % 0x40)) = false := fun n =>
    not_leadByte_ofNat (by omega) (by omega)
  by_cases hone : value < 0x80
  · rw [if_pos hone]
    exact ⟨_, _, rfl, leadByte_ofNat (by omega) (Or.inl hone), fun x hx => absurd hx List.not_mem_nil⟩
  rw [if_neg hone]
  by_cases htwo : value < 0x800
  · rw [if_pos htwo]
    refine ⟨_, _, rfl, leadByte_ofNat (by omega) (Or.inr (by omega)), ?_⟩
    simp only [List.mem_cons, List.not_mem_nil, or_false, forall_eq, htail]
  rw [if_neg htwo]
  by_cases hthree : value < 0x10000
  · rw [if_pos hthree]
    refine ⟨_, _, rfl, leadByte_ofNat (by omega) (Or.inr (by omega)), ?_⟩
    simp only [List.mem_cons, List.not_mem_nil, or_false, forall_eq_or_imp, forall_eq, htail, and_self]
  rw [if_neg hthree]
  refine ⟨_, _, rfl, leadByte_ofNat (by omega) (Or.inr (by omega)), ?_⟩
  simp only [List.mem_cons, List.not_mem_nil, or_false, forall_eq_or_imp, forall_eq, htail, and_self]

theorem encodeChar_prefix (h : encodeChar a <+: encodeChar c) : a = c := by
  obtain ⟨rest, hrest⟩ := h
  have hread := feed_encodeChar c
  rw [← hrest, feed_append, feed_encodeChar] at hread
  exact (List.cons.inj (congrArg Prod.fst hread)).1

theorem byteWords : CodeWords encodeChar leadByte := ⟨encodeChar_shape, fun _ _ h => encodeChar_prefix h⟩

theorem charUnits_shape (c : Char) :
    ∃ u rest, charUnits c = u :: rest ∧ leadUnit u = true ∧ ∀ x ∈ rest, leadUnit x = false := by
  rcases charUnits_cases c with ⟨u, h, _, hlow, _⟩ | ⟨u, v, h, hhigh, hlow, _⟩
  · refine ⟨u, [], h, ?_, nofun⟩
    rw [leadUnit, hlow]
    rfl
  · refine ⟨u, [v], h, ?_, fun x hx => ?_⟩
    · have hnot : isLow u = false := by
        simp only [isHigh, isLow, Bool.and_eq_true, decide_eq_true_eq] at hhigh ⊢
        simp
        omega
      rw [leadUnit, hnot]
      rfl
    · rw [List.mem_singleton.mp hx, leadUnit, hlow]
      rfl

theorem charUnits_prefix (h : charUnits a <+: charUnits c) : a = c := by
  obtain ⟨rest, hrest⟩ := h
  have hread := scalars_charUnits c []
  rw [List.append_nil, ← hrest, scalars_charUnits] at hread
  exact (List.cons.inj hread).1

theorem unitWords : CodeWords charUnits leadUnit := ⟨charUnits_shape, fun _ _ h => charUnits_prefix h⟩

end Words

section Halves

def joins (text other : Units) : Bool := text.getLast?.any isHigh && other.head?.any isLow

theorem joins_nil (other : Units) : joins [] other = false := rfl

theorem joins_cons_cons (u v : UInt16) (text other : Units) : joins (u :: v :: text) other = joins (v :: text) other := by
  rw [joins, List.getLast?_cons_cons, ← joins]

theorem scalars_append {text other : Units} (h : joins text other = false) :
    scalars (text ++ other) = scalars text ++ scalars other := by
  induction text using scalars.induct with
  | case1 => rfl
  | case2 u =>
    cases other with
    | nil => rfl
    | cons v other =>
      have hpair : (isHigh u && isLow v) = false := h
      have hstep : scalars (u :: v :: other) = loneChar u :: scalars (v :: other) := by
        rw [scalars, hpair, if_neg Bool.false_ne_true]
      exact hstep
  | case3 u v rest hpair ih =>
    have hrest : joins rest other = false := by
      cases rest with
      | nil => rfl
      | cons w rest => rwa [joins_cons_cons, joins_cons_cons] at h
    have hstep : scalars (u :: v :: (rest ++ other)) = pairChar u v :: scalars (rest ++ other) := by
      rw [scalars, if_pos hpair]
    rw [scalars, if_pos hpair, List.cons_append, List.cons_append, List.cons_append, ← ih hrest]
    exact hstep
  | case4 u v rest hpair ih =>
    rw [joins_cons_cons] at h
    have hstep : scalars (u :: v :: (rest ++ other)) = loneChar u :: scalars (v :: rest ++ other) := by
      rw [scalars, if_neg hpair]
      rfl
    rw [scalars, if_neg hpair, List.cons_append, List.cons_append, List.cons_append, ← ih h]
    exact hstep

theorem joins_units (text : Units) (chars : List Char) : joins text (units chars) = false := by
  have hstarts := unitWords.starts_text chars
  rw [joins]
  cases hhead : (units chars).head? with
  | none => exact Bool.and_false _
  | some u =>
    have hlead := hstarts u hhead
    rw [leadUnit, Bool.not_eq_true'] at hlead
    rw [Option.any_some, hlead, Bool.and_false]

theorem joins_units_append {chars : List Char} (h : chars ≠ []) (text other : Units) :
    joins text (units chars ++ other) = false := by
  have hne : units chars ≠ [] := by
    cases chars with
    | nil => exact absurd rfl h
    | cons c chars =>
      intro hnil
      exact charUnits_ne_nil c (List.append_eq_nil_iff.mp hnil).1
  rw [joins, List.head?_append_of_ne_nil _ hne, ← joins]
  exact joins_units text chars

end Halves

section Parts

structure Begun (machine : Machine) : Prop where
  needed : machine.needed ≠ 0
  lower : 0x80 ≤ machine.lower
  upper : machine.upper ≤ 0xBF

variable {byte : UInt8} {machine : Machine} {bytes part rest : List UInt8} {c : Char}

theorem lead_begun (h : (lead byte).1 = []) : Begun (lead byte).2 := by
  revert h
  simp only [lead]
  split
  · exact fun h => absurd h (List.cons_ne_nil _ _)
  split
  · exact fun h => absurd h (List.cons_ne_nil _ _)
  split
  · exact fun _ => ⟨Nat.one_ne_zero, Nat.le_refl _, Nat.le_refl _⟩
  split
  · intro _
    refine ⟨Nat.succ_ne_zero 1, ?_, ?_⟩ <;> dsimp only <;> split <;> omega
  split
  · intro _
    refine ⟨Nat.succ_ne_zero 2, ?_, ?_⟩ <;> dsimp only <;> split <;> omega
  · exact fun h => absurd h (List.cons_ne_nil _ _)

/-- A byte that nothing is put out for has begun a code point or gone on with one. -/
theorem handle_begun (h : (handle machine byte).1 = []) : Begun (handle machine byte).2 := by
  revert h
  rw [handle]
  by_cases hneeded : machine.needed = 0
  · rw [if_pos hneeded]
    exact lead_begun
  rw [if_neg hneeded]
  by_cases hrange : (byte.toNat < machine.lower || machine.upper < byte.toNat) = true
  · rw [if_pos hrange]
    exact fun h => absurd h (List.cons_ne_nil _ _)
  rw [if_neg hrange]
  dsimp only
  by_cases hone : machine.needed = 1
  · rw [if_pos hone]
    exact fun h => absurd h (List.cons_ne_nil _ _)
  · rw [if_neg hone]
    exact fun _ => ⟨by dsimp only; omega, Nat.le_refl _, Nat.le_refl _⟩

theorem feed_begun (hne : bytes ≠ []) (h : (feed machine bytes).1 = []) : Begun (feed machine bytes).2 := by
  induction bytes generalizing machine with
  | nil => exact absurd rfl hne
  | cons byte bytes ih =>
    rw [feed_cons] at h ⊢
    obtain ⟨hhandle, hfeed⟩ := List.append_eq_nil_iff.mp h
    cases bytes with
    | nil => exact handle_begun hhandle
    | cons other bytes => exact ih (List.cons_ne_nil _ _) hfeed

theorem feed_part (h : encodeChar c = part ++ rest) (hpart : part ≠ [])
    (hrest : rest ≠ []) : ∃ machine, feed .start part = ([], machine) ∧ Begun machine := by
  have hread := feed_encodeChar c
  rw [h, feed_append] at hread
  obtain ⟨hout, hend⟩ := Prod.mk.inj hread
  cases hfirst : (feed .start part).1 with
  | nil => exact ⟨_, Prod.ext hfirst rfl, feed_begun hpart hfirst⟩
  | cons d others =>
    rw [hfirst] at hout
    have hnone := (List.append_eq_nil_iff.mp (List.cons.inj hout).2).2
    have hbegun := feed_begun hrest hnone
    rw [hend] at hbegun
    exact absurd rfl hbegun.needed

theorem feed_interrupted (h : Begun machine) (hlead : leadByte byte = true) (bytes : List UInt8) :
    feed machine (byte :: bytes) = (replacement :: (feed .start (byte :: bytes)).1, (feed .start (byte :: bytes)).2) := by
  have hrange : (byte.toNat < machine.lower || machine.upper < byte.toNat) = true := by
    have hlower := h.lower
    have hupper := h.upper
    simp only [leadByte, Bool.or_eq_true, decide_eq_true_eq] at hlead ⊢
    omega
  have hmachine : handle machine byte = (replacement :: (lead byte).1, (lead byte).2) := by
    rw [handle, if_neg h.needed, if_pos hrange]
  have hstart : handle .start byte = lead byte := if_pos rfl
  rw [feed_cons, feed_cons, hmachine, hstart]
  rfl

theorem feed_others (h : ∀ x ∈ bytes, leadByte x = false) :
    feed .start bytes = (List.replicate bytes.length replacement, .start) := by
  induction bytes with
  | nil => rfl
  | cons byte bytes ih =>
    have hbyte := h byte List.mem_cons_self
    simp only [leadByte, Bool.or_eq_false_iff, decide_eq_false_iff_not] at hbyte
    have hhandle : handle .start byte = ([replacement], .start) := by
      have hstart : handle .start byte = lead byte := if_pos rfl
      rw [hstart, lead, if_neg hbyte.1, if_pos (by omega)]
    rw [feed_cons, hhandle, ih fun x hx => h x (List.mem_cons_of_mem _ hx)]
    rfl

/-- A character that a text stands within is read as replacements before and after the text. -/
theorem decodeAll_parted (h : encodeChar c = part ++ rest) (hpart : part ≠ [])
    (hrest : rest ≠ []) {text : List Char} (hne : text ≠ []) (before after : List Char) :
    decodeAll (encode before ++ part ++ encode text ++ (rest ++ encode after)) =
      (serialize false (before ++ replacement :: (text ++ (List.replicate rest.length replacement ++ after)))).1 := by
  obtain ⟨machine, hfeed, hbegun⟩ := feed_part h hpart hrest
  have hothers : ∀ x ∈ rest, leadByte x = false := by
    obtain ⟨b, others, hshape, _, hall⟩ := encodeChar_shape c
    cases part with
    | nil => exact absurd rfl hpart
    | cons d part =>
      rw [h, List.cons_append] at hshape
      intro x hx
      refine hall x ?_
      rw [← (List.cons.inj hshape).2]
      exact List.mem_append_right part hx
  have htext : feed machine (encode text ++ (rest ++ encode after)) =
      (replacement :: (text ++ (List.replicate rest.length replacement ++ after)), .start) := by
    have hread : feed .start (encode text ++ (rest ++ encode after)) =
        (text ++ (List.replicate rest.length replacement ++ after), .start) := by
      rw [feed_append, feed_encode]
      dsimp only
      rw [feed_append, feed_others hothers]
      dsimp only
      rw [feed_encode]
    cases text with
    | nil => exact absurd rfl hne
    | cons d text =>
      obtain ⟨b, others, hshape, hlead, _⟩ := encodeChar_shape d
      have hcons : encode (d :: text) = b :: (others ++ encode text) := by
        change encodeChar d ++ encode text = _
        rw [hshape]
        rfl
      rw [hcons, List.cons_append] at hread ⊢
      rw [feed_interrupted hbegun hlead, hread]
  rw [decodeAll, List.append_assoc, List.append_assoc, feed_append, feed_encode]
  dsimp only
  rw [feed_append, hfeed]
  dsimp only
  rw [htext]
  dsimp only
  have hfinish : finish .start = [] := rfl
  rw [hfinish, List.append_nil, List.nil_append]

end Parts

section ByteOrderMarks

theorem serialize_cases (chars : List Char) :
    (serialize false chars).1 = chars ∨ chars = byteOrderMark :: (serialize false chars).1 := by
  cases chars with
  | nil => exact Or.inl rfl
  | cons first rest =>
    rw [serialize]
    by_cases h : first = byteOrderMark
    · rw [if_pos h, h]
      exact Or.inr rfl
    · rw [if_neg h]
      exact Or.inl rfl

/-- Bytes are those of the text they are read as when they are of some text without a byte order
mark at its start. -/
theorem encode_decodeAll_iff (bytes : List UInt8) :
    encode (decodeAll bytes) = bytes ↔ ∃ text, bytes = encode text ∧ text.head? ≠ some byteOrderMark := by
  constructor
  · intro h
    refine ⟨decodeAll bytes, h.symm, fun hhead => ?_⟩
    obtain ⟨rest, hrest⟩ := List.head?_eq_some_iff.mp hhead
    have hread := decodeAll_encode (decodeAll bytes)
    rw [h, hrest, serialize, if_pos rfl] at hread
    have hlength := congrArg List.length hread
    rw [List.length_cons] at hlength
    exact absurd hlength (Nat.succ_ne_self _)
  · intro h
    obtain ⟨text, rfl, hhead⟩ := h
    rw [decodeAll_encode]
    rcases serialize_cases text with heq | heq
    · rw [heq]
    · rw [heq] at hhead
      exact absurd rfl hhead

end ByteOrderMarks

section Replacing

/-- Where a text is replaced both as it is read and in the bytes, with one result, nothing was
lost when it was read. -/
theorem encode_decodeAll_of_replaced {bytes before after : List UInt8} {text other p q : List Char} (hne : text ≠ [])
    (hbytes : bytes = before ++ encode text ++ after) (hread : decodeAll bytes = p ++ text ++ q)
    (hwritten : encode (p ++ other ++ q) = before ++ encode other ++ after) : encode (decodeAll bytes) = bytes := by
  have hcut : (∃ p' q', p ++ other ++ q = p' ++ other ++ q' ∧ before = encode p' ∧ after = encode q') ∨
      ∃ p' c q' part rest, p ++ q = p' ++ c :: q' ∧ before = encode p' ++ part ∧ after = rest ++ encode q' ∧
        encodeChar c = part ++ rest ∧ part ≠ [] ∧ rest ≠ [] := by
    by_cases hnone : other = []
    · subst hnone
      have hsplit : (p ++ q).flatMap encodeChar = before ++ after := by
        rw [List.append_nil] at hwritten
        rw [← encode, hwritten]
        exact congrArg (· ++ after) (List.append_nil before)
      rcases cut encodeChar hsplit with ⟨p', q', heq, hp, hq⟩ | hparted
      · refine Or.inl ⟨p', q', ?_, hp, hq⟩
        rw [List.append_nil, List.append_nil, heq]
      · exact Or.inr hparted
    · exact Or.inl (byteWords.place hnone hwritten)
  rcases hcut with ⟨p', q', heq, hp, hq⟩ | ⟨p', c, q', part, rest, heq, hp, hq, hc, hpart, hrest⟩
  · have hwhole : bytes = encode (p' ++ text ++ q') := by
      rw [hbytes, hp, hq, encode_append, encode_append]
    have hdecoded : decodeAll bytes = (serialize false (p' ++ text ++ q')).1 := by
      rw [hwhole, decodeAll_encode]
    rcases serialize_cases (p' ++ text ++ q') with hsame | hmark
    · rw [hdecoded, hsame, ← hwhole]
    · -- A mark that is left out is missing in the text that was read.
      have hcount := congrArg (List.count byteOrderMark) hmark
      rw [← hdecoded, hread] at hcount
      have hother := congrArg (List.count byteOrderMark) heq
      simp only [List.count_append, List.count_cons_self] at hcount hother
      omega
  · -- The character is one, and is read as two replacements at least.
    have hdecoded := decodeAll_parted hc hpart hrest hne p' q'
    rw [← hp, ← hq, ← hbytes, hread] at hdecoded
    have hcount := congrArg (List.count replacement) hdecoded
    have hkept : List.count replacement (serialize false
        (p' ++ replacement :: (text ++ (List.replicate rest.length replacement ++ q')))).1 =
          List.count replacement (p' ++ replacement :: (text ++ (List.replicate rest.length replacement ++ q'))) := by
      rcases serialize_cases (p' ++ replacement :: (text ++ (List.replicate rest.length replacement ++ q'))) with hsame | hmark
      · rw [hsame]
      · have hmore := congrArg (List.count replacement) hmark
        rw [List.count_cons_of_ne (by decide +kernel)] at hmore
        exact hmore.symm
    rw [hkept] at hcount
    have hother := congrArg (List.count replacement) heq
    have hpos := List.length_pos_iff.mpr hrest
    simp only [List.count_append, List.count_cons_self, List.count_replicate_self] at hcount
    simp only [List.count_append, List.count_cons] at hother
    split at hother <;> omega

end Replacing

end TextEncodings
