import Rika.Base64Url
import Rika.BoxAssignments

namespace Rika.Assignments

open Base64Url (alphabet decode encode length_encode)

def escaped (c : Char) : List Char := if c = '"' || c = '\\' then ['\\', c] else [c]

section

variable (identity : BoxAssignmentIdentity)

/-- `JSON.stringify` of an identity's payload, whose id is printable. -/
def encodeJson : List Char :=
  '[' :: '"' :: (identity.rawAssignmentId.toList.flatMap escaped ++ '"' :: ',' :: (Nat.toDigits 10 identity.generation ++ [']']))

def unescaped : List Char → Option (List Char × List Char)
  | [] => none
  | '"' :: rest => some ([], rest)
  | '\\' :: c :: rest => (unescaped rest).map fun read => (c :: read.1, read.2)
  | c :: rest => (unescaped rest).map fun read => (c :: read.1, read.2)

/-- `JSON.parse` as far as it reads what `encodeJson` writes: what it reads
beyond that is not canonical. -/
def decodeJson : List Char → Option BoxAssignmentIdentity
  | '[' :: '"' :: rest => do
    match ← unescaped rest with
    | (raw, ',' :: digits) => some ⟨String.ofList raw, Nat.ofDigitChars 10 digits.dropLast 0⟩
    | _ => none
  | _ => none

def encodedBoxAssignmentIdentity (value : String) : Bool :=
  value.toList.take 4 = "bxa_".toList && 4 < value.length && (value.toList.drop 4).all alphabet.contains &&
    value.length ≤ 256

def encodeCanonical : Option String :=
  if opaqueId 255 identity.rawAssignmentId && 1 ≤ identity.generation && identity.generation ≤ maxSafeInteger then
    (some (String.ofList ("bxa_".toList ++ encode ((encodeJson identity).map Char.toNat)))).filter
      encodedBoxAssignmentIdentity
  else none

def decodeCanonical (value : String) : Option BoxAssignmentIdentity := do
  guard (encodedBoxAssignmentIdentity value)
  let json ← decode (value.toList.drop 4)
  let payload ← decodeJson (json.map Char.ofNat)
  guard (encodeCanonical payload = some value)
  return payload

def boxAssignmentIdentity (value : String) : Bool :=
  encodedBoxAssignmentIdentity value && (decodeCanonical value).isSome

def encodeBoxAssignmentIdentity : Option String :=
  (encodeCanonical identity).filter boxAssignmentIdentity

end

def decodeBoxAssignmentIdentity (value : String) : Option BoxAssignmentIdentity :=
  if boxAssignmentIdentity value then decodeCanonical value else none

variable {identity : BoxAssignmentIdentity} {value : String}

theorem unescaped_flatMap (raw rest : List Char) : unescaped (raw.flatMap escaped ++ '"' :: rest) = some (raw, rest) := by
  induction raw with
  | nil => rfl
  | cons c raw ih =>
    rw [List.flatMap_cons, List.append_assoc]
    by_cases hquote : c = '"' || c = '\\'
    · rw [escaped, if_pos hquote, List.cons_append, List.cons_append, List.nil_append, unescaped, ih]
      rfl
    · rw [escaped, if_neg hquote, List.cons_append, List.nil_append]
      simp only [Bool.or_eq_true, decide_eq_true_eq, not_or] at hquote
      rw [unescaped, ih]
      · rfl
      · exact hquote.1
      · intro _ _ hslash
        exact absurd hslash hquote.2

theorem decodeJson_encodeJson (identity : BoxAssignmentIdentity) : decodeJson (encodeJson identity) = some identity := by
  rw [encodeJson, decodeJson, unescaped_flatMap]
  simp [Nat.ofDigitChars_ten_toDigits]

theorem encodeJson_lt (h : opaqueId 255 identity.rawAssignmentId = true) :
    ∀ byte ∈ (encodeJson identity).map Char.toNat, byte < 256 := by
  simp only [opaqueId, Bool.and_eq_true, List.all_eq_true, decide_eq_true_eq] at h
  intro byte hbyte
  obtain ⟨c, hc, rfl⟩ := List.mem_map.mp hbyte
  simp only [encodeJson, List.mem_cons, List.mem_append, List.mem_flatMap, List.not_mem_nil, or_false] at hc
  rcases hc with rfl | rfl | ⟨raw, hraw, hc⟩ | rfl | rfl | hdigit | rfl
  · decide
  · decide
  · have hraw := (h.2 raw hraw).2
    rw [escaped] at hc
    split at hc
    · simp only [List.mem_cons, List.not_mem_nil, or_false] at hc
      rcases hc with rfl | rfl
      · decide
      · omega
    · obtain rfl := List.mem_singleton.mp hc
      omega
  · decide
  · decide
  · have hdigit := Nat.isDigit_of_mem_toDigits (by decide) (by decide) hdigit
    have hle := (Char.isDigit_iff_toNat.mp hdigit).2
    exact Nat.lt_of_le_of_lt hle (by decide)
  · decide

theorem decodeCanonical_of_encodeCanonical (h : encodeCanonical identity = some value) :
    decodeCanonical value = some identity := by
  have hencode := h
  rw [encodeCanonical] at h
  split at h
  · next hpayload =>
      simp only [Bool.and_eq_true, decide_eq_true_eq] at hpayload
      obtain ⟨hvalue, hcheck⟩ := Option.filter_eq_some_iff.mp h
      have hdrop : value.toList.drop 4 = encode ((encodeJson identity).map Char.toNat) := by
        rw [← Option.some_inj.mp hvalue, String.toList_ofList]
        rfl
      have hchars : ((encodeJson identity).map Char.toNat).map Char.ofNat = encodeJson identity := by
        rw [List.map_map]
        exact List.map_id'' Char.ofNat_toNat _
      rw [decodeCanonical, hcheck, hdrop, Base64Url.decode_encode (encodeJson_lt hpayload.1.1)]
      simp only [guard_true, Option.pure_def, Option.bind_eq_bind, Option.bind_some, hchars, decodeJson_encodeJson, hencode]
  · cases h

theorem encodeCanonical_of_decodeCanonical (h : decodeCanonical value = some identity) :
    encodeCanonical identity = some value := by
  simp only [decodeCanonical, Option.bind_eq_bind, Option.bind_eq_some_iff] at h
  obtain ⟨_, _, json, _, payload, _, _, hguard, h⟩ := h
  obtain rfl := Option.some_inj.mp h
  simpa [guard] using hguard

theorem decodeBoxAssignmentIdentity_eq_some :
    decodeBoxAssignmentIdentity value = some identity ↔ encodeBoxAssignmentIdentity identity = some value := by
  rw [decodeBoxAssignmentIdentity, encodeBoxAssignmentIdentity, Option.filter_eq_some_iff]
  constructor
  · intro h
    split at h
    · next hcheck => exact ⟨encodeCanonical_of_decodeCanonical h, hcheck⟩
    · cases h
  · intro ⟨hencode, hcheck⟩
    rw [if_pos hcheck, decodeCanonical_of_encodeCanonical hencode]

section

variable (identity : BoxAssignmentIdentity)

theorem length_encodeJson : (encodeJson identity).length =
      (identity.rawAssignmentId.toList.flatMap escaped).length + (toString identity.generation).length + 5 := by
  have hdigits : (toString identity.generation).length = (Nat.toDigits 10 identity.generation).length := by
    exact String.length_ofList
  simp only [encodeJson, hdigits, List.length_cons, List.length_append, List.length_nil]
  omega

theorem encoded_encode : encodedBoxAssignmentIdentity
        (String.ofList ("bxa_".toList ++ encode ((encodeJson identity).map Char.toNat))) =
      decide (identityLength identity ≤ 256) := by
  have hlength : ("bxa_".toList ++ encode ((encodeJson identity).map Char.toNat)).length =
      identityLength identity := by
    rw [List.length_append, length_encode, List.length_map, length_encodeJson]
    rfl
  have hjson : 5 ≤ (encodeJson identity).length := by
    rw [length_encodeJson]
    omega
  have hpositive : 4 < identityLength identity := by
    rw [← hlength, List.length_append, length_encode, List.length_map]
    change 4 < 4 + _
    omega
  have hall : (encode ((encodeJson identity).map Char.toNat)).all alphabet.contains = true :=
    List.all_eq_true.mpr fun c hc => List.contains_iff_mem.mpr (Base64Url.mem_alphabet_of_mem_encode hc)
  rw [encodedBoxAssignmentIdentity, String.length_ofList, String.toList_ofList, hlength, decide_eq_true hpositive]
  have htake : ("bxa_".toList ++ encode ((encodeJson identity).map Char.toNat)).take 4 = "bxa_".toList := rfl
  have hdrop : ("bxa_".toList ++ encode ((encodeJson identity).map Char.toNat)).drop 4 =
      encode ((encodeJson identity).map Char.toNat) := rfl
  rw [htake, hdrop, hall, decide_eq_true rfl, Bool.true_and, Bool.true_and, Bool.true_and]

theorem encodeBoxAssignmentIdentity_isSome :
    (encodeBoxAssignmentIdentity identity).isSome = canonical identity := by
  have hfilter : encodeBoxAssignmentIdentity identity = encodeCanonical identity := by
    rw [encodeBoxAssignmentIdentity]
    cases hvalue : encodeCanonical identity with
    | none => rfl
    | some value =>
      have hencoded : encodedBoxAssignmentIdentity value = true := by
        have hencode := hvalue
        rw [encodeCanonical] at hencode
        split at hencode
        · exact (Option.filter_eq_some_iff.mp hencode).2
        · cases hencode
      rw [Option.filter_some, boxAssignmentIdentity, hencoded, decodeCanonical_of_encodeCanonical hvalue]
      rfl
  rw [hfilter, encodeCanonical, canonical]
  by_cases hpayload : (opaqueId 255 identity.rawAssignmentId && 1 ≤ identity.generation &&
      identity.generation ≤ maxSafeInteger) = true
  · rw [if_pos hpayload, hpayload, Bool.true_and, ← encoded_encode]
    cases hcheck : encodedBoxAssignmentIdentity
        (String.ofList ("bxa_".toList ++ encode ((encodeJson identity).map Char.toNat))) with
    | true => rw [Option.filter_some, hcheck]; rfl
    | false => rw [Option.filter_some, hcheck]; rfl
  · rw [if_neg hpayload, eq_false_of_ne_true hpayload, Bool.false_and]
    rfl

end

end Rika.Assignments
