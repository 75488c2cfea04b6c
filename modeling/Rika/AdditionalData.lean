import Rika.CredentialVault
import Rika.TextEncodings
import Mathlib.Data.Set.List

namespace Rika.CredentialVault

open WideText (Units units units_append units_injective scalars_units)

section Frames

theorem toDigits_injective : Function.Injective (Nat.toDigits 10) := by
  intro m n h
  have hread := Nat.ofDigitChars_ten_toDigits (n := m)
  rw [h, Nat.ofDigitChars_ten_toDigits] at hread
  exact hread.symm

theorem revisionText_injective : Function.Injective revisionText := by
  intro m n h
  have htext : m.repr.toList = n.repr.toList := units_injective h
  rw [Nat.toList_repr, Nat.toList_repr] at htext
  exact toDigits_injective htext

end Frames

section Contexts

theorem owner_eq {binding other : CredentialBinding} (htype : ownerType binding = ownerType other)
    (hid : binding.owner.id = other.owner.id) : binding.owner = other.owner := by
  rw [ownerType, ownerType] at htype
  cases howner : binding.owner with
  | user id =>
    cases hother : other.owner with
    | user otherId =>
      rw [howner, hother] at hid
      exact congrArg CredentialOwner.user hid
    | organization otherId =>
      rw [howner, hother] at htype
      cases htype
  | organization id =>
    cases hother : other.owner with
    | user otherId =>
      rw [howner, hother] at htype
      cases htype
    | organization otherId =>
      rw [howner, hother] at hid
      exact congrArg CredentialOwner.organization hid

theorem credentialKmsEncryptionContext_injective : Function.Injective credentialKmsEncryptionContext := by
  intro binding other h
  have howner := owner_eq (congrArg CredentialKmsEncryptionContext.ownerType h) (congrArg CredentialKmsEncryptionContext.ownerId h)
  have hrevision := revisionText_injective (congrArg CredentialKmsEncryptionContext.revision h)
  have hcredential : binding.credentialId = other.credentialId := congrArg CredentialKmsEncryptionContext.credentialId h
  have hprovider : binding.provider = other.provider := congrArg CredentialKmsEncryptionContext.provider h
  cases binding
  cases other
  simp_all

end Contexts

section Fields

theorem encode_injective : Function.Injective Utf8Stream.encode := by
  intro text other h
  have hread := Utf8Stream.feed_encode text
  rw [h, Utf8Stream.feed_encode] at hread
  exact (congrArg Prod.fst hread).symm

def framed (text : List Char) : List Char := (Utf8Stream.encode text).length.repr.toList ++ ':' :: text

theorem colon_notMem_repr (n : Nat) : ':' ∉ n.repr.toList := by
  intro h
  rw [Nat.toList_repr] at h
  exact absurd (Nat.isDigit_of_mem_toDigits (by omega) (by omega) h) (by decide)

theorem framed_append_injective {text other rest others : List Char} (h : framed text ++ rest = framed other ++ others) :
    text = other ∧ rest = others := by
  rw [framed, framed, List.append_assoc, List.append_assoc, List.cons_append, List.cons_append] at h
  have hdigits := congrArg (List.takeWhile (· ≠ ':')) h
  have htexts := congrArg (List.dropWhile (· ≠ ':')) h
  have hne (n : Nat) : ∀ c ∈ n.repr.toList, decide (c ≠ ':') = true := fun c hc =>
    decide_eq_true fun heq => colon_notMem_repr n (heq ▸ hc)
  rw [List.takeWhile_append_of_pos (hne _), List.takeWhile_append_of_pos (hne _)] at hdigits
  rw [List.dropWhile_append_of_pos (hne _), List.dropWhile_append_of_pos (hne _)] at htexts
  simp only [ne_eq, decide_not, decide_true, Bool.not_true, Bool.false_eq_true, not_false_eq_true, List.takeWhile_cons_of_neg,
    List.dropWhile_cons_of_neg, List.append_nil, Nat.toList_repr, List.cons.injEq, true_and] at hdigits htexts
  have hbytes := congrArg Utf8Stream.encode htexts
  rw [Utf8Stream.encode_append, Utf8Stream.encode_append] at hbytes
  obtain rfl := encode_injective (List.append_inj_left hbytes (toDigits_injective hdigits))
  exact ⟨rfl, List.append_cancel_left htexts⟩

theorem flatMap_framed_injective {texts others : List (List Char)} (hlength : texts.length = others.length)
    (h : texts.flatMap framed = others.flatMap framed) : texts = others := by
  induction texts generalizing others with
  | nil => exact (List.length_eq_zero_iff.mp hlength.symm).symm
  | cons text texts ih =>
    obtain ⟨other, others, rfl⟩ := List.exists_cons_of_length_eq_add_one hlength.symm
    obtain ⟨rfl, hrest⟩ := framed_append_injective h
    rw [ih (Nat.succ.inj hlength) hrest]

theorem flatMap_prefixed (texts : List (List Char)) : (texts.map units).flatMap prefixed = units (texts.flatMap framed) := by
  induction texts with
  | nil => rfl
  | cons text texts ih =>
    rw [List.map_cons, List.flatMap_cons, List.flatMap_cons, units_append, ih, prefixed, textEncode, scalars_units, framed,
      units_append, List.append_assoc, List.append_assoc, List.append_assoc]
    rfl

/-- Credentials whose texts hold no lone surrogates have data of their own. -/
theorem credentialAdditionalAuthenticatedData_injective {binding other : CredentialBinding}
    (hbinding : ∀ field ∈ authenticatedFields binding, field ∈ Set.range units)
    (hother : ∀ field ∈ authenticatedFields other, field ∈ Set.range units)
    (h : credentialAdditionalAuthenticatedData binding = credentialAdditionalAuthenticatedData other) : binding = other := by
  obtain ⟨texts, htexts⟩ := (Set.range_list_map units).ge hbinding
  obtain ⟨others, hothers⟩ := (Set.range_list_map units).ge hother
  rw [credentialAdditionalAuthenticatedData, credentialAdditionalAuthenticatedData, ← htexts, ← hothers, flatMap_prefixed,
    flatMap_prefixed, textEncode, textEncode, scalars_units, scalars_units] at h
  have hlength : texts.length = others.length := by
    have hsix : (texts.map units).length = (others.map units).length := by
      rw [htexts, hothers]
      rfl
    rwa [List.length_map, List.length_map] at hsix
  have hfields : authenticatedFields binding = authenticatedFields other := by
    rw [← htexts, ← hothers, flatMap_framed_injective hlength (encode_injective h)]
  simp only [authenticatedFields, credentialKmsEncryptionContext, List.cons.injEq, true_and, and_true] at hfields
  obtain ⟨hcredential, htype, howner, hprovider, hrevision⟩ := hfields
  have htype : ownerType binding = ownerType other := by
    revert htype
    cases ownerType binding <;> cases ownerType other <;> decide
  exact credentialKmsEncryptionContext_injective (by simp [credentialKmsEncryptionContext, *])

end Fields

end Rika.CredentialVault
