import Rika.Binary64
import Rika.StringReplace

namespace Rika.UnitIdentity

open WideText (Units units)
open StringReplace (replaceAll)
open Binary64 (Number)

def percent : UInt16 := 37

def colon : UInt16 := 58

def escapedPercent : Units := units "%25".toList

def escapedColon : Units := units "%3A".toList

inductive IdentityComponent
  | string (value : Units)
  | number (value : Number)

structure ScopedIdentity where
  scope : Units
  id : Units

def encodeString (value : Units) : Units := replaceAll (replaceAll value [percent] escapedPercent) [colon] escapedColon

def decodeString : Units → Option Units
  | [] => some []
  | character :: rest =>
    if character ≠ percent then (decodeString rest).map (character :: ·)
    else
      match rest with
      | first :: second :: rest =>
        if [character, first, second] = escapedPercent then (decodeString rest).map (percent :: ·)
        else if [character, first, second] = escapedColon then (decodeString rest).map (colon :: ·)
        else none
      | _ => none

/-- `String`, which writes the negative zero as the other. -/
def encodeNumber (value : Number) : List Char := if value = .finite true .zero then "-0".toList else value.text

def encodeComponent : IdentityComponent → Units
  | .string value => encodeString value
  | .number value => units ("%n".toList ++ encodeNumber value)

def identityKey (family : Units) (components : List IdentityComponent) : Units :=
  [colon].intercalate (encodeString family :: components.map encodeComponent)

def scopedIdentity (scope id : Units) : Units := [colon].intercalate ([scope, id].map encodeString)

def decodeScopedIdentity (value : Units) : Option ScopedIdentity :=
  match value.splitOn colon with
  | [scope, id] =>
    match decodeString scope, decodeString id with
    | some scope, some id => some ⟨scope, id⟩
    | _, _ => none
  | _ => none

section Strings

def encodeUnit (u : UInt16) : Units := if u = percent then escapedPercent else if u = colon then escapedColon else [u]

theorem encodeString_eq (value : Units) : encodeString value = value.flatMap encodeUnit := by
  rw [encodeString, StringReplace.replaceAll_unit fun _ => rfl, StringReplace.replaceAll_unit fun _ => rfl, List.flatMap_assoc]
  refine List.flatMap_congr fun u _ => ?_
  by_cases hu : u = percent
  · rw [encodeUnit, if_pos hu, if_pos hu]
    rfl
  · rw [encodeUnit, if_neg hu, if_neg hu]
    simp

theorem colon_notMem_encodeString (value : Units) : colon ∉ encodeString value := by
  rw [encodeString_eq]
  intro h
  obtain ⟨u, -, hu⟩ := List.mem_flatMap.mp h
  rw [encodeUnit] at hu
  split at hu
  · revert hu
    decide
  · split at hu
    · revert hu
      decide
    · next hne => exact hne (List.mem_singleton.mp hu).symm

theorem decodeString_plain {u : UInt16} (h : u ≠ percent) (rest : Units) :
    decodeString (u :: rest) = (decodeString rest).map (u :: ·) := by
  conv_lhs => unfold decodeString
  rw [if_pos h]

theorem decodeString_percent {rest decoded : Units} (h : decodeString (percent :: rest) = some decoded) :
    ∃ u tail, percent :: rest = encodeUnit u ++ tail ∧ decodeString (encodeUnit u ++ tail) = some decoded := by
  cases rest with
  | nil => cases h
  | cons first rest =>
    cases rest with
    | nil => cases h
    | cons second tail =>
      by_cases hpercent : [percent, first, second] = escapedPercent
      · exact ⟨percent, tail, congrArg (· ++ tail) hpercent, congrArg (decodeString <| · ++ tail) hpercent ▸ h⟩
      · by_cases hcolon : [percent, first, second] = escapedColon
        · exact ⟨colon, tail, congrArg (· ++ tail) hcolon, congrArg (decodeString <| · ++ tail) hcolon ▸ h⟩
        · rw [decodeString, if_neg (by decide), if_neg hpercent, if_neg hcolon] at h
          cases h

theorem decodeString_encodeUnit (u : UInt16) (rest : Units) :
    decodeString (encodeUnit u ++ rest) = (decodeString rest).map (u :: ·) := by
  rw [encodeUnit]
  by_cases hpercent : u = percent
  · rw [if_pos hpercent, hpercent]
    rfl
  · rw [if_neg hpercent]
    by_cases hcolon : u = colon
    · rw [if_pos hcolon, hcolon]
      rfl
    · rw [if_neg hcolon, List.singleton_append, decodeString_plain hpercent]

theorem decodeString_encodeString (value : Units) : decodeString (encodeString value) = some value := by
  rw [encodeString_eq]
  induction value with
  | nil => rfl
  | cons u value ih => rw [List.flatMap_cons, decodeString_encodeUnit, ih, Option.map_some]

theorem encodeString_injective : Function.Injective encodeString := by
  intro left right h
  have hdecode := congrArg decodeString h
  rw [decodeString_encodeString, decodeString_encodeString] at hdecode
  exact Option.some.inj hdecode

theorem encodeString_decodeString {value decoded : Units} (h : decodeString value = some decoded) (hcolon : colon ∉ value) :
    encodeString decoded = value := by
  rw [encodeString_eq]
  induction hlength : value.length using Nat.strongRecOn generalizing value decoded with
  | ind length ih =>
    cases value with
    | nil =>
      cases h
      rfl
    | cons u rest =>
      -- a character that stands for itself is its own encoding, so both cases cut one encoded unit off
      have hcut : ∃ v tail, u :: rest = encodeUnit v ++ tail ∧ decodeString (encodeUnit v ++ tail) = some decoded := by
        by_cases hu : u = percent
        · subst hu
          exact decodeString_percent h
        · have hother : u ≠ colon := fun heq => hcolon (heq ▸ List.mem_cons_self)
          have hself : encodeUnit u = [u] := by rw [encodeUnit, if_neg hu, if_neg hother]
          exact ⟨u, rest, by rw [hself]; rfl, by rw [hself]; exact h⟩
      obtain ⟨v, tail, heq, hdecode⟩ := hcut
      rw [decodeString_encodeUnit] at hdecode
      obtain ⟨decodedTail, htail, rfl⟩ := Option.map_eq_some_iff.mp hdecode
      have hpos : 0 < (encodeUnit v).length := by
        rw [encodeUnit]
        split
        · decide
        · split <;> exact Nat.succ_pos _
      have hshorter : tail.length < length := by
        rw [← hlength, heq, List.length_append]
        omega
      have hrest : colon ∉ tail := fun hmem => hcolon (heq ▸ List.mem_append_right _ hmem)
      rw [List.flatMap_cons, ih _ hshorter htail hrest rfl, heq]

end Strings

section Components

theorem encodeNumber_injective : Function.Injective encodeNumber := by
  have hread (value : Number) : Binary64.ofText (encodeNumber value) = some value := by
    rw [encodeNumber]
    by_cases hzero : value = .finite true .zero
    · rw [if_pos hzero, hzero]
      exact Binary64.ofText_minus_zero
    · rw [if_neg hzero]
      exact Binary64.ofText_text hzero
  intro left right h
  have hnumber := congrArg Binary64.ofText h
  rw [hread, hread] at hnumber
  exact Option.some.inj hnumber

theorem colon_notMem_encodeNumber (value : Number) : ':' ∉ encodeNumber value := by
  rw [encodeNumber]
  split
  · decide
  · exact value.text_plain

theorem colon_notMem_units {text : List Char} (h : ':' ∉ text) : colon ∉ units text := by
  intro hmem
  obtain ⟨c, hc, hunit⟩ := List.mem_flatMap.mp hmem
  rcases WideText.charUnits_cases c with ⟨u, heq, -, -, hchar⟩ | ⟨u, v, heq, hhigh, hlow, -⟩
  · rw [heq, List.mem_singleton] at hunit
    have hcolon : WideText.loneChar colon = ':' := rfl
    rw [← hunit, hcolon] at hchar
    exact h (hchar ▸ hc)
  · rw [heq, List.mem_cons, List.mem_singleton] at hunit
    rcases hunit with hunit | hunit
    · rw [← hunit] at hhigh
      cases hhigh
    · rw [← hunit] at hlow
      cases hlow

theorem colon_notMem_encodeComponent (component : IdentityComponent) : colon ∉ encodeComponent component := by
  cases component with
  | string value => exact colon_notMem_encodeString value
  | number value =>
    refine colon_notMem_units ?_
    rw [List.mem_append, not_or]
    exact ⟨by decide, colon_notMem_encodeNumber value⟩

theorem encodeString_ne_number (value : Units) (number : Number) : encodeString value ≠ encodeComponent (.number number) := by
  intro h
  have hdecode := decodeString_encodeString value
  have hnumber : encodeComponent (.number number) = percent :: 110 :: units (encodeNumber number) := rfl
  rw [h, hnumber] at hdecode
  cases hrest : units (encodeNumber number) with
  | nil =>
    rw [hrest] at hdecode
    cases hdecode
  | cons first rest =>
    rw [hrest, decodeString, if_neg (by decide), if_neg (by simp [escapedPercent, units, WideText.charUnits]),
      if_neg (by simp [escapedColon, units, WideText.charUnits])] at hdecode
    cases hdecode

theorem encodeComponent_injective : Function.Injective encodeComponent := by
  intro left right h
  cases left with
  | string left =>
    cases right with
    | string right => exact congrArg _ (encodeString_injective h)
    | number right => exact absurd h (encodeString_ne_number left right)
  | number left =>
    cases right with
    | string right => exact absurd h.symm (encodeString_ne_number right left)
    | number right =>
      have htext := List.append_cancel_left (WideText.units_injective h)
      exact congrArg _ (encodeNumber_injective htext)

end Components

section Identities

theorem identityKey_injective {family family' : Units} {components components' : List IdentityComponent}
    (h : identityKey family components = identityKey family' components') : family = family' ∧ components = components' := by
  have hcolon (family : Units) (components : List IdentityComponent) :
      ∀ part ∈ encodeString family :: components.map encodeComponent, colon ∉ part :=
    List.forall_mem_cons.mpr ⟨colon_notMem_encodeString family, List.forall_mem_map.mpr fun component _ =>
      colon_notMem_encodeComponent component⟩
  have hparts := congrArg (List.splitOn colon) h
  rw [identityKey, identityKey, List.splitOn_intercalate colon (hcolon _ _) (List.cons_ne_nil _ _),
    List.splitOn_intercalate colon (hcolon _ _) (List.cons_ne_nil _ _), List.cons.injEq] at hparts
  exact ⟨encodeString_injective hparts.1, List.map_injective_iff.mpr encodeComponent_injective hparts.2⟩

theorem decodeScopedIdentity_scopedIdentity (scope id : Units) : decodeScopedIdentity (scopedIdentity scope id) = some ⟨scope, id⟩ := by
  have hcolon : ∀ part ∈ [scope, id].map encodeString, colon ∉ part :=
    List.forall_mem_map.mpr fun part _ => colon_notMem_encodeString part
  rw [decodeScopedIdentity, scopedIdentity, List.splitOn_intercalate colon hcolon (List.cons_ne_nil _ _)]
  simp [decodeString_encodeString]

theorem scopedIdentity_decodeScopedIdentity {value : Units} {identity : ScopedIdentity}
    (h : decodeScopedIdentity value = some identity) : scopedIdentity identity.scope identity.id = value := by
  rw [decodeScopedIdentity] at h
  split at h
  · next scope id hparts =>
      split at h
      · next decodedScope decodedId hscope hid =>
          cases h
          have hcolon : ∀ part ∈ [scope, id], colon ∉ part := by
            rw [← hparts]
            exact fun part hpart => Substrings.notMem_of_mem_splitOn hpart
          have hjoin : [colon].intercalate (value.splitOn colon) = value := List.intercalate_splitOn colon
          rw [hparts] at hjoin
          rw [scopedIdentity, List.map_cons, List.map_singleton,
            encodeString_decodeString hscope (hcolon scope List.mem_cons_self),
            encodeString_decodeString hid (hcolon id (List.mem_cons_of_mem _ List.mem_cons_self)), hjoin]
      · cases h
  · cases h

/-- Keys tell what they were made of, and the scoped identities are the texts that decode. -/
theorem identities_decode :
    (∀ family family' components components', identityKey family components = identityKey family' components' →
      family = family' ∧ components = components') ∧
    (∀ scope id, decodeScopedIdentity (scopedIdentity scope id) = some ⟨scope, id⟩) ∧
    ∀ value identity, decodeScopedIdentity value = some identity → scopedIdentity identity.scope identity.id = value :=
  ⟨fun _ _ _ _ h => identityKey_injective h, decodeScopedIdentity_scopedIdentity, fun _ _ h => scopedIdentity_decodeScopedIdentity h⟩

example : identityKey (units "event".toList) [.string (units "a:b".toList), .number (.finite true .zero)] =
    units "event:a%3Ab:%n-0".toList := by decide

end Identities

end Rika.UnitIdentity
