import Rika.Bisection
import Rika.WideText

namespace Rika.RuntimeFilesystem

open WideText

structure BoundedText where
  text : Units
  truncated : Bool

def boundedPrefix (text : Units) (limit : Int) : Units :=
  let budget := (max 0 limit).toNat
  let low := Bisection.last (fun middle => byteLength (text.take middle) ≤ budget) text.length 0 text.length
  dropHalf (text.take low)

def marker (keptBytes totalBytes : Nat) (recovery : String) : Units :=
  units s!"[truncated: kept first {keptBytes} of {totalBytes} bytes — {recovery}]".toList

def longestMarker (totalBytes : Nat) (recovery : String) : Units := marker totalBytes totalBytes recovery

def newline : UInt16 := 10

def separator (kept : Units) : Units := if kept = [] || kept.getLast? = some newline then [] else [newline]

def boundedText (text : Units) (limit : Int) (recovery : String) (knownTotalBytes : Option Nat) : BoundedText :=
  let totalBytes := knownTotalBytes.getD (byteLength text)
  if (totalBytes : Int) ≤ limit && byteLength text = totalBytes then ⟨text, false⟩
  else
    let kept := boundedPrefix text (max 0 (limit - byteLength (longestMarker totalBytes recovery) - 1))
    ⟨kept ++ separator kept ++ marker (byteLength kept) totalBytes recovery, true⟩

section Prefixes

/-- A bounded prefix of a text without lone surrogates is its longest prefix of whole characters
that the limit has room for. -/
theorem boundedPrefix_units (text : List Char) (limit : Int) :
    boundedPrefix (units text) limit = units (fitting limit.toNat text) := by
  have hbudget : (max 0 limit).toNat = limit.toNat := by omega
  have hdown : ∀ m n, m ≤ n → decide (byteLength ((units text).take n) ≤ limit.toNat) = true →
      decide (byteLength ((units text).take m) ≤ limit.toNat) = true := by
    intro m n hle hfits
    exact decide_eq_true (Nat.le_trans (byteLength_take_le text hle) (of_decide_eq_true hfits))
  have hzero : decide (byteLength ((units text).take 0) ≤ limit.toNat) = true := decide_eq_true (Nat.zero_le _)
  have hlast := Bisection.isLast_last hdown hzero (Nat.zero_le (units text).length) (Nat.le_refl _)
    (fun other hlt hle => by omega) (Nat.sub_le _ 0)
  rw [boundedPrefix, hbudget]
  refine dropHalf_take hlast.le (of_decide_eq_true hlast.holds) fun other hlt hle => ?_
  exact Nat.not_le.mp (of_decide_eq_false (hlast.last other hlt hle))

theorem boundedPrefix_eq_self {text : List Char} {limit : Int} :
    boundedPrefix (units text) limit = units text ↔ utf8Size text ≤ limit.toNat := by
  rw [boundedPrefix_units, units_injective.eq_iff, fitting_eq_self]

end Prefixes

section Markers

theorem utf8Size_repr (n : Nat) : utf8Size n.repr.toList = n.repr.length := by
  have hdigits : ∀ c ∈ n.repr.toList, c.utf8Size = 1 := by
    intro c hc
    rw [Nat.toList_repr] at hc
    have hdigit := Nat.isDigit_of_mem_toDigits (by omega) (by omega) hc
    simp only [Char.isDigit, Bool.and_eq_true, decide_eq_true_eq] at hdigit
    rw [Char.utf8Size_eq_one_iff]
    exact UInt32.le_trans hdigit.2 (by decide)
  rw [utf8Size, List.map_congr_left hdigits, List.map_const', List.sum_replicate_nat, Nat.mul_one,
    String.length_toList]

theorem length_repr_mono {m n : Nat} (h : m ≤ n) : m.repr.length ≤ n.repr.length := by
  rw [Nat.length_repr_le_iff Nat.length_repr_pos]
  exact Nat.lt_of_le_of_lt h ((Nat.length_repr_le_iff Nat.length_repr_pos).mp (Nat.le_refl _))

theorem byteLength_marker (keptBytes totalBytes : Nat) (recovery : String) :
    byteLength (marker keptBytes totalBytes recovery) =
      utf8Size "[truncated: kept first ".toList + keptBytes.repr.length + utf8Size " of ".toList +
        totalBytes.repr.length + utf8Size " bytes — ".toList + utf8Size recovery.toList + utf8Size "]".toList := by
  rw [marker, byteLength_units, ← utf8Size_repr keptBytes, ← utf8Size_repr totalBytes]
  simp only [String.toList_append, utf8Size_append, ToString.toString, Nat.repr]

theorem byteLength_marker_le {keptBytes totalBytes : Nat} (h : keptBytes ≤ totalBytes) (recovery : String) :
    byteLength (marker keptBytes totalBytes recovery) ≤ byteLength (longestMarker totalBytes recovery) := by
  have hlength := length_repr_mono h
  rw [longestMarker, byteLength_marker, byteLength_marker]
  omega

end Markers

end Rika.RuntimeFilesystem
