import Mathlib.Data.List.Basic

namespace Base64Url

def sextets : List Nat → List Nat
  | a :: b :: c :: rest => a / 4 :: (a % 4 * 16 + b / 16) :: (b % 16 * 4 + c / 64) :: c % 64 :: sextets rest
  | [a, b] => [a / 4, a % 4 * 16 + b / 16, b % 16 * 4]
  | [a] => [a / 4, a % 4 * 16]
  | [] => []

def octets : List Nat → List Nat
  | w :: x :: y :: z :: rest => (w * 4 + x / 16) :: (x % 16 * 16 + y / 4) :: (y % 4 * 64 + z) :: octets rest
  | [w, x, y] => [w * 4 + x / 16, x % 16 * 16 + y / 4]
  | [w, x] => [w * 4 + x / 16]
  | _ => []

variable {bytes : List Nat}

theorem octets_sextets (h : ∀ byte ∈ bytes, byte < 256) : octets (sextets bytes) = bytes := by
  induction bytes using sextets.induct with
  | case1 a b c rest ih =>
    have ha : a < 256 := h a (by simp)
    have hb : b < 256 := h b (by simp)
    have hc : c < 256 := h c (by simp)
    have hrest := ih fun byte hbyte => h byte (by simp [hbyte])
    rw [sextets, octets, hrest]
    congr 1
    · omega
    · congr 1
      · omega
      · congr 1
        omega
  | case2 a b =>
    have ha : a < 256 := h a (by simp)
    have hb : b < 256 := h b (by simp)
    rw [sextets, octets]
    congr 1
    · omega
    · congr 1
      omega
  | case3 a =>
    have ha : a < 256 := h a (by simp)
    rw [sextets, octets]
    congr 1
    omega
  | case4 => rfl

theorem sextets_lt (h : ∀ byte ∈ bytes, byte < 256) : ∀ digit ∈ sextets bytes, digit < 64 := by
  induction bytes using sextets.induct with
  | case1 a b c rest ih =>
    have ha : a < 256 := h a (by simp)
    have hb : b < 256 := h b (by simp)
    have hc : c < 256 := h c (by simp)
    have hrest := ih fun byte hbyte => h byte (by simp [hbyte])
    intro digit hdigit
    simp only [sextets, List.mem_cons] at hdigit
    rcases hdigit with rfl | rfl | rfl | rfl | hdigit
    · omega
    · omega
    · omega
    · omega
    · exact hrest digit hdigit
  | case2 a b =>
    have ha : a < 256 := h a (by simp)
    have hb : b < 256 := h b (by simp)
    intro digit hdigit
    simp only [sextets, List.mem_cons, List.not_mem_nil, or_false] at hdigit
    omega
  | case3 a =>
    have ha : a < 256 := h a (by simp)
    intro digit hdigit
    simp only [sextets, List.mem_cons, List.not_mem_nil, or_false] at hdigit
    omega
  | case4 => nofun

theorem length_sextets (bytes : List Nat) : (sextets bytes).length = (4 * bytes.length + 2) / 3 := by
  induction bytes using sextets.induct with
  | case1 a b c rest ih =>
    simp only [sextets, List.length_cons, ih]
    omega
  | case2 a b => simp [sextets]
  | case3 a => simp [sextets]
  | case4 => simp [sextets]

def alphabet : List Char := "ABCDEFGHIJKLMNOPQRSTUVWXYZabcdefghijklmnopqrstuvwxyz0123456789-_".toList

def digit (n : Nat) : Char := alphabet.getD n 'A'

def value (c : Char) : Option Nat := alphabet.findIdx? (· = c)

theorem value_digit {n : Nat} (h : n < 64) : value (digit n) = some n := by
  have hall : ∀ n : Fin 64, value (digit n) = some n.val := by decide +kernel
  exact hall ⟨n, h⟩

theorem digit_mem (n : Nat) : digit n ∈ alphabet := by
  rw [digit, List.getD_eq_getElem?_getD]
  cases h : alphabet[n]? with
  | none => decide
  | some c => exact List.mem_of_getElem? h

def encode (bytes : List Nat) : List Char := (sextets bytes).map digit

def decode (text : List Char) : Option (List Nat) := (text.mapM value).map octets

theorem mapM_value {digits : List Nat} (h : ∀ digit ∈ digits, digit < 64) : (digits.map digit).mapM value = some digits := by
  induction digits with
  | nil => rfl
  | cons n digits ih =>
    have hrest := ih fun m hm => h m (List.mem_cons_of_mem _ hm)
    rw [List.map_cons, List.mapM_cons, value_digit (h n List.mem_cons_self), hrest]
    rfl

theorem decode_encode (h : ∀ byte ∈ bytes, byte < 256) : decode (encode bytes) = some bytes := by
  rw [decode, encode, mapM_value (sextets_lt h), Option.map_some, octets_sextets h]

theorem mem_alphabet_of_mem_encode {c : Char} (h : c ∈ encode bytes) : c ∈ alphabet := by
  obtain ⟨n, -, rfl⟩ := List.mem_map.mp h
  exact digit_mem n

@[simp] theorem length_encode (bytes : List Nat) : (encode bytes).length = (4 * bytes.length + 2) / 3 := by
  rw [encode, List.length_map, length_sextets]

end Base64Url
