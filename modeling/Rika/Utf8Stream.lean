import Rika.WideText

namespace Utf8Stream

open WideText (replacement)

/-- The code point that is begun, the number of bytes of it to come, and the bounds of the next one. -/
structure Machine where
  codePoint : Nat
  needed : Nat
  lower : Nat
  upper : Nat

def Machine.start : Machine := ⟨0, 0, 0x80, 0xBF⟩

def lead (byte : UInt8) : List Char × Machine :=
  let value := byte.toNat
  if value < 0x80 then ([Char.ofNat value], .start)
  else if value < 0xC2 then ([replacement], .start)
  else if value < 0xE0 then ([], ⟨value - 0xC0, 1, 0x80, 0xBF⟩)
  else if value < 0xF0 then
    ([], ⟨value - 0xE0, 2, if value = 0xE0 then 0xA0 else 0x80, if value = 0xED then 0x9F else 0xBF⟩)
  else if value < 0xF5 then
    ([], ⟨value - 0xF0, 3, if value = 0xF0 then 0x90 else 0x80, if value = 0xF4 then 0x8F else 0xBF⟩)
  else ([replacement], .start)

/-- A byte that cannot go on with the code point is read again as the first of another. -/
def handle (machine : Machine) (byte : UInt8) : List Char × Machine :=
  if machine.needed = 0 then lead byte
  else if byte.toNat < machine.lower || machine.upper < byte.toNat then
    (replacement :: (lead byte).1, (lead byte).2)
  else
    let codePoint := machine.codePoint * 64 + (byte.toNat - 0x80)
    if machine.needed = 1 then ([Char.ofNat codePoint], .start)
    else ([], ⟨codePoint, machine.needed - 1, 0x80, 0xBF⟩)

def feed (machine : Machine) : List UInt8 → List Char × Machine
  | [] => ([], machine)
  | byte :: bytes =>
    let read := handle machine byte
    let rest := feed read.2 bytes
    (read.1 ++ rest.1, rest.2)

def finish (machine : Machine) : List Char := if machine.needed = 0 then [] else [replacement]

def byteOrderMark : Char := '\uFEFF'

structure Decoder where
  machine : Machine
  bomSeen : Bool

def Decoder.start : Decoder := ⟨.start, false⟩

def serialize (bomSeen : Bool) (chars : List Char) : List Char × Bool :=
  match bomSeen, chars with
  | true, chars => (chars, true)
  | false, [] => ([], false)
  | false, first :: rest => (if first = byteOrderMark then rest else first :: rest, true)

def Decoder.decode (decoder : Decoder) (bytes : List UInt8) : List Char × Decoder :=
  let read := feed decoder.machine bytes
  let text := serialize decoder.bomSeen read.1
  (text.1, ⟨read.2, text.2⟩)

def Decoder.flush (decoder : Decoder) : List Char := (serialize decoder.bomSeen (finish decoder.machine)).1

def decodeAll (bytes : List UInt8) : List Char := (serialize false ((feed .start bytes).1 ++ finish (feed .start bytes).2)).1

def encodeChar (c : Char) : List UInt8 :=
  let value := c.toNat
  if value < 0x80 then [UInt8.ofNat value]
  else if value < 0x800 then [UInt8.ofNat (0xC0 + value / 0x40), UInt8.ofNat (0x80 + value % 0x40)]
  else if value < 0x10000 then
    [UInt8.ofNat (0xE0 + value / 0x1000), UInt8.ofNat (0x80 + value / 0x40 % 0x40), UInt8.ofNat (0x80 + value % 0x40)]
  else
    [UInt8.ofNat (0xF0 + value / 0x40000), UInt8.ofNat (0x80 + value / 0x1000 % 0x40),
      UInt8.ofNat (0x80 + value / 0x40 % 0x40), UInt8.ofNat (0x80 + value % 0x40)]

def encode (text : List Char) : List UInt8 := text.flatMap encodeChar

section Streams

theorem feed_cons (machine : Machine) (byte : UInt8) (bytes : List UInt8) :
    feed machine (byte :: bytes) =
      ((handle machine byte).1 ++ (feed (handle machine byte).2 bytes).1, (feed (handle machine byte).2 bytes).2) := rfl

theorem feed_append (machine : Machine) (bytes others : List UInt8) :
    feed machine (bytes ++ others) =
      ((feed machine bytes).1 ++ (feed (feed machine bytes).2 others).1, (feed (feed machine bytes).2 others).2) := by
  induction bytes generalizing machine with
  | nil => rfl
  | cons byte bytes ih =>
    rw [List.cons_append, feed_cons, feed_cons, ih, List.append_assoc]

theorem serialize_append (bomSeen : Bool) (chars others : List Char) :
    serialize bomSeen (chars ++ others) =
      ((serialize bomSeen chars).1 ++ (serialize (serialize bomSeen chars).2 others).1,
        (serialize (serialize bomSeen chars).2 others).2) := by
  cases bomSeen with
  | true => rfl
  | false =>
    cases chars with
    | nil => rfl
    | cons first rest =>
      rw [List.cons_append, serialize, serialize]
      split <;> rfl

theorem Decoder.decode_append (decoder : Decoder) (bytes others : List UInt8) :
    decoder.decode (bytes ++ others) =
      ((decoder.decode bytes).1 ++ ((decoder.decode bytes).2.decode others).1, ((decoder.decode bytes).2.decode others).2) := by
  simp only [decode, feed_append, serialize_append]

end Streams

section Characters

theorem toNat_ofNat {n : Nat} (h : n < 256) : (UInt8.ofNat n).toNat = n := UInt8.toNat_ofNat_of_lt' h

theorem handle_next {machine : Machine} {value : Nat} (hneeded : 2 ≤ machine.needed) (hlower : machine.lower ≤ value)
    (hupper : value ≤ machine.upper) (hbyte : value < 256) :
    handle machine (UInt8.ofNat value) =
      ([], ⟨machine.codePoint * 64 + (value - 0x80), machine.needed - 1, 0x80, 0xBF⟩) := by
  rw [handle, toNat_ofNat hbyte, if_neg (by omega), if_neg (by simp; omega)]
  simp only
  rw [if_neg (by omega)]

theorem handle_last {machine : Machine} {value : Nat} (hneeded : machine.needed = 1) (hlower : machine.lower ≤ value)
    (hupper : value ≤ machine.upper) (hbyte : value < 256) :
    handle machine (UInt8.ofNat value) = ([Char.ofNat (machine.codePoint * 64 + (value - 0x80))], .start) := by
  rw [handle, toNat_ofNat hbyte, if_neg (by omega), if_neg (by simp; omega)]
  simp only
  rw [if_pos hneeded]

theorem feed_encodeChar (c : Char) : feed .start (encodeChar c) = ([c], .start) := by
  have hlt := WideText.toNat_lt c
  have hnot := WideText.toNat_notSurrogate c
  have hofNat := Char.ofNat_toNat c
  have hstart : ∀ byte, handle .start byte = lead byte := fun byte => if_pos rfl
  rw [encodeChar]
  generalize c.toNat = value at hlt hnot hofNat
  by_cases hone : value < 0x80
  · rw [if_pos hone, feed_cons, hstart, lead, toNat_ofNat (by omega), if_pos hone, hofNat]
    rfl
  rw [if_neg hone]
  by_cases htwo : value < 0x800
  · have hlead : handle .start (UInt8.ofNat (0xC0 + value / 0x40)) = ([], ⟨value / 0x40, 1, 0x80, 0xBF⟩) := by
      rw [hstart, lead, toNat_ofNat (by omega), if_neg (by omega), if_neg (by omega), if_pos (by omega), Nat.add_sub_cancel_left]
    have hsum : value / 0x40 * 64 + (0x80 + value % 0x40 - 0x80) = value := by omega
    rw [if_pos htwo, feed_cons, hlead, feed_cons, handle_last rfl (by dsimp only; omega) (by dsimp only; omega) (by omega), hsum, hofNat]
    rfl
  rw [if_neg htwo]
  by_cases hthree : value < 0x10000
  · have hlead : handle .start (UInt8.ofNat (0xE0 + value / 0x1000)) =
        ([], ⟨value / 0x1000, 2, if 0xE0 + value / 0x1000 = 0xE0 then 0xA0 else 0x80,
          if 0xE0 + value / 0x1000 = 0xED then 0x9F else 0xBF⟩) := by
      rw [hstart, lead, toNat_ofNat (by omega), if_neg (by omega), if_neg (by omega), if_neg (by omega), if_pos (by omega), Nat.add_sub_cancel_left]
    have hsum : (value / 0x1000 * 64 + (0x80 + value / 0x40 % 0x40 - 0x80)) * 64 + (0x80 + value % 0x40 - 0x80) = value := by
      omega
    rw [if_pos hthree, feed_cons, hlead, feed_cons,
      handle_next (Nat.le_refl 2) (by dsimp only; split <;> omega) (by dsimp only; split <;> omega) (by omega), feed_cons,
      handle_last rfl (by dsimp only; omega) (by dsimp only; omega) (by omega), hsum, hofNat]
    rfl
  rw [if_neg hthree]
  have hlead : handle .start (UInt8.ofNat (0xF0 + value / 0x40000)) =
      ([], ⟨value / 0x40000, 3, if 0xF0 + value / 0x40000 = 0xF0 then 0x90 else 0x80,
        if 0xF0 + value / 0x40000 = 0xF4 then 0x8F else 0xBF⟩) := by
    rw [hstart, lead, toNat_ofNat (by omega), if_neg (by omega), if_neg (by omega), if_neg (by omega), if_neg (by omega), if_pos (by omega),
      Nat.add_sub_cancel_left]
  have hsum : ((value / 0x40000 * 64 + (0x80 + value / 0x1000 % 0x40 - 0x80)) * 64 + (0x80 + value / 0x40 % 0x40 - 0x80)) * 64 +
      (0x80 + value % 0x40 - 0x80) = value := by omega
  rw [feed_cons, hlead, feed_cons,
    handle_next (Nat.le_succ 2) (by dsimp only; split <;> omega) (by dsimp only; split <;> omega) (by omega), feed_cons,
    handle_next (Nat.le_refl 2) (by dsimp only; omega) (by dsimp only; omega) (by omega), feed_cons,
    handle_last rfl (by dsimp only; omega) (by dsimp only; omega) (by omega), hsum, hofNat]
  rfl

theorem feed_encode (text : List Char) : feed .start (encode text) = (text, .start) := by
  induction text with
  | nil => rfl
  | cons c text ih =>
    have hcons : encode (c :: text) = encodeChar c ++ encode text := rfl
    rw [hcons, feed_append, feed_encodeChar]
    dsimp only
    rw [ih]
    rfl

theorem decodeAll_encode (text : List Char) : decodeAll (encode text) = (serialize false text).1 := by
  rw [decodeAll, feed_encode]
  exact congrArg (fun chars => (serialize false chars).1) (List.append_nil text)

theorem encode_append (text others : List Char) : encode (text ++ others) = encode text ++ encode others := List.flatMap_append

end Characters

end Utf8Stream
