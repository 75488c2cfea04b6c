import Mathlib.Data.List.Infix
import Mathlib.Data.List.TakeWhile
import Mathlib.Data.Nat.Log
import Mathlib.Tactic.Ring

namespace Binary64

/-- The size of a finite number, `mantissa * 2 ^ shift` of the least steps. -/
structure Magnitude where
  mantissa : Nat
  shift : Nat
  mantissa_lt : mantissa < 2 ^ 53
  shift_le : shift ≤ 2045
  normal : 2 ^ 52 ≤ mantissa ∨ shift = 0
deriving DecidableEq

inductive Number
  | nan
  | infinity (negative : Bool)
  | finite (negative : Bool) (magnitude : Magnitude)
deriving DecidableEq

def scale : Nat := 1074

def Magnitude.steps (x : Magnitude) : Nat := x.mantissa * 2 ^ x.shift

def Magnitude.zero : Magnitude := ⟨0, 0, Nat.two_pow_pos _, Nat.zero_le _, .inr rfl⟩

def magnitude? (mantissa shift : Nat) : Option Magnitude :=
  if h : mantissa < 2 ^ 53 ∧ shift ≤ 2045 ∧ (2 ^ 52 ≤ mantissa ∨ shift = 0) then some ⟨mantissa, shift, h.1, h.2.1, h.2.2⟩ else none

def roundHalfEven (num den : Nat) : Nat :=
  let quotient := num / den
  let remainder := num % den
  if 2 * remainder < den then quotient
  else if 2 * remainder = den then quotient + quotient % 2
  else quotient + 1

def nearest (num den : Nat) : Option Magnitude :=
  let shift := Nat.log2 (num * 2 ^ scale / den) - 52
  let mantissa := roundHalfEven (num * 2 ^ scale) (den * 2 ^ shift)
  if mantissa < 2 ^ 53 then magnitude? mantissa shift else magnitude? (2 ^ 52) (shift + 1)

variable {num den : Nat}

theorem roundHalfEven_of_eq {quotient : Nat} (hden : 0 < den) (h : num = den * quotient) :
    roundHalfEven num den = quotient := by
  have hquotient : num / den = quotient := by rw [h, Nat.mul_div_cancel_left _ hden]
  have hremainder : num % den = 0 := by rw [h, Nat.mul_mod_right]
  rw [roundHalfEven, hquotient, hremainder, Nat.mul_zero, if_pos hden]

theorem Magnitude.shift_eq (x : Magnitude) : Nat.log2 x.steps - 52 = x.shift := by
  rcases x.normal with hnormal | hzero
  · have hne : x.steps ≠ 0 := Nat.mul_ne_zero (by have := Nat.two_pow_pos 52; omega) (Nat.two_pow_pos _).ne'
    have hlow : 2 ^ (52 + x.shift) ≤ x.steps := by
      rw [Nat.pow_add]
      exact Nat.mul_le_mul_right _ hnormal
    have hhigh : x.steps < 2 ^ (53 + x.shift) := by
      rw [Nat.pow_add]
      exact Nat.mul_lt_mul_of_pos_right x.mantissa_lt (Nat.two_pow_pos _)
    have hlog : Nat.log2 x.steps < 53 + x.shift := (Nat.log2_lt hne).mpr hhigh
    have hlog' : 52 + x.shift ≤ Nat.log2 x.steps := (Nat.le_log2 hne).mpr hlow
    omega
  · have hsteps : x.steps = x.mantissa := by rw [steps, hzero, Nat.pow_zero, Nat.mul_one]
    have hlt : Nat.log2 x.mantissa < 53 := by
      by_cases hm : x.mantissa = 0
      · rw [hm]
        decide
      · exact (Nat.log2_lt hm).mpr x.mantissa_lt
    rw [hsteps, hzero]
    omega

theorem nearest_of_eq {x : Magnitude} (hden : 0 < den) (h : num * 2 ^ scale = den * x.steps) : nearest num den = some x := by
  have hsteps : num * 2 ^ scale / den = x.steps := by rw [h, Nat.mul_div_cancel_left _ hden]
  have hmantissa : roundHalfEven (num * 2 ^ scale) (den * 2 ^ x.shift) = x.mantissa := by
    apply roundHalfEven_of_eq (Nat.mul_pos hden (Nat.two_pow_pos _))
    rw [h, Magnitude.steps]
    ring
  rw [nearest, hsteps, x.shift_eq, hmantissa, if_pos x.mantissa_lt, magnitude?, dif_pos ⟨x.mantissa_lt, x.shift_le, x.normal⟩]

/-- The number `digits * 10 ^ exponent`. -/
structure Decimal where
  digits : Nat
  exponent : Int
deriving DecidableEq

def Decimal.nearest (d : Decimal) : Option Magnitude :=
  Binary64.nearest (d.digits * 10 ^ d.exponent.toNat) (10 ^ (-d.exponent).toNat)

def Magnitude.exact (x : Magnitude) : Decimal := ⟨x.steps * 5 ^ scale, -scale⟩

theorem Magnitude.exact_nearest (x : Magnitude) : x.exact.nearest = some x := by
  have hzero : (-(scale : Int)).toNat = 0 := by omega
  have hscale : (-(-(scale : Int))).toNat = scale := by omega
  rw [Decimal.nearest, exact, hzero, hscale, Nat.pow_zero, Nat.mul_one]
  apply nearest_of_eq (Nat.pow_pos (by omega))
  have hten : (10 : Nat) ^ scale = 2 ^ scale * 5 ^ scale := by rw [← Nat.mul_pow]
  rw [hten]
  ring

/-- The two numbers next to `digits` with its last `dropped` digits left out, the nearer first, and half way the even one. -/
def rounded (digits dropped : Nat) : List Nat :=
  let below := digits / 10 ^ dropped
  let rest := digits % 10 ^ dropped
  if 2 * rest < 10 ^ dropped ∨ 2 * rest = 10 ^ dropped ∧ below % 2 = 0 then [below, below + 1] else [below + 1, below]

/-- A decimal of `k` digits, where rounding up may have made one more. -/
def Decimal.carried (k : Nat) (d : Decimal) : Decimal := if d.digits = 10 ^ k then ⟨10 ^ (k - 1), d.exponent + 1⟩ else d

/-- The decimals of `k` digits next to another. -/
def Decimal.shortened (d : Decimal) (k : Nat) : List Decimal :=
  let dropped := (Nat.toDigits 10 d.digits).length - k
  (rounded d.digits dropped).map fun digits => (Decimal.mk digits (d.exponent + dropped)).carried k

/-- The least digits that read as the number, and of these the ones next to it. -/
def Magnitude.shortest (x : Magnitude) : Decimal :=
  ((List.range (Nat.toDigits 10 x.exact.digits).length).findSome? fun i =>
    (x.exact.shortened (i + 1)).find? fun d => d.nearest = some x).getD x.exact

theorem Magnitude.shortest_nearest (x : Magnitude) : x.shortest.nearest = some x := by
  rw [shortest]
  cases hfound : (List.range (Nat.toDigits 10 x.exact.digits).length).findSome? fun i =>
      (x.exact.shortened (i + 1)).find? fun d => d.nearest = some x with
  | none => exact x.exact_nearest
  | some d =>
    obtain ⟨i, -, hi⟩ := List.exists_of_findSome?_eq_some hfound
    simpa using List.find?_some hi

def Decimal.text (d : Decimal) : List Char :=
  let digits := Nat.toDigits 10 d.digits
  let n : Int := digits.length + d.exponent
  if -5 ≤ n ∧ n ≤ 21 then
    if 0 ≤ d.exponent then digits ++ List.replicate d.exponent.toNat '0'
    else if 0 < n then digits.take n.toNat ++ '.' :: digits.drop n.toNat
    else '0' :: '.' :: (List.replicate (-n).toNat '0' ++ digits)
  else
    let power := 'e' :: (if n < 0 then '-' else '+') :: Nat.toDigits 10 (n - 1).natAbs
    if digits.length = 1 then digits ++ power else digits.take 1 ++ '.' :: (digits.drop 1 ++ power)

def Number.text : Number → List Char
  | nan => "NaN".toList
  | infinity negative => (if negative then ['-'] else []) ++ "Infinity".toList
  | finite negative x => if x.mantissa = 0 then ['0'] else (if negative then ['-'] else []) ++ x.shortest.text

section Reading

def readDigits (digits : List Char) : Nat := Nat.ofDigitChars 10 digits 0

section

variable (text : List Char)

def readFixed : Decimal :=
  let part := (text.dropWhile (· ≠ '.')).tail
  ⟨readDigits (text.takeWhile (· ≠ '.') ++ part), -part.length⟩

def readPower : List Char → Int
  | [] => 0
  | sign :: digits => if sign = '-' then -readDigits digits else readDigits digits

def read : Decimal :=
  let fixed := readFixed (text.takeWhile (· ≠ 'e'))
  ⟨fixed.digits, fixed.exponent + readPower (text.dropWhile (· ≠ 'e')).tail⟩

def ofText : Option Number :=
  if text = "NaN".toList then some .nan
  else if text = "Infinity".toList then some (.infinity false)
  else if text = "-Infinity".toList then some (.infinity true)
  else if text.head? = some '-' then (read text.tail).nearest.map (.finite true)
  else (read text).nearest.map (.finite false)

def Digits : Prop := ∀ c ∈ text, c.isDigit = true

end

theorem digits_toDigits (n : Nat) : Digits (Nat.toDigits 10 n) := fun _ h => Nat.isDigit_of_mem_toDigits (by omega) (by omega) h

variable {text whole part power digits : List Char} {c : Char}

theorem Digits.ne (h : Digits text) (hc : c.isDigit = false) : ∀ d ∈ text, decide (d ≠ c) = true := by
  intro d hd
  rw [decide_eq_true_eq]
  intro heq
  subst heq
  rw [h d hd] at hc
  cases hc

theorem Digits.append {other : List Char} (h : Digits text) (hother : Digits other) : Digits (text ++ other) :=
  List.forall_mem_append.mpr ⟨h, hother⟩

theorem Digits.replicate (n : Nat) : Digits (List.replicate n '0') := by
  intro c hc
  rw [List.eq_of_mem_replicate hc]
  rfl

theorem Digits.take {text : List Char} (h : Digits text) (n : Nat) : Digits (text.take n) := fun c hc => h c (List.mem_of_mem_take hc)

theorem Digits.drop (h : Digits text) (n : Nat) : Digits (text.drop n) := fun c hc => h c (List.mem_of_mem_drop hc)

theorem readDigits_toDigits (n : Nat) : readDigits (Nat.toDigits 10 n) = n := Nat.ofDigitChars_ten_toDigits

section

variable (h : ∀ d ∈ text, decide (d ≠ c) = true)

include h

theorem takeWhile_ne_append (rest : List Char) : (text ++ c :: rest).takeWhile (· ≠ c) = text := by
  rw [List.takeWhile_append_of_pos h, List.takeWhile_cons_of_neg (by simp), List.append_nil]

theorem dropWhile_ne_append (rest : List Char) :
    ((text ++ c :: rest).dropWhile (· ≠ c)).tail = rest := by
  rw [List.dropWhile_append_of_pos h, List.dropWhile_cons_of_neg (by simp), List.tail_cons]

theorem takeWhile_ne_self : text.takeWhile (· ≠ c) = text :=
  List.takeWhile_eq_self_iff.mpr h

theorem dropWhile_ne_self : text.dropWhile (· ≠ c) = [] :=
  List.dropWhile_eq_nil_iff.mpr h

end

theorem readFixed_whole (h : Digits text) : readFixed text = ⟨readDigits text, 0⟩ := by
  have hpoint := h.ne (c := '.') rfl
  rw [readFixed, takeWhile_ne_self hpoint, dropWhile_ne_self hpoint]
  simp

theorem readFixed_point (h : Digits whole) : readFixed (whole ++ '.' :: part) = ⟨readDigits (whole ++ part), -part.length⟩ := by
  have hpoint := h.ne (c := '.') rfl
  rw [readFixed, takeWhile_ne_append hpoint, dropWhile_ne_append hpoint]

theorem read_fixed (h : ∀ d ∈ text, decide (d ≠ 'e') = true) : read text = readFixed text := by
  rw [read, takeWhile_ne_self h, dropWhile_ne_self h]
  simp [readPower]

theorem readPower_sign (exponent : Int) :
    readPower ((if exponent < 0 then '-' else '+') :: Nat.toDigits 10 exponent.natAbs) = exponent := by
  rw [readPower, readDigits_toDigits]
  by_cases hneg : exponent < 0
  · rw [if_pos hneg, if_pos rfl]
    omega
  · rw [if_neg hneg, if_neg (by decide)]
    omega

theorem read_power (h : ∀ d ∈ text, decide (d ≠ 'e') = true) :
    read (text ++ 'e' :: power) = ⟨(readFixed text).digits, (readFixed text).exponent + readPower power⟩ := by
  rw [read, takeWhile_ne_append h, dropWhile_ne_append h]

theorem Digits.point (h : Digits whole) (hpart : Digits part) : ∀ c ∈ whole ++ '.' :: part, decide (c ≠ 'e') = true := by
  intro c hc
  rcases List.mem_append.mp hc with hc | hc
  · exact h.ne rfl c hc
  · rcases List.mem_cons.mp hc with rfl | hc
    · rfl
    · exact hpart.ne rfl c hc

section

variable (h : Digits digits)

include h

theorem read_whole (zeros : Nat) :
    read (digits ++ List.replicate zeros '0') = ⟨readDigits digits * 10 ^ zeros, 0⟩ := by
  have hall := h.append (.replicate zeros)
  rw [read_fixed (hall.ne rfl), readFixed_whole hall, readDigits, Nat.ofDigitChars_append, Nat.ofDigitChars_replicate_zero, Nat.mul_comm]
  rfl

theorem readFixed_split (n : Nat) :
    readFixed (digits.take n ++ '.' :: digits.drop n) = ⟨readDigits digits, -((digits.length - n : Nat) : Int)⟩ := by
  rw [readFixed_point (h.take n), List.take_append_drop, List.length_drop]

theorem read_split (n : Nat) :
    read (digits.take n ++ '.' :: digits.drop n) = ⟨readDigits digits, -((digits.length - n : Nat) : Int)⟩ := by
  rw [read_fixed ((h.take n).point (h.drop n)), readFixed_split h]

theorem read_part (zeros : Nat) :
    read ('0' :: '.' :: (List.replicate zeros '0' ++ digits)) = ⟨readDigits digits, -((zeros + digits.length : Nat) : Int)⟩ := by
  have hzero : Digits ['0'] := .replicate 1
  have hpart := (Digits.replicate zeros).append h
  have hread : read (['0'] ++ '.' :: (List.replicate zeros '0' ++ digits)) = _ :=
    (read_fixed (hzero.point hpart)).trans (readFixed_point hzero)
  have hvalue : readDigits (['0'] ++ (List.replicate zeros '0' ++ digits)) = readDigits digits := by
    rw [readDigits, ← List.append_assoc, Nat.ofDigitChars_append, Nat.ofDigitChars_append, Nat.ofDigitChars_replicate_zero]
    simp [readDigits, Nat.ofDigitChars_cons]
  rw [hvalue, List.length_append, List.length_replicate] at hread
  exact hread

theorem read_scientific :
    read (if digits.length = 1 then digits ++ 'e' :: power else digits.take 1 ++ '.' :: (digits.drop 1 ++ 'e' :: power)) =
      ⟨readDigits digits, -((digits.length - 1 : Nat) : Int) + readPower power⟩ := by
  by_cases hone : digits.length = 1
  · rw [if_pos hone, read_power (h.ne rfl), readFixed_whole h, hone]
    rfl
  · have happend : digits.take 1 ++ '.' :: (digits.drop 1 ++ 'e' :: power) = (digits.take 1 ++ '.' :: digits.drop 1) ++ 'e' :: power := by
      rw [List.append_assoc, List.cons_append]
    rw [if_neg hone, happend, read_power ((h.take 1).point (h.drop 1)), readFixed_split h]

end

theorem Decimal.read_text (d : Decimal) : (read d.text).nearest = d.nearest := by
  have hdigits : Digits (Nat.toDigits 10 d.digits) := digits_toDigits d.digits
  have hread : readDigits (Nat.toDigits 10 d.digits) = d.digits := readDigits_toDigits d.digits
  have hpos : 0 < (Nat.toDigits 10 d.digits).length := List.length_pos_iff.mpr Nat.toDigits_ne_nil
  rw [text]
  generalize Nat.toDigits 10 d.digits = digits at hdigits hread hpos
  generalize hplace : (digits.length : Int) + d.exponent = n
  have hexact : ∀ exponent : Int, exponent = d.exponent → (Decimal.mk (readDigits digits) exponent).nearest = d.nearest := by
    intro exponent hexponent
    rw [hread, hexponent]
  by_cases hplain : -5 ≤ n ∧ n ≤ 21
  · rw [if_pos hplain]
    by_cases hwhole : 0 ≤ d.exponent
    · have hneg : (-d.exponent).toNat = 0 := by omega
      rw [if_pos hwhole, read_whole hdigits, hread]
      simp [Decimal.nearest, hneg]
    · rw [if_neg hwhole]
      by_cases hpoint : 0 < n
      · rw [if_pos hpoint, read_split hdigits]
        exact hexact _ (by omega)
      · rw [if_neg hpoint, read_part hdigits]
        exact hexact _ (by omega)
  · rw [if_neg hplain, read_scientific hdigits]
    have hsign : (n < 0) = (n - 1 < 0) := by
      rw [eq_iff_iff]
      omega
    simp only [hsign]
    rw [readPower_sign]
    exact hexact _ (by omega)

def plainChar (c : Char) : Bool := c.isDigit || c == '.' || c == 'e' || c == '+' || c == '-'

theorem Digits.plain (h : Digits text) : ∀ c ∈ text, plainChar c = true := by
  intro c hc
  simp [plainChar, h c hc]

theorem Decimal.text_plain (d : Decimal) : ∀ c ∈ d.text, plainChar c = true := by
  have hdigits : Digits (Nat.toDigits 10 d.digits) := digits_toDigits d.digits
  have hpower (n : Int) : ∀ c ∈ 'e' :: (if n < 0 then '-' else '+') :: Nat.toDigits 10 (n - 1).natAbs, plainChar c = true := by
    have hsign : plainChar (if n < 0 then '-' else '+') = true := by split <;> rfl
    exact List.forall_mem_cons.mpr ⟨rfl, List.forall_mem_cons.mpr ⟨hsign, (digits_toDigits _).plain⟩⟩
  have hzero : ∀ c ∈ ['0'], plainChar c = true := (Digits.replicate 1).plain
  have hpoint {whole part : List Char} (hwhole : ∀ c ∈ whole, plainChar c = true) (hpart : ∀ c ∈ part, plainChar c = true) :
      ∀ c ∈ whole ++ '.' :: part, plainChar c = true :=
    List.forall_mem_append.mpr ⟨hwhole, List.forall_mem_cons.mpr ⟨rfl, hpart⟩⟩
  rw [text]
  generalize Nat.toDigits 10 d.digits = digits at hdigits
  dsimp only
  split
  · split
    · exact (hdigits.append (.replicate _)).plain
    · split
      · exact hpoint (hdigits.take _).plain (hdigits.drop _).plain
      · exact hpoint hzero ((Digits.replicate _).append hdigits).plain
  · split
    · exact List.forall_mem_append.mpr ⟨hdigits.plain, hpower _⟩
    · exact hpoint (hdigits.take _).plain (List.forall_mem_append.mpr ⟨(hdigits.drop _).plain, hpower _⟩)

theorem Decimal.text_head (d : Decimal) : ∃ c, d.text.head? = some c ∧ c.isDigit = true := by
  have hdigits : Digits (Nat.toDigits 10 d.digits) := digits_toDigits d.digits
  have hne : Nat.toDigits 10 d.digits ≠ [] := Nat.toDigits_ne_nil
  rw [text]
  generalize Nat.toDigits 10 d.digits = digits at hdigits hne
  cases digits with
  | nil => exact absurd rfl hne
  | cons c digits =>
    have hc : c.isDigit = true := hdigits c List.mem_cons_self
    dsimp only
    split
    · split
      · exact ⟨c, rfl, hc⟩
      · split
        · next hpoint =>
            obtain ⟨n, hn⟩ := Int.eq_succ_of_zero_lt hpoint
            refine ⟨c, ?_, hc⟩
            rw [hn]
            rfl
        · exact ⟨'0', rfl, rfl⟩
    · split
      · exact ⟨c, rfl, hc⟩
      · exact ⟨c, rfl, hc⟩

theorem nearest_zero : (read ['0']).nearest = some .zero := by
  have hread : read ['0'] = ⟨0, 0⟩ := by decide
  rw [hread]
  exact nearest_of_eq (Nat.pow_pos (by omega)) (by simp [Magnitude.steps, Magnitude.zero])

theorem Magnitude.eq_zero {x : Magnitude} (h : x.mantissa = 0) : x = .zero := by
  obtain ⟨mantissa, shift, _, _, hnormal⟩ := x
  obtain rfl : mantissa = 0 := h
  obtain rfl : shift = 0 := by
    rcases hnormal with hnormal | hzero
    · omega
    · exact hzero
  rfl

theorem ofText_digit (h : text.head? = some c) (hc : c.isDigit = true) :
    ofText text = (read text).nearest.map (.finite false) := by
  have hne (other : Char) (hother : other.isDigit = false) : text.head? ≠ some other := by
    rw [h]
    intro heq
    rw [Option.some.injEq] at heq
    rw [heq, hother] at hc
    cases hc
  have hnan : text ≠ "NaN".toList := fun heq => hne 'N' rfl (by rw [heq]; rfl)
  have hinfinity : text ≠ "Infinity".toList := fun heq => hne 'I' rfl (by rw [heq]; rfl)
  have hnegative : text ≠ "-Infinity".toList := fun heq => hne '-' rfl (by rw [heq]; rfl)
  rw [ofText, if_neg hnan, if_neg hinfinity, if_neg hnegative, if_neg (hne '-' rfl)]

theorem ofText_minus (h : text.head? = some c) (hc : c.isDigit = true) :
    ofText ('-' :: text) = (read text).nearest.map (.finite true) := by
  have hnan : '-' :: text ≠ "NaN".toList := fun heq => absurd (List.cons.inj heq).1 (by decide)
  have hinfinity : '-' :: text ≠ "Infinity".toList := fun heq => absurd (List.cons.inj heq).1 (by decide)
  have hnegative : '-' :: text ≠ "-Infinity".toList := by
    intro heq
    have htail : text = "Infinity".toList := (List.cons.inj heq).2
    rw [htail] at h
    obtain rfl : 'I' = c := Option.some.inj h
    cases hc
  rw [ofText, if_neg hnan, if_neg hinfinity, if_neg hnegative, if_pos List.head?_cons, List.tail_cons]

theorem ofText_text {value : Number} (h : value ≠ .finite true .zero) : ofText value.text = some value := by
  cases value with
  | nan => rw [Number.text, ofText, if_pos rfl]
  | infinity negative =>
    have hnan : "Infinity".toList ≠ "NaN".toList := by decide
    have hnan' : "-Infinity".toList ≠ "NaN".toList := by decide
    have hplain : "-Infinity".toList ≠ "Infinity".toList := by decide
    cases negative with
    | false =>
      have htext : (Number.infinity false).text = "Infinity".toList := rfl
      rw [htext, ofText, if_neg hnan, if_pos rfl]
    | true =>
      have htext : (Number.infinity true).text = "-Infinity".toList := rfl
      rw [htext, ofText, if_neg hnan', if_neg hplain, if_pos rfl]
  | finite negative x =>
    rw [Number.text]
    by_cases hzero : x.mantissa = 0
    · obtain rfl := Magnitude.eq_zero hzero
      have hdigit : ofText ['0'] = (read ['0']).nearest.map (.finite false) := ofText_digit rfl rfl
      rw [if_pos hzero, hdigit, nearest_zero]
      cases negative with
      | false => rfl
      | true => exact absurd rfl h
    · obtain ⟨c, hhead, hc⟩ := x.shortest.text_head
      have hnearest : (read x.shortest.text).nearest = some x := x.shortest.read_text.trans x.shortest_nearest
      rw [if_neg hzero]
      cases negative with
      | false =>
        rw [if_neg Bool.false_ne_true, List.nil_append, ofText_digit hhead hc, hnearest]
        rfl
      | true =>
        rw [if_pos rfl, List.singleton_append, ofText_minus hhead hc, hnearest]
        rfl

theorem ofText_minus_zero : ofText "-0".toList = some (.finite true .zero) := by
  have hminus : ofText ['-', '0'] = (read ['0']).nearest.map (.finite true) := ofText_minus rfl rfl
  rw [nearest_zero] at hminus
  exact hminus

theorem Number.text_plain (value : Number) : ':' ∉ value.text := by
  intro h
  cases value with
  | nan => revert h; decide
  | infinity negative => cases negative <;> revert h <;> decide
  | finite negative x =>
    have hminus : ':' ∉ (if negative then ['-'] else []) := by cases negative <;> decide
    rw [Number.text] at h
    split at h
    · revert h
      decide
    · rcases List.mem_append.mp h with h | h
      · exact hminus h
      · exact absurd (x.shortest.text_plain ':' h) (by decide)

end Reading

end Binary64
