import Rika.WideText

namespace Rika.Composer

open WideText (Units)

inductive ComposerAttachment
  | text (token value label : Units)
  | image (token path label : Units)

structure ComposerDraft where
  input : Units
  attachments : List ComposerAttachment

structure SubmittedDraft where
  draft : ComposerDraft
  cursor : Nat
  submissionId : Option String
  turnId : Option String

/-- White space, as `trim` and the whitespace class of expressions have it. -/
def isSpace (u : UInt16) : Bool :=
  let n := u.toNat
  (9 ≤ n && n ≤ 13) || n = 0x20 || n = 0xA0 || n = 0x1680 || (0x2000 ≤ n && n ≤ 0x200A) || n = 0x2028 || n = 0x2029 ||
    n = 0x202F || n = 0x205F || n = 0x3000 || n = 0xFEFF

def trim (value : Units) : Units := ((value.dropWhile isSpace).reverse.dropWhile isSpace).reverse

def lower (u : UInt16) : UInt16 := if 65 ≤ u.toNat && u.toNat ≤ 90 then u + 32 else u

end Rika.Composer
