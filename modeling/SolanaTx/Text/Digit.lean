import SolanaTx.Decimal
import SolanaTx.Text.Blank

/-!
# Whole numbers in text

Decimal digits of every script count, one underscore may stand between two
digits, and blanks may stand around the number.
-/

namespace SolanaTx.Text

/-- The code points of the digit zero; nine further digits follow each. -/
def zeroDigits : List Nat := [
  0x30, 0x660, 0x6F0, 0x7C0, 0x966, 0x9E6, 0xA66, 0xAE6, 0xB66, 0xBE6, 0xC66, 0xCE6, 0xD66, 0xDE6,
  0xE50, 0xED0, 0xF20, 0x1040, 0x1090, 0x17E0, 0x1810, 0x1946, 0x19D0, 0x1A80, 0x1A90, 0x1B50,
  0x1BB0, 0x1C40, 0x1C50, 0xA620, 0xA8D0, 0xA900, 0xA9D0, 0xA9F0, 0xAA50, 0xABF0, 0xFF10, 0x104A0,
  0x10D30, 0x11066, 0x110F0, 0x11136, 0x111D0, 0x112F0, 0x11450, 0x114D0, 0x11650, 0x116C0,
  0x11730, 0x118E0, 0x11950, 0x11C50, 0x11D50, 0x11DA0, 0x16A60, 0x16AC0, 0x16B50, 0x1D7CE,
  0x1D7D8, 0x1D7E2, 0x1D7EC, 0x1D7F6, 0x1E140, 0x1E2F0, 0x1E950, 0x1FBF0]

/-- The value of a decimal digit of any script. -/
def digit? (c : CodePoint) : Option Nat :=
  zeroDigits.findSome? fun first =>
    if first ≤ c.toNat && c.toNat < first + 10 then some (c.toNat - first) else none

/-- The number that a row of digits writes; no number is written by no digit. -/
def digits? (cs : Text) : Option Nat :=
  if cs.isEmpty then none
  else (cs.mapM digit?).map fun ds => ds.foldl (fun n d => 10 * n + d) 0

/-- Takes out the underscores, each of which stands between two other characters. -/
def joinGroups : Text → Option Text
  | [] => some []
  | .char '_' :: _ => none
  | c :: .char '_' :: d :: rest => (joinGroups (d :: rest)).map (c :: ·)
  | c :: rest => (joinGroups rest).map (c :: ·)

/-- The blanks that may surround a number: all but the four separators. -/
def isNumberPadding (c : CodePoint) : Bool :=
  isBlank c && !(0x1C ≤ c.toNat && c.toNat ≤ 0x1F)

/-- The whole number that a text writes. -/
def toInt? (t : Text) : Option Int :=
  let padded := t.dropWhile isNumberPadding
  let body := (padded.reverse.dropWhile isNumberPadding).reverse
  let unsigned (cs : Text) : Option Nat := do
    let ds ← joinGroups cs
    if ds.length ≤ Decimal.maxDigits then digits? ds else none
  match body with
  | .char '-' :: cs => (unsigned cs).map fun n => -(n : Int)
  | .char '+' :: cs => (unsigned cs).map fun n => (n : Int)
  | cs => (unsigned cs).map fun n => (n : Int)

end SolanaTx.Text
