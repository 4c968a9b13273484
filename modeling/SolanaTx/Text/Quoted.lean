import SolanaTx.Decimal
import SolanaTx.Text.Unprintable

/-!
# Quoted text

Single quotes enclose a text, double quotes one that holds a single quote and no
double one. Characters that do not print are written by their code.
-/

namespace SolanaTx.Text

/-- A number in at least `width` small hexadecimal digits. -/
def hexCode (width n : Nat) : Text :=
  ofChars (Decimal.padZeros width (Nat.toDigits 16 n))

/-- One code point inside quotes. -/
def escape (quote : Char) (c : CodePoint) : Text :=
  if c = quote ∨ c = '\\' then ['\\', c]
  else if c = '\t' then "\\t"
  else if c = '\n' then "\\n"
  else if c = '\r' then "\\r"
  else if isPrintable c then [c]
  else if c.toNat ≤ 0xFF then "\\x" ++ hexCode 2 c.toNat
  else if c.toNat ≤ 0xFFFF then "\\u" ++ hexCode 4 c.toNat
  else "\\U" ++ hexCode 8 c.toNat

def quoteMark (t : Text) : Char :=
  if t.contains '\'' && !t.contains '"' then '"' else '\''

def quoted (t : Text) : Text :=
  let mark := quoteMark t
  let ends : Text := [mark]
  ends ++ t.flatMap (escape mark) ++ ends

end SolanaTx.Text
