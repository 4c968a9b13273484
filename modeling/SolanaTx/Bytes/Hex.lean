import SolanaTx.Bytes.Slice
import SolanaTx.Text.Basic

/-!
# Hexadecimal text of bytes

Two small digits a byte, without separators. Reading takes capital digits too.
-/

namespace SolanaTx.Bytes

def hexDigit (n : Nat) : Char :=
  if n < 10 then Char.ofNat ('0'.toNat + n) else Char.ofNat ('a'.toNat + (n - 10))

def hexDigits : Bytes → List Char
  | [] => []
  | b :: rest => hexDigit (b.toNat / 16) :: hexDigit (b.toNat % 16) :: hexDigits rest

def toHex (data : Bytes) : Text :=
  Text.ofChars (hexDigits data)

def hexValue? (c : Char) : Option Nat :=
  if '0' ≤ c ∧ c ≤ '9' then some (c.toNat - '0'.toNat)
  else if 'a' ≤ c ∧ c ≤ 'f' then some (c.toNat - 'a'.toNat + 10)
  else if 'A' ≤ c ∧ c ≤ 'F' then some (c.toNat - 'A'.toNat + 10)
  else none

def ofHexDigits? : List Char → Option Bytes
  | [] => some []
  | [_] => none
  | a :: b :: rest =>
      match hexValue? a, hexValue? b, ofHexDigits? rest with
      | some high, some low, some data => some (UInt8.ofNat (16 * high + low) :: data)
      | _, _, _ => none

def ofHex? (t : Text) : Option Bytes :=
  t.chars?.bind ofHexDigits?

theorem hexValue?_hexDigit : ∀ n < 16, hexValue? (hexDigit n) = some n := by
  decide

/-- Hexadecimal text loses nothing. -/
theorem ofHexDigits?_hexDigits (data : Bytes) : ofHexDigits? (hexDigits data) = some data := by
  induction data with
  | nil => rfl
  | cons b rest ih =>
    have hb := b.toNat_lt
    simp only [hexDigits, ofHexDigits?, hexValue?_hexDigit (b.toNat / 16) (by omega),
      hexValue?_hexDigit (b.toNat % 16) (by omega), ih]
    rw [show 16 * (b.toNat / 16) + b.toNat % 16 = b.toNat by omega, UInt8.ofNat_toNat]

end SolanaTx.Bytes
