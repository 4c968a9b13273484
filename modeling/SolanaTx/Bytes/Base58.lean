import SolanaTx.Bytes.Slice
import SolanaTx.Text.Basic

/-!
# Base 58 text of bytes

The bytes are one number, most significant byte first, written in 58 digits; each
zero byte in front is written as the digit of zero.
-/

namespace SolanaTx.Bytes

/-- The digits in rising order of value; zero, capital O, capital I and small l are none. -/
def base58Alphabet : List Char :=
  "123456789ABCDEFGHJKLMNPQRSTUVWXYZabcdefghijkmnopqrstuvwxyz".toList

/-- Puts up to `count` digits of a number in a base in front of others. -/
def pushDigits (base : Nat) : Nat → Nat → List Nat → List Nat
  | 0, _, ds => ds
  | count + 1, n, ds => if n = 0 then ds else pushDigits base count (n / base) (n % base :: ds)

/-- The digits of a number in a base of two or more, most significant first; zero has none. -/
def digitsIn (base n : Nat) : List Nat :=
  pushDigits base (n.log2 + 1) n []

/-- The number that digits write in a base, most significant first. -/
def ofDigitsIn (base : Nat) (ds : List Nat) : Nat :=
  ds.foldl (fun n d => base * n + d) 0

def base58Digit (n : Nat) : Char :=
  base58Alphabet.getD n '1'

def base58Value? (c : Char) : Option Nat :=
  base58Alphabet.findIdx? (· == c)

def toBase58 (data : Bytes) : Text :=
  let zeros := data.takeWhile (· == 0)
  let n := ofDigitsIn 256 (data.map UInt8.toNat)
  Text.ofChars (zeros.map (fun _ => '1') ++ (digitsIn 58 n).map base58Digit)

/-- The bytes that base 58 digits write; nothing but digits may stand in the text. -/
def ofBase58? (t : Text) : Option Bytes :=
  ((t.chars?).bind (·.mapM base58Value?)).map fun ds =>
    let zeros := ds.takeWhile (· == 0)
    zeros.map (fun _ => 0) ++ (digitsIn 256 (ofDigitsIn 58 ds)).map UInt8.ofNat

end SolanaTx.Bytes
