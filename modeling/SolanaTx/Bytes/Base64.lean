import SolanaTx.Bytes.Slice
import SolanaTx.Text.Basic

/-!
# Base 64 text of bytes

Four digits write three bytes, and equals signs fill up the last four. Lenient
reading passes over all other characters and stops where padding completes a
group; strict reading takes digits and their padding only.
-/

namespace SolanaTx.Bytes

def base64Alphabet : List Char :=
  "ABCDEFGHIJKLMNOPQRSTUVWXYZabcdefghijklmnopqrstuvwxyz0123456789+/".toList

def base64Value? (c : Char) : Option Nat :=
  base64Alphabet.findIdx? (· == c)

def base64Digit (n : Nat) : Char :=
  base64Alphabet.getD n 'A'

def base64Digits : Bytes → List Char
  | [] => []
  | [a] => [base64Digit (a.toNat / 4), base64Digit (a.toNat % 4 * 16), '=', '=']
  | [a, b] => [base64Digit (a.toNat / 4), base64Digit (a.toNat % 4 * 16 + b.toNat / 16),
      base64Digit (b.toNat % 16 * 4), '=']
  | a :: b :: c :: rest =>
      base64Digit (a.toNat / 4) :: base64Digit (a.toNat % 4 * 16 + b.toNat / 16) ::
        base64Digit (b.toNat % 16 * 4 + c.toNat / 64) :: base64Digit (c.toNat % 64) ::
        base64Digits rest

def toBase64 (data : Bytes) : Text :=
  Text.ofChars (base64Digits data)

/-- How far reading has come: the digits of the open group, the padding seen since the last digit,
whether any padding was seen, and the bytes read, last first. -/
structure Base64State where
  group : List Nat
  pads : Nat
  padded : Bool
  read : Bytes

/-- The state after one more digit, which may complete a byte. -/
def Base64State.push (s : Base64State) (d : Nat) : Base64State :=
  match s.group with
  | [] => { s with group := [d], pads := 0 }
  | [a] => { s with group := [a, d], pads := 0, read := UInt8.ofNat (a * 4 + d / 16) :: s.read }
  | [a, b] =>
      { s with group := [a, b, d], pads := 0, read := UInt8.ofNat (b % 16 * 16 + d / 4) :: s.read }
  | _ :: _ :: c :: _ =>
      { s with group := [], pads := 0, read := UInt8.ofNat (c % 4 * 64 + d) :: s.read }

/-- Reads the characters that are left. -/
def readBase64? (strict : Bool) (s : Base64State) : List Char → Option Bytes
  | [] => if s.group.isEmpty then some s.read.reverse else none
  | '=' :: rest =>
      if 2 ≤ s.group.length && 4 ≤ s.group.length + s.pads + 1 then
        if strict && !rest.isEmpty then none else some s.read.reverse
      else
        let pads := if 2 ≤ s.group.length then s.pads + 1 else s.pads
        readBase64? strict { s with pads := pads, padded := true } rest
  | c :: rest =>
      match base64Value? c with
      | some d => if strict && s.padded then none else readBase64? strict (s.push d) rest
      | none => if strict then none else readBase64? strict s rest

/-- The bytes that a base 64 text writes. -/
def ofBase64? (strict : Bool) (t : Text) : Option Bytes :=
  match t.chars? with
  | none => none
  | some cs =>
      if cs.any (fun c => 0x7F < c.toNat) then none
      else if strict && cs.head? == some '=' then none
      else readBase64? strict ⟨[], 0, false, []⟩ cs

end SolanaTx.Bytes
