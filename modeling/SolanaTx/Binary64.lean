import SolanaTx.Decimal

/-!
# Binary floating-point numbers of 64 bits

A finite number is a significand below `2 ^ 53` times a power of two. Decimal
texts are rounded to the nearest one, half to even, and each number is written
with the fewest digits that read back as itself.
-/

namespace SolanaTx

inductive Binary64 where
  | finite (negative : Bool) (significand : Nat) (exponent : Int)
  | infinite (negative : Bool)
  | nan
  deriving DecidableEq

namespace Binary64

/-- A numerator and a denominator of `n * base ^ e`. -/
def scaled (n base : Nat) (e : Int) : Nat × Nat :=
  if e < 0 then (n, Nat.pow base e.natAbs) else (n * Nat.pow base e.natAbs, 1)

/-- The least significand of full length. -/
def leastFull : Nat :=
  Nat.pow 2 52

/-- The significand and exponent nearest to a positive fraction; `none` beyond the largest number.
The exponent leaves 53 bits for the significand, and is never below that of the least number. -/
def roundFraction? (num den : Nat) : Option (Nat × Int) :=
  let estimate := max ((num.log2 : Int) - den.log2 - 52) (-1074)
  let fits (e : Int) : Bool :=
    let (n, d) := scaled 1 2 (-(e + 52))
    den * d ≤ num * n
  let e := if estimate > -1074 && !fits estimate then estimate - 1 else estimate
  let (n, d) := scaled 1 2 (-e)
  let m := Decimal.divRound (num * n) (den * d)
  let (m, e) := if m = 2 * leastFull then (leastFull, e + 1) else (m, e)
  if e > 971 then none else some (m, e)

/-- The number nearest to `digits * 10 ^ exponent`. Decimal exponents far outside the range of
finite numbers are decided without computing the power. -/
def ofScientific (negative : Bool) (digits : Nat) (exponent : Int) : Binary64 :=
  let magnitude := exponent + (Decimal.numeral digits).length
  if digits = 0 || magnitude < -330 then .finite negative 0 (-1074)
  else if magnitude > 330 then .infinite negative
  else
    let (num, den) := scaled digits 10 exponent
    match roundFraction? num den with
    | some (m, e) => .finite negative m e
    | none => .infinite negative

/-- The fewest digits that read back as the significand and exponent given, with the power of ten
of the last digit. Of two such rows of digits the nearer one is taken, and of two equally near the
even one. -/
def shortest (significand : Nat) (exponent : Int) : Nat × Int :=
  let (num, den) := scaled significand 2 exponent
  let lead : Int := (Decimal.numeral (num * Decimal.scale 400 / den)).length - 401
  let readsBack (ds : Nat) (e : Int) : Bool :=
    ofScientific false ds e == .finite false significand exponent
  let withDigits (count : Nat) : Option (Nat × Int) :=
    let e := lead - (count - 1 : Nat)
    let (n, d) := scaled 1 10 (-e)
    let top := num * n
    let bottom := den * d
    let low := top / bottom
    let near := Decimal.divRound top bottom
    let far := if near = low then low + 1 else low
    let result (ds : Nat) : Nat × Int :=
      if ds = Decimal.scale count then (1, e + count) else (ds, e)
    if readsBack near e then some (result near)
    else if readsBack far e then some (result far)
    else none
  ((List.range 17).findSome? fun i => withDigits (i + 1)).getD (significand, exponent)

/-- Digits with a point after the first `point` of them; zeros fill the places without digits. -/
def positional (ds : List Char) (point : Int) : List Char :=
  if point ≤ 0 then '0' :: '.' :: List.replicate point.natAbs '0' ++ ds
  else if ds.length ≤ point.toNat then
    ds ++ List.replicate (point.toNat - ds.length) '0' ++ ['.', '0']
  else ds.take point.toNat ++ '.' :: ds.drop point.toNat

/-- One digit before the point, and an exponent of two digits at least. -/
def exponential (ds : List Char) (exponent : Int) : List Char :=
  let fraction := if ds.length ≤ 1 then [] else '.' :: ds.drop 1
  let sign := if exponent < 0 then '-' else '+'
  ds.take 1 ++ fraction ++ 'e' :: sign :: Decimal.padZeros 2 (Decimal.numeral exponent.natAbs)

/-- The text of a finite number: positional from `1e-4` to below `1e16`, exponential elsewhere. -/
def finiteText (negative : Bool) (significand : Nat) (exponent : Int) : List Char :=
  let sign := if negative then ['-'] else []
  if significand = 0 then sign ++ ['0', '.', '0']
  else
    let (digits, last) := shortest significand exponent
    let ds := Decimal.numeral digits
    let point := last + ds.length
    sign ++ if -4 < point ∧ point ≤ 16 then positional ds point else exponential ds (point - 1)

def isZero : Binary64 → Bool
  | .finite _ m _ => m == 0
  | _ => false

/-- The whole number next to a finite number in the direction of zero. -/
def truncate? : Binary64 → Option Int
  | .finite negative m e =>
      let (num, den) := scaled m 2 e
      some (if negative then -(num / den : Nat) else (num / den : Nat))
  | _ => none

/-- The least whole number that is not below a finite number. -/
def ceil? : Binary64 → Option Int
  | .finite negative m e =>
      let (num, den) := scaled m 2 e
      some (if negative then -(num / den : Nat) else ((num + den - 1) / den : Nat))
  | _ => none

/-- The whole number that a number is, if it is one. -/
def whole? : Binary64 → Option Int
  | .finite negative m e =>
      let (num, den) := scaled m 2 e
      if num % den ≠ 0 then none
      else some (if negative then -(num / den : Nat) else (num / den : Nat))
  | _ => none

end Binary64

end SolanaTx
