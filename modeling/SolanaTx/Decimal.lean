import SolanaTx.Text.Basic

/-!
# Decimal notation

Numerals, thousands groups, a fixed number of places, and division rounded to the
nearest whole number with a half going to the even one.
-/

namespace SolanaTx.Decimal

def numeral (n : Nat) : List Char :=
  Nat.toDigits 10 n

/-- A sign in front of the numeral of a number below zero. -/
def sign (n : Int) : List Char :=
  if n < 0 then ['-'] else []

def ofNat (n : Nat) : Text :=
  Text.ofChars (numeral n)

def ofInt (n : Int) : Text :=
  Text.ofChars (sign n ++ numeral n.natAbs)

/-- A row of characters filled up with zeros in front. -/
def padZeros (width : Nat) (ds : List Char) : List Char :=
  List.replicate (width - ds.length) '0' ++ ds

/-- Commas after every third character, counted in the order given. -/
def commas : List Char → List Char
  | a :: b :: c :: d :: rest => a :: b :: c :: ',' :: commas (d :: rest)
  | ds => ds

/-- A numeral in groups of three digits, counted from the right. -/
def groupedNumeral (n : Nat) : List Char :=
  (commas (numeral n).reverse).reverse

/-- A whole number in groups of three digits; only a negative one has a sign. -/
def grouped (n : Int) : Text :=
  Text.ofChars (sign n ++ groupedNumeral n.natAbs)

/-- A whole number in groups of three digits, with its sign. -/
def signedGrouped (n : Int) : Text :=
  Text.ofChars ((if n < 0 then '-' else '+') :: groupedNumeral n.natAbs)

/-- How many units of the last of some places make one. -/
def scale (places : Nat) : Nat :=
  Nat.pow 10 places

/-- The longest numeral that is written or read. -/
def maxDigits : Nat := 4300

/-- Whether a number has a numeral that is written. -/
def isWritable (n : Int) : Bool :=
  n.natAbs < scale maxDigits

/-- The point-separated numeral of `n / scale places`; there is no point without places. -/
def pointed (n places : Nat) : List Char :=
  if places = 0 then numeral n
  else numeral (n / scale places) ++ '.' :: padZeros places (numeral (n % scale places))

/-- The whole number nearest to `num / den`, the even one of two. -/
def divRound (num den : Nat) : Nat :=
  let q := num / den
  let r := num % den
  if 2 * r < den || (2 * r == den && q % 2 == 0) then q else q + 1

/-- `n` with at most `count` digits kept and zeros for the others, rounded to the nearest. -/
def keepDigits (count n : Nat) : Nat :=
  let dropped := (numeral n).length - count
  divRound n (scale dropped) * scale dropped

theorem length_padZeros (width : Nat) (ds : List Char) :
    (padZeros width ds).length = max width ds.length := by
  simp only [padZeros, List.length_append, List.length_replicate]
  omega

/-- Rounding moves a quotient by half a unit at most. -/
theorem divRound_near (num den : Nat) (h : 0 < den) :
    2 * num ≤ 2 * (divRound num den * den) + den ∧
      2 * (divRound num den * den) ≤ 2 * num + den := by
  have hmod := Nat.mod_lt num h
  have hdiv := Nat.div_add_mod' num den
  unfold divRound
  simp only
  split
  · next hlow =>
    simp only [Bool.or_eq_true, decide_eq_true_eq, Bool.and_eq_true, beq_iff_eq] at hlow
    omega
  · next hhigh =>
    simp only [Bool.or_eq_true, decide_eq_true_eq, Bool.and_eq_true, beq_iff_eq, not_or] at hhigh
    rw [Nat.add_mul]
    omega

end SolanaTx.Decimal
