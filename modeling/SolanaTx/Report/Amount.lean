import SolanaTx.Fault

/-!
# Amounts in SOL

An amount is a quotient with some number of digits, and is then rounded to its places.
-/

namespace SolanaTx.Amount

def lamportsPerSol : Nat := Decimal.scale 9

/-- How many digits of an amount are exact. -/
def significantDigits : Nat := 28

/-- The lamports of an amount with at most `significantDigits` of its digits kept. -/
def exactLamports (lamports : Nat) : Nat :=
  Decimal.keepDigits significantDigits lamports

/-- The most digits that the lamports of an amount can have. -/
def maxLength : Nat := 1000009

/-- The most places that an amount can be asked for. -/
def greatestPlaces : Int := 999999999999999999

/-- The most digits that an amount can have, with its places. -/
def maxUnits : Int := greatestPlaces + 1

/-- Whether an amount can be written with a number of places. Lamports are nine places. -/
def admitsPlaces (lamports : Nat) (places : Int) : Bool :=
  0 ≤ places ∧ places ≤ greatestPlaces ∧
    (Decimal.numeral (exactLamports lamports)).length + places ≤ maxUnits + 9

/-- Lamports as SOL with a number of places. An amount below zero has a sign even where it is
rounded to zero. How many places memory holds is left out. -/
def solText (lamports places : Int) : Except Fault Text :=
  if maxLength < (Decimal.numeral (exactLamports lamports.natAbs)).length then .error .tooLarge
  else if admitsPlaces lamports.natAbs places then
    let scaled := exactLamports lamports.natAbs * Decimal.scale places.toNat
    let units := Decimal.divRound scaled lamportsPerSol
    .ok (Text.ofChars (Decimal.sign lamports ++ Decimal.pointed units places.toNat))
  else .error .badValue

/-- The places of amounts in a summary. -/
def summaryPlaces : Nat := 6

end SolanaTx.Amount
