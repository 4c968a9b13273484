import SolanaTx.Fault

/-!
# Written numbers

A number with more digits than are written has no text.
-/

namespace SolanaTx.Decimal

/-- The text of a number, where the number can be written. -/
def written (text : Int → Text) (n : Int) : Except Fault Text :=
  if isWritable n then .ok (text n) else .error .badValue

/-- A whole number of units of the last place, with that many places. The numerals in front of the
point and behind it are written by themselves. -/
def fixedPoint (n places : Int) : Except Fault Text :=
  if places ≤ 0 then written ofInt n
  else
    let unit := scale places.toNat
    if isWritable (n.natAbs / unit : Nat) && isWritable (n.natAbs % unit : Nat) then
      .ok (Text.ofChars (sign n ++ pointed n.natAbs places.toNat))
    else .error .badValue

end SolanaTx.Decimal
