import SolanaTx.Bytes.LittleEndian
import SolanaTx.Instruction
import SolanaTx.Pubkey.Known

/-!
# Compute limits

A transaction may set its limit. Else it has a share for each instruction that is
not about the budget itself; in no case more than the greatest limit.
-/

namespace SolanaTx.ComputeLimit

def unitsPerInstruction : Nat := 200000

def greatest : Nat := 1400000

/-- The limit that an instruction sets: the tag 2, and four bytes of units. -/
def setBy? (i : Instruction) : Option Nat :=
  if i.program = .computeBudget then
    match i.data with
    | 2 :: a :: b :: c :: d :: _ => some (Bytes.toNat [a, b, c, d])
    | _ => none
  else none

/-- The limit of a transaction; of several instructions that set it the first counts. -/
def ofInstructions (is : List Instruction) : Nat :=
  match is.findSome? setBy? with
  | some units => min units greatest
  | none =>
      min ((is.filter fun i => i.program ≠ .computeBudget).length * unitsPerInstruction) greatest

end SolanaTx.ComputeLimit
