import SolanaTx.Fault

/-!
# Instructions

A transaction lists its instructions; what these have called in turn is reported
apart, with the place of the instruction at the top and the height of the stack.
-/

namespace SolanaTx

structure AccountMeta where
  pubkey : Pubkey
  isSigner : Bool
  isWritable : Bool

structure Instruction where
  program : Pubkey
  data : Bytes
  accounts : List AccountMeta

/-- A reported stack height: 1 at the top level, 2 for what it calls. -/
inductive StackHeight where
  | unreported
  | level (n : Int)
  /-- Any other JSON value in place of a whole number. -/
  | other (j : Json)

namespace StackHeight

def ofJson : Json → StackHeight
  | .null => unreported
  | .int n => level n
  | j => other j

def toJson : StackHeight → Json
  | unreported => .null
  | level n => .int n
  | other j => j

/-- Whether a height can be counted with. -/
def isUsable : StackHeight → Bool
  | other (.text t) => t.isEmpty
  | other (.list items) => items.isEmpty
  | other (.object fields) => fields.isEmpty
  | _ => true

/-- The depth of the caller under the instruction at the top. A height that is missing stands for a
direct call, a fraction for the next level, and an infinite height for `deepest`. -/
def callerDepth (deepest : Nat) : StackHeight → Nat
  | level n => (n - 2).toNat
  | other (.real x) =>
      match x.ceil? with
      | some n => (n - 2).toNat
      | none => if x = .infinite false then deepest else 0
  | _ => 0

end StackHeight

/-- A called instruction. `parent` is the place of the instruction at the top. -/
structure InnerInstruction where
  parent : Int
  instruction : Instruction
  height : StackHeight := .unreported

end SolanaTx
