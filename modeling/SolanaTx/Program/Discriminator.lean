import SolanaTx.Bytes.LittleEndian
import SolanaTx.Bytes.Sha256
import SolanaTx.Bytes.Utf8
import SolanaTx.Fault
import SolanaTx.Naming

/-!
# Discriminators

The first bytes of a payload tell which instruction it is: a hash of the name, or
a number of the instruction.
-/

namespace SolanaTx.Discriminator

/-- The size of discriminators that are made from names. -/
def nameSize : Nat := 8

/-- The first eight bytes of the hash of a name in snake case after its namespace. -/
def ofName (name : Text) (scope : Text := "global") : Except Fault Bytes :=
  match Bytes.ofText? (scope ++ ":" ++ Naming.snakeCase name) with
  | some data => .ok ((Bytes.sha256 data).take nameSize)
  | none => .error .notEncodable

/-- Counts of bytes are signed numbers of 64 bits. -/
def greatestCount : Int := 9223372036854775807

/-- What a string of bytes takes up beside its bytes. -/
def overhead : Int := 33

/-- The number of bytes that a size stands for. How many of them memory holds is left out. -/
def byteCount (size : Int) : Except Fault Nat :=
  if size < -greatestCount - 1 ∨ greatestCount < size then .error .tooLarge
  else if size < 0 then .error .badValue
  else if greatestCount - overhead < size then .error .tooLarge
  else .ok size.toNat

/-- A number in `size` little-endian bytes. -/
def ofTag (value size : Int) : Except Fault Bytes := do
  let size ← byteCount size
  if value < 0 ∨ Bytes.capacity size ≤ value then .error .tooLarge
  else .ok (Bytes.ofNat size value.toNat)

end SolanaTx.Discriminator
