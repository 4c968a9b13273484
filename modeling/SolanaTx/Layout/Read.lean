import SolanaTx.Bytes.LittleEndian
import SolanaTx.Bytes.Utf8
import SolanaTx.Fault
import SolanaTx.Layout.Value

/-!
# Reading values

A reader takes a value off the bytes at an offset and gives the offset behind it.
A fixed size below zero moves the offset back; positions below zero then count
from the end of the bytes. How many levels of calls reading takes is left out: what
is read takes about as many to be shown, or more.
-/

namespace SolanaTx.Layout

/-- The bytes of a value of `size` bytes at an offset. -/
def take (data : Bytes) (offset size : Int) : Except Fault Bytes :=
  let available := data.length - offset
  if available < size then
    .error (.inPayload (.truncated size (max available 0) offset))
  else .ok (data.slice offset (offset + size))

/-- An unsigned number of `width` bytes. -/
def readNat (data : Bytes) (width : Nat) (offset : Int) : Except Fault (Nat × Int) := do
  let raw ← take data offset width
  pure (raw.toNat, offset + width)

/-- Bytes after their number. -/
def readCounted (data : Bytes) (offset : Int) : Except Fault (Bytes × Int) := do
  let (length, offset) ← readNat data countSize offset
  let raw ← take data offset length
  pure (raw, offset + length)

/-- The text that bytes write in UTF-8; other bytes stay bytes. -/
def textValue (data : Bytes) : Value :=
  match data.toText? with
  | some t => .text t
  | none => .bytes data

/-- As many values as `count` says, one behind the other. -/
def readMany (reader : Int → Except Fault (Value × Int)) :
    Nat → Int → Except Fault (List Value × Int)
  | 0, offset => .ok ([], offset)
  | count + 1, offset => do
      let (value, offset) ← reader offset
      let (values, offset) ← readMany reader count offset
      pure (value :: values, offset)

mutual

def read (data : Bytes) : Layout → Int → Except Fault (Value × Int)
  | .int signed width, offset => do
      let raw ← take data offset width.bytes
      pure (.int (if signed then raw.toInt else raw.toNat), offset + width.bytes)
  | .bool, offset => do
      match ← take data offset 1 with
      | b :: _ => pure (.bool (b != 0), offset + 1)
      | [] => throw .outOfRange
  | .pubkey, offset => do
      match Pubkey.ofBytes? (← take data offset Pubkey.size) with
      | some key => pure (.pubkey key, offset + Pubkey.size)
      | none => throw .badValue
  | .bytes, offset => do
      let (raw, offset) ← readCounted data offset
      pure (.bytes raw, offset)
  | .string, offset => do
      let (raw, offset) ← readCounted data offset
      pure (textValue raw, offset)
  | .fixedBytes size, offset => do
      pure (.bytes (← take data offset size), offset + size)
  | .array element size, offset => do
      let (items, offset) ← readMany (fun o => read data element o) size.toNat offset
      pure (.list items, offset)
  | .vec element, offset => do
      let (count, offset) ← readNat data countSize offset
      let least := count * element.minSize
      let available := data.length - offset
      -- A count that the remaining bytes cannot hold is refused before any element is read.
      if element.minSize ≠ 0 ∧ available < least then
        throw (.inPayload (.truncated least available offset))
      if element.isByte then
        pure (.bytes (data.slice offset (offset + count)), offset + count)
      else
        let (items, offset) ← readMany (fun o => read data element o) count offset
        pure (.list items, offset)
  | .option element, offset => do
      let (tag, offset) ← readNat data 1 offset
      match tag with
      | 0 => pure (.none, offset)
      | 1 => read data element offset
      | tag => throw (.inPayload (.invalidOptionTag tag (offset - 1)))
  | .struct fields, offset => do
      let (entries, offset) ← readFields data fields [] offset
      pure (.struct entries, offset)
  | .enum variants, offset => do
      let (index, offset) ← readNat data 1 offset
      readVariant data index variants index offset
  | .unknown tag, _ => throw (.inPayload (.unsupportedType tag))

/-- The fields of a struct, of which `entries` are read already. -/
def readFields (data : Bytes) :
    List Field → List (Json × Value) → Int → Except Fault (List (Json × Value) × Int)
  | [], entries, offset => .ok (entries, offset)
  | ⟨name, type, _⟩ :: rest, entries, offset => do
      let (value, offset) ← read data type offset
      if name.isKey then
        readFields data rest (Value.putEntry name value entries) offset
      else throw .wrongKind

/-- What the variant carries that stands `left` places further on; `index` is its whole index. -/
def readVariant (data : Bytes) (index : Nat) : List Variant → Nat → Int → Except Fault (Value × Int)
  | [], _, offset => throw (.inPayload (.invalidVariant index (offset - 1)))
  | ⟨name, none⟩ :: _, 0, offset => pure (.variant name .none, offset)
  | ⟨name, some type⟩ :: _, 0, offset => do
      let (payload, offset) ← read data type offset
      pure (.variant name payload, offset)
  | _ :: rest, left + 1, offset => readVariant data index rest left offset

end

/-- The values of a schema, one behind the other from an offset on. -/
def readSchema (data : Bytes) : List Field → Int → Except Fault (List Value × Int)
  | [], offset => .ok ([], offset)
  | field :: rest, offset => do
      let (value, offset) ← read data field.type offset
      let (values, offset) ← readSchema data rest offset
      pure (value :: values, offset)

end SolanaTx.Layout
