import SolanaTx.Bytes.Slice
import SolanaTx.Text.Basic

/-!
# Text in UTF-8
-/

namespace SolanaTx.Bytes

/-- The bytes of a text. None stand for half of a pair of code units. -/
def ofText? (t : Text) : Option Bytes :=
  t.chars?.map fun cs => (String.ofList cs).toUTF8.toList

/-- The characters that bytes write, where they are well formed. -/
def toChars? (data : Bytes) : Option (List Char) :=
  (String.fromUTF8? ⟨data.toArray⟩).map String.toList

/-- The text that bytes write, where they are well formed. -/
def toText? (data : Bytes) : Option Text :=
  (toChars? data).map Text.ofChars

end SolanaTx.Bytes
