import SolanaTx.Layout.Basic
import SolanaTx.Pubkey

/-!
# Values read from bytes
-/

namespace SolanaTx

inductive Value where
  /-- An option without a value, or what a variant without a payload carries. -/
  | none
  | int (n : Int)
  | bool (b : Bool)
  | pubkey (key : Pubkey)
  | bytes (data : Bytes)
  | text (t : Text)
  | list (items : List Value)
  | struct (entries : List (Json × Value))
  | variant (name : Json) (payload : Value)
  deriving Inhabited

namespace Value

/-- Entries with one added; an entry of that name keeps its place and takes the new value. -/
def putEntry (name : Json) (value : Value) : List (Json × Value) → List (Json × Value)
  | [] => [(name, value)]
  | entry :: rest =>
      if entry.1.sameKey name then (entry.1, value) :: rest else entry :: putEntry name value rest

/-- The value of the entry with a name. -/
def entry? (name : Json) (entries : List (Json × Value)) : Option Value :=
  (entries.find? fun entry => entry.1.sameKey name).map (·.2)

/-- One byte inside quotes. -/
def escapeByte (quote : Char) (b : UInt8) : Text :=
  if 0x7F ≤ b.toNat then "\\x" ++ Text.hexCode 2 b.toNat
  else Text.escape quote (.ofNat b.toNat)

/-- Bytes as quoted text. -/
def bytesDiagnostic (data : Bytes) : Text :=
  let mark := Text.quoteMark (data.map fun b => .ofNat b.toNat)
  let ends : Text := [mark]
  "b" ++ ends ++ data.flatMap (escapeByte mark) ++ ends

mutual

/-- A value as diagnostics show it, whatever its layout. -/
def diagnostic : Value → Text
  | .none => "None"
  | .int n => Decimal.ofInt n
  | .bool b => if b then "True" else "False"
  | .pubkey key => "Pubkey(\n    " ++ key.text ++ ",\n)"
  | .bytes data => bytesDiagnostic data
  | .text t => Text.quoted t
  | .list items => "[" ++ Text.join ", " (diagnosticItems items) ++ "]"
  | .struct entries => "\x7b" ++ Text.join ", " (diagnosticEntries entries) ++ "\x7d"
  | .variant name payload => "(" ++ name.diagnostic ++ ", " ++ payload.diagnostic ++ ")"

def diagnosticItems : List Value → List Text
  | [] => []
  | item :: rest => item.diagnostic :: diagnosticItems rest

def diagnosticEntries : List (Json × Value) → List Text
  | [] => []
  | (name, value) :: rest => (name.diagnostic ++ ": " ++ value.diagnostic) :: diagnosticEntries rest

end

end Value

end SolanaTx
