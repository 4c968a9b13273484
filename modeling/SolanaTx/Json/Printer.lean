import SolanaTx.Json.Basic

/-!
# JSON text

Fields are written in the order of their names, and every character outside
printable ASCII by its code in UTF-16.
-/

namespace SolanaTx.Json

/-- A code unit as an escape. -/
def escapeUnit (n : Nat) : Text :=
  "\\u" ++ Text.hexCode 4 n

/-- One code point inside a JSON string. -/
def escape (c : CodePoint) : Text :=
  if c = '"' then "\\\""
  else if c = '\\' then "\\\\"
  else if c = '\n' then "\\n"
  else if c = '\r' then "\\r"
  else if c = '\t' then "\\t"
  else if c.toNat = 0x8 then "\\b"
  else if c.toNat = 0xC then "\\f"
  else if 0x20 ≤ c.toNat && c.toNat ≤ 0x7E then [c]
  else if c.toNat ≤ 0xFFFF then escapeUnit c.toNat
  else
    let n := c.toNat - 0x10000
    escapeUnit (0xD800 + n / 0x400) ++ escapeUnit (0xDC00 + n % 0x400)

def stringText (t : Text) : Text :=
  "\"" ++ t.flatMap escape ++ "\""

/-- Fields in the order of their names. -/
def sortFields {α : Type} (fields : List (Text × α)) : List (Text × α) :=
  fields.mergeSort fun a b => a.1.le b.1

mutual

/-- The one-line text of a value. -/
def render : Json → Text
  | .null => "null"
  | .bool b => if b then "true" else "false"
  | .int n => Decimal.ofInt n
  | .real x => realText "Infinity" "NaN" x
  | .text t => stringText t
  | .list items => "[" ++ Text.join ", " (renderItems items) ++ "]"
  | .object fields =>
      let parts := (sortFields (renderFields fields)).map fun part =>
        stringText part.1 ++ ": " ++ part.2
      "\x7b" ++ Text.join ", " parts ++ "\x7d"

def renderItems : List Json → List Text
  | [] => []
  | item :: rest => item.render :: renderItems rest

def renderFields : Fields → List (Text × Text)
  | [] => []
  | (key, value) :: rest => (key, value.render) :: renderFields rest

end

end SolanaTx.Json
