import SolanaTx.Decimal.Written
import SolanaTx.Json.Access
import SolanaTx.Layout.Read

/-!
# Showing values

Layouts have labels, and values texts that follow their layout.
-/

namespace SolanaTx

namespace Layout

mutual

/-- The label of a layout, as `u64`, `[u8; 32]` or `Option<pubkey>`. -/
def label : Layout → Except Fault Text
  | .int signed width => .ok ((if signed then "i" else "u") ++ Decimal.ofNat (8 * width.bytes))
  | .bool => .ok "bool"
  | .pubkey => .ok "pubkey"
  | .bytes => .ok "Vec<u8>"
  | .string => .ok "String"
  | .fixedBytes size => do pure ("[u8; " ++ (← Decimal.written Decimal.ofInt size) ++ "]")
  | .array element size => do
      let label ← element.label
      pure ("[" ++ label ++ "; " ++ (← Decimal.written Decimal.ofInt size) ++ "]")
  | .vec element => do pure ("Vec<" ++ (← element.label) ++ ">")
  | .option element => do pure ("Option<" ++ (← element.label) ++ ">")
  | .struct fields => do
      pure ("\x7b " ++ Text.join ", " (← fieldLabels fields) ++ " \x7d")
  | .enum variants => do
      pure ("enum \x7b " ++ Text.join ", " (← Json.texts (variants.map (·.name))) ++ " \x7d")
  | .unknown tag => .ok tag.plain

def fieldLabels : List Field → Except Fault (List Text)
  | [] => .ok []
  | ⟨name, type, _⟩ :: rest => do
      let label ← type.label
      pure ((name.plain ++ ": " ++ label) :: (← fieldLabels rest))

end

/-- A whole number, with places where decimals are asked for. -/
def displayInt (n : Int) : Option Int → Except Fault Text
  | some decimals => Decimal.fixedPoint n decimals
  | none => Decimal.written Decimal.ofInt n

def displayBytes (data : Bytes) : Text :=
  if data.isEmpty then "<empty>" else data.toHex

/-- The items of a list as they are shown. A variant that is not found there is a fault of its
own. -/
def displayItems (display : Value → Except Fault Json) : List Value → Except Fault (List Json)
  | [] => .ok []
  | item :: rest =>
      match display item with
      | .ok shown => (displayItems display rest).map (shown :: ·)
      | .error .noVariant => .error .noVariantInList
      | .error fault => .error fault

/-- A list whose items are shown as texts. -/
def listText (items : List Json) : Except Fault Text := do
  pure ("[" ++ Text.join ", " (← Json.texts items) ++ "]")

mutual

/-- A value as it is shown. That is a text, but for a variant without a payload: it is shown as its
bare name, which may be any JSON value. Where the value does not fit the layout, its own kind
decides; the last resort is a diagnostic, which is taken to have a text always. -/
def display : Layout → Value → Option Int → Except Fault Json
  | _, .none, _ => .ok "None"
  | .option element, value, decimals => display element value decimals
  | _, .bool b, _ => .ok (if b then "true" else "false")
  | _, .int n, decimals => (displayInt n decimals).map .text
  | _, .bytes data, _ => .ok (.text (displayBytes data))
  | _, .pubkey key, _ => .ok (.text key.text)
  | _, .text t, _ => .ok (.text t)
  | .struct fields, .struct entries, _ => do
      pure (.text ("\x7b" ++ Text.join ", " (← displayFields fields entries) ++ "\x7d"))
  | .enum variants, .variant name payload, decimals => displayVariant variants name payload decimals
  | .array element _, .list items, decimals => do
      pure (.text (← listText (← displayItems (fun v => display element v decimals) items)))
  | .vec element, .list items, decimals => do
      pure (.text (← listText (← displayItems (fun v => display element v decimals) items)))
  | _, value, _ => .ok (.text value.diagnostic)

/-- The texts of the fields of a struct, each by the decimals of the field. -/
def displayFields : List Field → List (Json × Value) → Except Fault (List Text)
  | [], _ => .ok []
  | ⟨name, type, decimals⟩ :: rest, entries => do
      if !name.isKey then throw .wrongKind
      let shown ← display type ((Value.entry? name entries).getD .none) decimals
      pure ((name.plain ++ ": " ++ shown.plain) :: (← displayFields rest entries))

/-- A variant: its name, and what it carries if the layout has anything there. -/
def displayVariant : List Variant → Json → Value → Option Int → Except Fault Json
  | [], _, _, _ => .error .noVariant
  | ⟨candidate, none⟩ :: rest, name, payload, decimals =>
      if candidate.isEqual name then .ok name
      else displayVariant rest name payload decimals
  | ⟨candidate, some type⟩ :: rest, name, payload, decimals =>
      if candidate.isEqual name then do
        pure (.text (name.plain ++ " " ++ (← display type payload decimals).plain))
      else displayVariant rest name payload decimals

end

/-! ## Levels -/

mutual

/-- How many levels the label of a layout takes. A struct takes three, for itself, for the joining
of the labels of its fields and for the way through them, and so do the names of variants. -/
def labelDepth : Layout → Nat
  | .array element _ | .vec element | .option element => element.labelDepth + 1
  | .struct fields => labelDepthOfFields fields + 3
  | .enum _ => 3
  | _ => 1

def labelDepthOfFields : List Field → Nat
  | [] => 0
  | ⟨_, type, _⟩ :: rest => max type.labelDepth (labelDepthOfFields rest)

end

mutual

/-- How many levels it takes to show a value. A list takes three, for itself, for the joining of its
texts and for the way through its items, and a struct two, for itself and its fields. The one or two
levels more that the text of a single value may take are left out. -/
def displayDepth : Layout → Value → Nat
  | _, .none => 1
  | .option element, value => displayDepth element value + 1
  | .struct fields, .struct entries => displayDepthOfFields fields entries + 2
  | .enum variants, .variant name payload => displayDepthOfVariant variants name payload + 1
  | .array element _, .list items =>
      (items.map fun v => displayDepth element v).foldl max 0 + 3
  | .vec element, .list items =>
      (items.map fun v => displayDepth element v).foldl max 0 + 3
  | _, _ => 1

def displayDepthOfFields : List Field → List (Json × Value) → Nat
  | [], _ => 0
  | ⟨name, type, _⟩ :: rest, entries =>
      max (displayDepth type ((Value.entry? name entries).getD .none))
        (displayDepthOfFields rest entries)

def displayDepthOfVariant : List Variant → Json → Value → Nat
  | [], _, _ => 0
  | ⟨candidate, none⟩ :: rest, name, payload =>
      if candidate.isEqual name then 0 else displayDepthOfVariant rest name payload
  | ⟨candidate, some type⟩ :: rest, name, payload =>
      if candidate.isEqual name then displayDepth type payload
      else displayDepthOfVariant rest name payload

end

/-- How many levels there are for labels and values. Of a thousand levels of calls in all, ten are
taken by whatever asks for the fields of a payload: the number is that of a caller near the top. One
that stands deeper, as the building of a forest does, has some levels less. -/
def maxDisplayDepth : Nat := 990

/-- A value as it is shown on a number of levels. -/
def displayWithin (limit : Nat) (layout : Layout) (value : Value) (decimals : Option Int) :
    Except Fault Json := do
  let shown ← layout.display value decimals
  if limit < layout.displayDepth value then throw .endless
  pure shown

/-- How many levels a field takes, for its label and for its value. -/
def fieldDepth (field : Field) (value : Value) : Nat :=
  max field.type.labelDepth (field.type.displayDepth value)

/-- How many levels it takes to show the fields of a schema that are read from a payload. -/
def schemaDepth (data : Bytes) (schema : List Field) : Nat :=
  match readSchema data schema 0 with
  | .ok (values, _) => ((schema.zip values).map fun pair => fieldDepth pair.1 pair.2).foldl max 0
  | .error _ => 0

end Layout

/-- A value with its name and the label of its layout, ready to be shown. -/
structure DecodedField where
  name : Json
  label : Text
  value : Text

/-- One field of a schema and the value read for it. -/
def DecodedField.ofValue (field : Field) (value : Value) : Except Fault DecodedField := do
  let label ← field.type.label
  let shown ← field.type.display value field.decimals
  pure ⟨field.name, label, shown.plain⟩

/-- Reads the fields of a schema from the start of a payload, on as many levels as it takes to show
them, and gives the number of bytes read. Bytes behind the last field are left alone. -/
def decodeFields (data : Bytes) (schema : List Field) : Except Fault (List DecodedField × Int) := do
  let (values, consumed) ← Layout.readSchema data schema 0
  let fields ← (schema.zip values).mapM fun pair => DecodedField.ofValue pair.1 pair.2
  pure (fields, consumed)

/-- Reads the fields of a schema and shows them on a number of levels. Where a label cannot be
written and levels are missing too, it is the label that is reported. -/
def decodeFieldsWithin (limit : Nat) (data : Bytes) (schema : List Field) :
    Except Fault (List DecodedField × Int) := do
  let decoded ← decodeFields data schema
  if limit < Layout.schemaDepth data schema then throw .endless
  pure decoded

end SolanaTx
