import SolanaTx.Json.Access
import SolanaTx.Layout.Basic

/-!
# Types in interface descriptions

A type is a tag, a shape around other types, or the name of a declared type. A
declared type may use others, so it is expanded as often as it is named. Types
that lead into one another too deep are endless, and so is every type that leads
back to itself.
-/

namespace SolanaTx.Idl

def unsupported {α : Type} (tag : Json) : Except Fault α :=
  .error (.payload (.unsupportedType tag))

def otherTags : List (Text × Layout) := [
  ("publicKey", .pubkey), ("pubkey", .pubkey), ("bool", .bool), ("string", .string),
  ("bytes", .bytes)]

def scalarTags : List (Text × Layout) :=
  Layout.integerTags ++ otherTags

def scalarLayout (tag : Text) : Except Fault Layout :=
  match scalarTags.lookup tag with
  | some layout => .ok layout
  | none => unsupported (.text tag)

/-- An array of a fixed size; one of single bytes is shown as bytes. -/
def arrayLayout (element : Layout) (size : Json) : Except Fault Layout := do
  let size ← size.toWhole
  pure (if element.isByte then .fixedBytes size else .array element size)

/-- The name of a declared type, bare or in an object. -/
def declaredName : Json → Except Fault Json
  | .object fields => (Json.object fields).need "name"
  | j => .ok (.text j.plain)

/-- Declarations by name. -/
abbrev Declarations := List (Json × Json)

/-- Declarations in a list of them; of two with one name the later counts. -/
def declarations (raw : Json) : Except Fault Declarations := do
  let items ← raw.elements
  let named ← items.mapM fun item => do
    let name ← item.need "name"
    if name.isKey then pure (name, item) else .error .wrongKind
  pure named.reverse

/-- The declaration with a name. -/
def declaration? (ds : Declarations) (name : Json) : Option Json :=
  (ds.find? (·.1.sameKey name)).map (·.2)

mutual

/-- The layout of a type. Shapes, declarations and lists of fields may stand inside one another up
to `depth`. -/
def specLayout (ds : Declarations) : Nat → Json → Except Fault Layout
  | 0, _ => .error .endless
  | depth + 1, spec =>
      match spec with
      | .text tag => scalarLayout tag
      | .object [(shape, inner)] =>
          if shape = "vec" then (specLayout ds depth inner).map .vec
          else if shape = "option" ∨ shape = "coption" then
            (specLayout ds depth inner).map .option
          else if shape = "array" then do
            match ← inner.elements with
            | [element, size] => arrayLayout (← specLayout ds depth element) size
            | _ => .error .badValue
          else if shape = "defined" then do
            let name ← declaredName inner
            if !name.isKey then throw .wrongKind
            match declaration? ds name with
            | some declaration => declarationLayout ds depth declaration
            | none => unsupported spec
          else unsupported spec
      | _ => unsupported spec

/-- The layout of a declaration: a struct, an enum or another name for a type. -/
def declarationLayout (ds : Declarations) : Nat → Json → Except Fault Layout
  | 0, _ => .error .endless
  | depth + 1, declaration => do
      let body ← declaration.fieldOr "type" (.object [])
      let unknown : Except Fault Layout := do unsupported (← declaration.fieldD "name" declaration)
      match ← body.fieldD "kind" .null with
      | .text kind =>
          if kind = "struct" then do
            pure (.struct (← fieldList ds depth (← body.fieldOr "fields" (.list []))))
          else if kind = "enum" then do
            let variants ← (← body.fieldOr "variants" (.list [])).elements
            .enum <$> variants.mapM fun raw => do
              let fields ← raw.fieldD "fields" .null
              let name ← raw.need "name"
              if fields.isGiven then
                pure ⟨name, some (.struct (← fieldList ds depth fields))⟩
              else pure ⟨name, none⟩
          else if kind = "alias" then
            match body.get? "value" with
            | some spec => specLayout ds depth spec
            | none => unknown
          else unknown
      | _ => unknown

/-- Named values in order. One that has no name is named by its place. -/
def fieldList (ds : Declarations) : Nat → Json → Except Fault (List Field)
  | 0, _ => .error .endless
  | depth + 1, raw => do
      let items ← raw.elements
      items.zipIdx.mapM fun (item, i) =>
        match item.get? "name" with
        | some name => do pure ⟨name, ← specLayout ds depth (← item.need "type"), none⟩
        | none => do pure ⟨.text (Decimal.ofNat i), ← specLayout ds depth item, none⟩

end

/-- How deep shapes, declarations and lists of fields may stand inside one another. Of a thousand
levels ten are taken by whatever reads a description: the number is that of a caller near the
top. -/
def maxDepth : Nat := 990

/-- The layout of a type among declarations. -/
def typeLayout (ds : Declarations) (spec : Json) : Except Fault Layout :=
  specLayout ds maxDepth spec

/-- The fields of an instruction among declarations. -/
def argumentFields (ds : Declarations) (raw : Json) : Except Fault (List Field) :=
  fieldList ds maxDepth raw

end SolanaTx.Idl
