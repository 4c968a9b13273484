import SolanaTx.Binary64
import SolanaTx.Text.Quoted

/-!
# JSON values

Objects keep the order of their fields. Whole numbers are exact and kept apart
from numbers with a fraction or an exponent.
-/

namespace SolanaTx

inductive Json where
  | null
  | bool (b : Bool)
  | int (n : Int)
  | real (x : Binary64)
  | text (t : Text)
  | list (items : List Json)
  | object (fields : List (Text × Json))
  deriving Inhabited

namespace Json

instance : Coe String Json := ⟨fun s => .text s⟩

abbrev Fields := List (Text × Json)

/-- Fields with one added; a field of that name keeps its place and takes the new value. -/
def put (key : Text) (value : Json) : Fields → Fields
  | [] => [(key, value)]
  | field :: rest =>
      if field.1 = key then (key, value) :: rest else field :: put key value rest

/-- Fields without the one named. -/
def remove (key : Text) (fields : Fields) : Fields :=
  fields.filter (·.1 ≠ key)

/-- The value of the field with a name. -/
def lookup (key : Text) (fields : Fields) : Option Json :=
  List.lookup key fields

/-- The field of an object with a name. -/
def get? (j : Json) (key : Text) : Option Json :=
  match j with
  | .object fields => lookup key fields
  | _ => none

/-- Whether a value counts as given: `null`, `false`, zero and all that is empty do not. -/
def isGiven : Json → Bool
  | .null => false
  | .bool b => b
  | .int n => n ≠ 0
  | .real x => !x.isZero
  | .text t => !t.isEmpty
  | .list items => !items.isEmpty
  | .object fields => !fields.isEmpty

/-- The value itself where it counts as given, and another one elsewhere. -/
def orElse (j : Json) (other : Json) : Json :=
  if j.isGiven then j else other

/-- The whole number that a number or a truth value is. -/
def whole? : Json → Option Int
  | .bool b => some (if b then 1 else 0)
  | .int n => some n
  | .real x => x.whole?
  | _ => none

/-- Whether two values are one key of a mapping. Numbers are compared by value, truth values as 0
and 1; lists and objects are no keys. -/
def sameKey : Json → Json → Bool
  | .null, .null => true
  | .text a, .text b => a == b
  | .real a, .real b => a == b || (a.isZero && b.isZero)
  | a, b =>
      match a.whole?, b.whole? with
      | some m, some n => m == n
      | _, _ => false

/-- Whether a value can be a key of a mapping. -/
def isKey : Json → Bool
  | .list _ | .object _ => false
  | _ => true

mutual

/-- Whether two values are the same, number for number by value, list for list item by item, and
object for object whatever the order of the fields. -/
def agrees : Json → Json → Bool
  | .list items, .list others => itemsAgree items others
  | .object fields, .object others => fields.length == others.length && fieldsAgree fields others
  | a, b => a.sameKey b

def itemsAgree : List Json → List Json → Bool
  | [], [] => true
  | item :: rest, other :: others => item.agrees other && itemsAgree rest others
  | _, _ => false

/-- Whether all of some fields stand among others. -/
def fieldsAgree : Fields → Fields → Bool
  | [], _ => true
  | (key, value) :: rest, others =>
      match lookup key others with
      | some other => value.agrees other && fieldsAgree rest others
      | none => false

end

/-- Whether two values are equal. What is not a number is equal to nothing, itself included; inside
lists and objects it is the same as itself. -/
def isEqual : Json → Json → Bool
  | .real .nan, _ => false
  | a, b => a.agrees b

/-- The text of a floating-point number, with the words given for those that are not finite. -/
def realText (infinity notANumber : Text) : Binary64 → Text
  | .finite negative m e => Text.ofChars (Binary64.finiteText negative m e)
  | .infinite negative => if negative then "-" ++ infinity else infinity
  | .nan => notANumber

mutual

/-- A value as diagnostics show it: texts in quotes, fields in their order. -/
def diagnostic : Json → Text
  | .null => "None"
  | .bool b => if b then "True" else "False"
  | .int n => Decimal.ofInt n
  | .real x => realText "inf" "nan" x
  | .text t => Text.quoted t
  | .list items => "[" ++ Text.join ", " (diagnosticItems items) ++ "]"
  | .object fields => "\x7b" ++ Text.join ", " (diagnosticFields fields) ++ "\x7d"

def diagnosticItems : List Json → List Text
  | [] => []
  | item :: rest => item.diagnostic :: diagnosticItems rest

def diagnosticFields : Fields → List Text
  | [] => []
  | (key, value) :: rest => (Text.quoted key ++ ": " ++ value.diagnostic) :: diagnosticFields rest

end

/-- A value as it stands inside a message: a text is itself, all else as in diagnostics. -/
def plain : Json → Text
  | .text t => t
  | j => j.diagnostic

end Json

end SolanaTx
