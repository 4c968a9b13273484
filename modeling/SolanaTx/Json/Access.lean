import SolanaTx.Fault
import SolanaTx.Text.Digit

/-!
# Access to unchecked documents

A value is asked for its fields, its elements or its whole number, and the fault
says how it fails to have them.
-/

namespace SolanaTx.Json

/-- The field of an object with a name, if it has one. -/
def field? (j : Json) (key : Text) : Except Fault (Option Json) :=
  match j with
  | .object fields => .ok (lookup key fields)
  | _ => .error .noSuchMember

/-- The field of an object with a name, and another value where there is none. -/
def fieldD (j : Json) (key : Text) (default : Json) : Except Fault Json :=
  (j.field? key).map (·.getD default)

/-- The field of an object where it counts as given, and another value elsewhere. -/
def fieldOr (j : Json) (key : Text) (other : Json) : Except Fault Json :=
  (j.fieldD key .null).map (·.orElse other)

/-- The field that an object must have. -/
def need (j : Json) (key : Text) : Except Fault Json :=
  match j with
  | .object fields =>
      match lookup key fields with
      | some value => .ok value
      | none => .error .missingField
  | _ => .error .wrongKind

/-- The items of a list, the names of the fields of an object, or the characters of a text. -/
def elements : Json → Except Fault (List Json)
  | .list items => .ok items
  | .object fields => .ok (fields.map fun field => .text field.1)
  | .text t => .ok (t.map fun c => .text [c])
  | _ => .error .wrongKind

/-- Texts from values that all have to be texts. -/
def texts : List Json → Except Fault (List Text)
  | [] => .ok []
  | .text t :: rest => (texts rest).map (t :: ·)
  | _ :: _ => .error .wrongKind

/-- The whole number of a number, a truth value or a numeral. A fraction is cut off. -/
def toWhole : Json → Except Fault Int
  | .int n => .ok n
  | .bool b => .ok (if b then 1 else 0)
  | .text t =>
      match Text.toInt? t with
      | some n => .ok n
      | none => .error .badValue
  | .real x =>
      match x.truncate? with
      | some n => .ok n
      | none => if x = .nan then .error .badValue else .error .tooLarge
  | _ => .error .wrongKind

end SolanaTx.Json
