import SolanaTx.Idl.TypeSpec
import SolanaTx.Program.Discriminator
import SolanaTx.Program.Table

/-!
# Decoders from interface descriptions

A description names its program, its instructions and the types that they use,
in an older and a newer form. An instruction with an argument that cannot be read
is left out; every other fault of the description concerns it as a whole.
-/

namespace SolanaTx.Idl

mutual

/-- The names in a group of accounts, those of the groups inside it in their places. -/
def groupNames : Json → Except Fault (List Json)
  | .list entries => entryNames entries
  | .object fields => if fields.isEmpty then .ok [] else .error .wrongKind
  | .text t => if t.isEmpty then .ok [] else .error .wrongKind
  | _ => .error .wrongKind

def entryNames : List Json → Except Fault (List Json)
  | [] => .ok []
  | .object fields :: rest => do
      let names ← fieldNames (Json.lookup "name" fields) fields
      pure (names ++ (← entryNames rest))
  | _ :: _ => .error .wrongKind

/-- The names of an entry: those of the group in it, else its own name. -/
def fieldNames (name : Option Json) : Json.Fields → Except Fault (List Json)
  | [] =>
      match name with
      | some name => .ok [name]
      | none => .error .missingField
  | (key, value) :: rest => if key = "accounts" then groupNames value else fieldNames name rest

end

/-- A number as a byte. -/
def byte : Json → Except Fault UInt8
  | .int n => if 0 ≤ n ∧ n ≤ 255 then .ok (UInt8.ofNat n.toNat) else .error .badValue
  | .bool b => .ok (if b then 1 else 0)
  | _ => .error .wrongKind

/-- An explicit discriminator: a list of bytes, or the number of zero bytes. Of a number that is
too large for a discriminator no more bytes are made than show that. -/
def explicitDiscriminator : Json → Except Fault Bytes
  | .list items => items.mapM byte
  | .int n => do
      let count ← Discriminator.byteCount n
      pure (List.replicate (min count (Discriminator.nameSize + 1)) 0)
  | .bool b => .ok (if b then [0] else [])
  | .object [] => .ok []
  | _ => .error .wrongKind

def nameDiscriminator : Json → Except Fault Bytes
  | .text name => Discriminator.ofName name
  | _ => .error .wrongKind

/-- The display name of an instruction. -/
def instructionName : Json → Except Fault Text
  | .text name => .ok (Naming.pascalCase name)
  | .list items =>
      if items.any (·.sameKey (.text "_")) then .error .wrongKind else .error .noSuchMember
  | _ => .error .wrongKind

/-- The row of an instruction; there is none for one whose arguments cannot be read. -/
def row? (ds : Declarations) (program : Text) (raw : Json) :
    Except Fault (Option InstructionRow) := do
  let name ← raw.fieldD "name" .null
  if !name.isGiven then throw (.description (.unnamedInstruction program))
  match argumentFields ds (← raw.fieldOr "args" (.list [])) with
  | .error (.payload (.unsupportedType _)) => pure none
  | .error fault => throw fault
  | .ok fields =>
      let discriminator ←
        match ← raw.fieldD "discriminator" .null with
        | .null => nameDiscriminator name
        | explicit => explicitDiscriminator explicit
      if discriminator.length ≠ Discriminator.nameSize then
        throw (.description (.wrongDiscriminator program name.plain))
      let display ← instructionName name
      let accounts ← groupNames (← raw.fieldOr "accounts" (.list []))
      pure (some ⟨discriminator, display, fields, accounts⟩)

/-- A text that counts as given, as a document's value. -/
def given (t : Option Text) : Json :=
  (t.map Json.text).getD .null

/-- The program that a description is for: the one asked for, else that of the description. -/
def programKey (idl metadata : Json) (program : Option Text) : Except Fault Pubkey := do
  let address ←
    if (given program).isGiven then pure (given program)
    else
      let own ← idl.fieldD "address" .null
      if own.isGiven then pure own else metadata.fieldD "address" .null
  match address with
  | .null => throw (.description .noAddress)
  | address =>
      match Pubkey.ofText? address.plain with
      | some key => pure key
      | none => throw (if address.plain.chars?.isSome then .badValue else .notEncodable)

/-- The name of a description, else the key of its program. -/
def programName (idl metadata : Json) (program : Pubkey) : Except Fault Json := do
  let own ← idl.fieldD "name" .null
  if own.isGiven then pure own
  else metadata.fieldOr "name" (.text program.text)

/-- The label of a program: the one asked for, else its name as a title. -/
def programTitle (name : Json) (label : Option Text) : Except Fault Text :=
  match label with
  | some label => if label.isEmpty then fromName else .ok label
  | none => fromName
where
  fromName : Except Fault Text :=
    match name with
    | .text name => .ok (Naming.title name)
    | _ => .error .noSuchMember

/-- The decoder of a description, for a program and with a label of one's own where they are
given. -/
def table (idl : Json) (program label : Option Text) : Except Fault ProgramTable := do
  let metadata ← idl.fieldOr "metadata" (.object [])
  let key ← programKey idl metadata program
  let name ← programName idl metadata key
  let ds ← declarations (← idl.fieldOr "types" (.list []))
  let raw ← (← idl.fieldOr "instructions" (.list [])).elements
  let rows ← raw.filterMapM (row? ds name.plain)
  let title ← programTitle name label
  match ProgramTable.ofRows key title Discriminator.nameSize rows with
  | .ok t => pure t
  | .error e => throw (.table e)

end SolanaTx.Idl
