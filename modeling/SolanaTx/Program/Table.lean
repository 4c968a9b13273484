import SolanaTx.Fault
import SolanaTx.Layout.Display

/-!
# Tables of instructions

A program has discriminators of one size and one row for each instruction. A
table keeps what its construction has checked: the size is supported, every
discriminator has it, and no two rows share one.
-/

namespace SolanaTx

/-- One row of a program's table. -/
structure InstructionRow where
  discriminator : Bytes
  name : Text
  fields : List Field := []
  accounts : List Json := []

/-- What a payload says. There is one name for each account of the instruction. -/
structure DecodedInstruction where
  program : Text
  name : Text
  fields : List DecodedField := []
  accounts : List Json := []

/-- The text of the first field with a name. -/
def DecodedInstruction.fieldValue? (d : DecodedInstruction) (name : Json) : Option Text :=
  (d.fields.find? fun field => field.name.isEqual name).map (·.value)

/-- Either what a payload says or why it says nothing. -/
abbrev Outcome := Except DecodeError DecodedInstruction

/-- The declared names of `count` accounts; an account without one is named by its place. -/
def accountNames (declared : List Json) (count : Int) : List Json :=
  let names := declared.take (Bytes.position declared.length count)
  names ++ ((List.range count.toNat).drop names.length).map fun i =>
    .text ("account_" ++ Decimal.ofNat i)

/-- The first row that breaks a rule, of a table of which `seen` holds the rows before. -/
def findOffence? (label : Text) (size : Nat) :
    List (Bytes × Text) → List InstructionRow → Option TableError
  | _, [] => none
  | seen, row :: rest =>
      if row.discriminator.length ≠ size then
        some (.wrongLength label row.name row.discriminator.length size)
      else
        match seen.lookup row.discriminator with
        | some first => some (.duplicate label row.discriminator first row.name)
        | none => findOffence? label size (seen ++ [(row.discriminator, row.name)]) rest

theorem findOffence?_eq_none {label : Text} {size : Nat} {seen : List (Bytes × Text)}
    {rows : List InstructionRow} (h : findOffence? label size seen rows = none) :
    (∀ row ∈ rows, row.discriminator.length = size) ∧
      (rows.map (·.discriminator)).Nodup ∧
      ∀ row ∈ rows, seen.lookup row.discriminator = none := by
  induction rows generalizing seen with
  | nil => simp
  | cons row rest ih =>
    unfold findOffence? at h
    split at h
    · cases h
    · next hsize =>
      split at h
      · cases h
      · next hseen =>
        obtain ⟨hlength, hnodup, hfresh⟩ := ih h
        have hother : ∀ other ∈ rest,
            other.discriminator ≠ row.discriminator ∧ seen.lookup other.discriminator = none := by
          intro other hmem
          have := hfresh other hmem
          rw [List.lookup_append] at this
          cases hlook : seen.lookup other.discriminator with
          | some first => simp [hlook] at this
          | none =>
            refine ⟨fun heq => ?_, rfl⟩
            simp [heq] at this
        refine ⟨?_, ?_, ?_⟩
        · intro other hmem
          rcases List.mem_cons.mp hmem with rfl | hmem
          · exact Decidable.not_not.mp hsize
          · exact hlength other hmem
        · rw [List.map_cons, List.nodup_cons]
          refine ⟨fun hmem => ?_, hnodup⟩
          obtain ⟨other, hother', heq⟩ := List.mem_map.mp hmem
          exact (hother other hother').1 heq
        · intro other hmem
          rcases List.mem_cons.mp hmem with rfl | hmem
          · exact hseen
          · exact (hother other hmem).2

structure ProgramTable where
  program : Pubkey
  label : Text
  size : Nat
  rows : List InstructionRow
  size_supported : size = 1 ∨ size = 4 ∨ size = 8
  length_eq : ∀ row ∈ rows, row.discriminator.length = size
  nodup : (rows.map (·.discriminator)).Nodup

namespace ProgramTable

/-- The table of a program, or the first rule that it breaks. -/
def ofRows (program : Pubkey) (label : Text) (size : Int) (rows : List InstructionRow) :
    Except TableError ProgramTable :=
  if hsize : size.toNat = 1 ∨ size.toNat = 4 ∨ size.toNat = 8 then
    match h : findOffence? label size.toNat [] rows with
    | some e => .error e
    | none =>
        .ok ⟨program, label, size.toNat, rows, hsize, (findOffence?_eq_none h).1,
          (findOffence?_eq_none h).2.1⟩
  else .error (.unsupportedSize label size)

/-- The row with a discriminator. -/
def find? (t : ProgramTable) (discriminator : Bytes) : Option InstructionRow :=
  t.rows.find? fun row => row.discriminator == discriminator

/-- Decodes a payload for `accounts` accounts, on as many levels as it takes: `decodeWithin` is for a
number of them. The bytes behind the discriminator are read by the fields of its row; offsets of
truncations are counted from the start of the payload. -/
def decode (t : ProgramTable) (data : Bytes) (accounts : Nat) : Except Fault Outcome :=
  if data.length < t.size then .ok (.error (.truncated t.size data.length 0))
  else
    match t.find? (data.take t.size) with
    | none => .ok (.error (.unknownDiscriminator (data.take t.size)))
    | some row =>
        match decodeFields (data.drop t.size) row.fields with
        | .ok (fields, _) =>
            .ok (.ok ⟨t.label, row.name, fields, accountNames row.accounts accounts⟩)
        | .error (.payload e) =>
            if (e.shift t.size).isWritable then .ok (.error (e.shift t.size)) else .error .badValue
        | .error fault => .error fault

/-- How many levels it takes to show what a payload says. -/
def displayDepth (t : ProgramTable) (data : Bytes) : Nat :=
  match t.find? (data.take t.size) with
  | some row => Layout.schemaDepth (data.drop t.size) row.fields
  | none => 0

/-- Decodes a payload and shows what it says on a number of levels. -/
def decodeWithin (limit : Nat) (t : ProgramTable) (data : Bytes) (accounts : Nat) :
    Except Fault Outcome := do
  let outcome ← t.decode data accounts
  if limit < t.displayDepth data then throw .endless
  pure outcome

/-- A line about a table. -/
def summary (t : ProgramTable) : Text :=
  "ProgramDecoder(" ++ Text.quoted t.label ++ ", " ++ t.program.text ++ ", " ++
    Decimal.ofNat t.rows.length ++ " instructions)"

end ProgramTable

end SolanaTx
