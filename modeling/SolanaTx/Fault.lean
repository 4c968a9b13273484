import SolanaTx.DecodeError

/-!
# Faults

Why an operation gave no answer at all. Documents from outside are unchecked, so
most faults say how a value in one of them is unfit for its use.
-/

namespace SolanaTx

/-- Why a table of instructions makes no decoder. -/
inductive TableError where
  /-- Discriminators of this size are not supported. -/
  | unsupportedSize (label : Text) (size : Int)
  /-- The discriminator of an instruction has not the size of the table's. -/
  | wrongLength (label instruction : Text) (length : Nat) (size : Int)
  /-- Two instructions have one discriminator. -/
  | duplicate (label : Text) (discriminator : Bytes) (first second : Text)

def TableError.message : TableError → Text
  | unsupportedSize label size =>
      label ++ ": discriminator size must be one of (1, 4, 8), got " ++ Decimal.ofInt size
  | wrongLength label instruction length size =>
      label ++ "." ++ instruction ++ ": discriminator is " ++ Decimal.ofNat length ++
        " bytes, expected " ++ Decimal.ofInt size
  | duplicate label discriminator first second =>
      label ++ ": discriminator " ++ discriminator.toHex ++ " declared by both " ++ first ++
        " and " ++ second

/-- Why an interface description makes no decoder, where its values have the right kinds. -/
inductive DescriptionError where
  | noAddress
  | unnamedInstruction (program : Text)
  /-- An explicit discriminator has not eight bytes. -/
  | wrongDiscriminator (program instruction : Text)

def DescriptionError.message : DescriptionError → Text
  | noAddress => "IDL has no address; pass program_id explicitly"
  | unnamedInstruction program => program ++ ": instruction without a name"
  | wrongDiscriminator program instruction =>
      program ++ "." ++ instruction ++ ": discriminator must be 8 bytes"

inductive Fault where
  /-- A value of one kind stands where another kind is needed. -/
  | wrongKind
  /-- A value is of the right kind and still none of those allowed. -/
  | badValue
  /-- An object lacks a field. -/
  | missingField
  /-- A field is asked of a value that is no object. -/
  | noSuchMember
  /-- A position lies outside a list. -/
  | outOfRange
  /-- A number does not fit. -/
  | tooLarge
  /-- Types, calls or documents lead into one another too deep, or without end. -/
  | endless
  /-- A text holds half of a pair of code units where bytes in UTF-8 are needed. -/
  | notEncodable
  /-- A value names a variant that its type has not. -/
  | noVariant
  /-- Such a value stands inside a list. -/
  | noVariantInList
  | payload (e : DecodeError)
  | table (e : TableError)
  | description (e : DescriptionError)

def Fault.message : Fault → Text
  | wrongKind => "a value is of the wrong kind"
  | badValue => "a value is not allowed"
  | missingField => "a field is missing"
  | noSuchMember => "a value has no such field"
  | outOfRange => "a position is out of range"
  | tooLarge => "a number does not fit"
  | endless => "something leads into itself or too deep"
  | notEncodable => "a text has no form in UTF-8"
  | noVariant | noVariantInList => "a type has no such variant"
  | payload e => e.message
  | table e => e.message
  | description e => e.message

/-- The fault of a payload that is not decoded. Where a number of the error is too long to be
written, the value that led there is not allowed. -/
def Fault.inPayload (e : DecodeError) : Fault :=
  if e.isWritable then .payload e else .badValue

end SolanaTx
