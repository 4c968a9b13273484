import SolanaTx.Bytes.Hex
import SolanaTx.Json.Basic
import SolanaTx.Pubkey

/-!
# Payload errors

Why the payload of one instruction was not decoded. Such an error concerns that
instruction alone: the report shows the raw bytes in place of the fields.
-/

namespace SolanaTx

inductive DecodeError where
  /-- No decoder is registered for the program. -/
  | unknownProgram (program : Pubkey)
  /-- No instruction of the program starts with these bytes. -/
  | unknownDiscriminator (discriminator : Bytes)
  /-- The payload ends before the value that starts at `offset`. -/
  | truncated (needed available offset : Int)
  /-- No reader exists for values of this type. -/
  | unsupportedType (tag : Json)
  /-- The byte at `offset` is no option tag. -/
  | invalidOptionTag (tag : Nat) (offset : Int)
  /-- The byte at `offset` is the index of no variant. -/
  | invalidVariant (index : Nat) (offset : Int)
  /-- A decoder of another make broke off. -/
  | decoderRaised (kind message : Text)
  /-- A decoder of another make gave a reason of its own. -/
  | reason (message : Text)

namespace DecodeError

/-- A discriminator in messages. -/
def discriminatorText (discriminator : Bytes) : Text :=
  if discriminator.isEmpty then "<empty>" else discriminator.toHex

def message : DecodeError → Text
  | unknownProgram program => "no decoder registered for " ++ program.text
  | unknownDiscriminator discriminator =>
      "no instruction matches discriminator " ++ discriminatorText discriminator
  | truncated needed available offset =>
      "needed " ++ Decimal.ofInt needed ++ " bytes at offset " ++ Decimal.ofInt offset ++
        ", only " ++ Decimal.ofInt available ++ " available"
  | unsupportedType tag => "unsupported type tag " ++ tag.diagnostic
  | invalidOptionTag tag offset =>
      "invalid option tag " ++ Decimal.ofNat tag ++ " at offset " ++ Decimal.ofInt offset
  | invalidVariant index offset =>
      "invalid enum variant " ++ Decimal.ofNat index ++ " at offset " ++ Decimal.ofInt offset
  | decoderRaised kind message => "decoder raised " ++ kind ++ ": " ++ message
  | reason message => message

/-- The short reason shown beside the raw bytes. -/
def describe : DecodeError → Text
  | unknownProgram _ => "unknown program"
  | unknownDiscriminator discriminator =>
      "unknown discriminator " ++ discriminatorText discriminator
  | truncated needed available offset =>
      "truncated: needed " ++ Decimal.ofInt needed ++ " bytes at offset " ++
        Decimal.ofInt offset ++ ", had " ++ Decimal.ofInt available
  | e => if e.message.isEmpty then "decode error" else e.message

/-- The class of an error in one word. -/
def kind : DecodeError → Text
  | unknownProgram _ => "unknown_program"
  | unknownDiscriminator _ => "discriminator_mismatch"
  | truncated .. => "truncated_input"
  | unsupportedType _ => "unsupported_type"
  | _ => "decode_error"

/-- The same error in a payload with `size` more bytes in front. Only the offset of a truncation is
counted from the start of the whole payload. -/
def shift (size : Int) : DecodeError → DecodeError
  | truncated needed available offset => truncated needed available (offset + size)
  | e => e

/-- Whether the numbers of an error can be written. -/
def isWritable : DecodeError → Bool
  | truncated needed available offset => [needed, available, offset].all Decimal.isWritable
  | invalidOptionTag _ offset | invalidVariant _ offset => Decimal.isWritable offset
  | _ => true

end DecodeError

end SolanaTx
