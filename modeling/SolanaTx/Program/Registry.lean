import SolanaTx.Program.Table
import SolanaTx.PubkeyMap

/-!
# Registries of decoders

A registry holds one decoder for each program. Besides tables there are decoders
of another make, of which only the answers are known.
-/

namespace SolanaTx

/-- What a decoder of another make answers to a payload. -/
inductive ForeignAnswer where
  | decoded (instruction : DecodedInstruction)
  | nothing
  | failed (e : DecodeError)
  /-- It broke off with an error of its own kind. -/
  | raised (kind message : Text)

structure ForeignDecoder where
  program : Pubkey
  label : Text
  size : Option Int := none
  answer : Bytes → Nat → ForeignAnswer

/-- The outcome of an answer. No answer counts as an unknown discriminator, of eight bytes where
the decoder names no size. -/
def ForeignDecoder.decode (d : ForeignDecoder) (data : Bytes) (accounts : Nat) : Outcome :=
  match d.answer data accounts with
  | .decoded instruction => .ok instruction
  | .failed e => .error e
  | .raised kind message => .error (.decoderRaised kind message)
  | .nothing => .error (.unknownDiscriminator (data.before (d.size.getD 8)))

inductive Decoder where
  | table (t : ProgramTable)
  | foreign (d : ForeignDecoder)

namespace Decoder

def program : Decoder → Pubkey
  | table t => t.program
  | foreign d => d.program

def label : Decoder → Text
  | table t => t.label
  | foreign d => d.label

def decode (d : Decoder) (data : Bytes) (accounts : Nat) : Except Fault Outcome :=
  match d with
  | table t => t.decodeWithin Layout.maxDisplayDepth data accounts
  | foreign d => .ok (d.decode data accounts)

end Decoder

/-- Decoders by program. -/
abbrev Registry := PubkeyMap Decoder

namespace Registry

/-- Adds a decoder, in place of an earlier one for the same program. -/
def register (r : Registry) (d : Decoder) : Registry :=
  r.insert d.program d

def ofDecoders (ds : List Decoder) : Registry :=
  ds.foldl register {}

def label? (r : Registry) (program : Pubkey) : Option Text :=
  (r.get? program).map Decoder.label

/-- The labels of all programs, in the order of registration. -/
def labels (r : Registry) : PubkeyMap Text :=
  r.map Decoder.label

/-- Decodes a payload by the decoder of its program. -/
def decode (r : Registry) (program : Pubkey) (data : Bytes) (accounts : Nat) :
    Except Fault Outcome :=
  match r.get? program with
  | none => .ok (.error (.unknownProgram program))
  | some d => d.decode data accounts

/-- What a payload says, whatever the reason is that it says nothing. -/
def decoded? (r : Registry) (program : Pubkey) (data : Bytes) (accounts : Nat) :
    Except Fault (Option DecodedInstruction) := do
  pure (← r.decode program data accounts).toOption

end Registry

end SolanaTx
