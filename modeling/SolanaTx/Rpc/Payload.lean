import SolanaTx.Bytes.Base58
import SolanaTx.Bytes.Base64
import SolanaTx.Fault
import SolanaTx.Text.Blank

/-!
# Reported payloads

A node reports the payload of an instruction in base 58, or as a pair of a text
and the word `base64`. Base 64 text is taken on its own too, where it is no base
58 text.
-/

namespace SolanaTx.Rpc

/-- The bytes of a text on its own. Blanks may follow base 58 digits, but not base 64 ones. -/
def payloadOfText? (t : Text) : Option Bytes :=
  match Bytes.ofBase58? (Text.trimEnd t) with
  | some data => some data
  | none => Bytes.ofBase64? true t

/-- What was read, or the fault of a text that writes no bytes. -/
def readOrFail : Option Bytes → Except Fault Bytes
  | some data => .ok data
  | none => .error .badValue

/-- The payload that a value with no encoding beside it reports. One that does not count as given is
empty. -/
def plainPayload : Json → Except Fault Bytes
  | .text t => if t.isEmpty then .ok [] else readOrFail (payloadOfText? t)
  | j => if j.isGiven then .error .noSuchMember else .ok []

/-- The payload that a value reports. -/
def payload : Json → Except Fault Bytes
  | .list [data, .text encoding] =>
      if encoding = "base64" then
        match data with
        | .text t => readOrFail (Bytes.ofBase64? false t)
        | _ => .error .wrongKind
      else plainPayload (.list [data, .text encoding])
  | j => plainPayload j

end SolanaTx.Rpc
