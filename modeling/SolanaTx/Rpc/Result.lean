import SolanaTx.Json.Printer
import SolanaTx.Rpc.Accounts
import SolanaTx.Rpc.Payload
import SolanaTx.Transaction.Basic
import SolanaTx.Transaction.ComputeLimit

/-!
# Reported transactions

What a node answers when it is asked for a transaction. Fields may be missing, but
a message that cannot be read makes the answer one without a transaction.
-/

namespace SolanaTx.Rpc

/-- A transaction as a node reports it, and the balances before and after. -/
structure Result where
  transaction : Transaction
  pre : Snapshots
  post : Snapshots

/-- The result inside a response, or else the document itself. -/
def unwrap (document : Json) : Json :=
  match document.get? "result" with
  | some (.object fields) => .object fields
  | _ => document

/-- The message of a result, if it has one that is not empty. -/
def message? (result : Json) : Option Json :=
  match (result.get? "transaction").bind (·.get? "message") with
  | some (.object (field :: fields)) => some (.object (field :: fields))
  | _ => none

/-- What a result says of the execution. -/
def details (result : Json) : Json :=
  match result.get? "meta" with
  | some (.object fields) => .object fields
  | _ => .object []

/-! ## The message -/

def instruction (accounts : List AccountMeta) (compiled : Json) : Except Fault Instruction := do
  let programPlace ← (← compiled.need "programIdIndex").toWhole
  let places ← (← compiled.fieldOr "accounts" (.list [])).elements
  let used ← places.mapM fun place => do accountAt accounts (← place.toWhole)
  let program ← accountAt accounts programPlace
  let data ← payload (← compiled.fieldD "data" .null)
  pure ⟨program.pubkey, data, used⟩

/-- The calls of one instruction at the top. -/
def callBlock (accounts : List AccountMeta) (block : Json) :
    Except Fault (List InnerInstruction) := do
  let parent ← (← block.need "index").toWhole
  let calls ← (← block.fieldOr "instructions" (.list [])).elements
  calls.mapM fun call => do
    pure ⟨parent, ← instruction accounts call, .ofJson (← call.fieldD "stackHeight" .null)⟩

/-- What a message holds, with the calls that its instructions have made. -/
structure Message where
  accounts : List AccountMeta
  instructions : List Instruction
  inner : List InnerInstruction

def Message.read (message details : Json) : Except Fault Message := do
  let accounts ← messageAccounts message details
  let instructions ← (← (← message.fieldOr "instructions" (.list [])).elements).mapM
    (instruction accounts)
  let blocks ← (← (← details.fieldOr "innerInstructions" (.list [])).elements).mapM
    (callBlock accounts)
  pure ⟨accounts, instructions, blocks.flatten⟩

/-- Whether a fault in a message only says that there is no transaction. -/
def isUnreadable : Fault → Bool
  | .wrongKind | .badValue | .missingField | .outOfRange => true
  | _ => false

/-- The message, if it can be read. -/
def Message.read? (message details : Json) : Except Fault (Option Message) :=
  match Message.read message details with
  | .ok m => .ok (some m)
  | .error fault => if isUnreadable fault then .ok none else .error fault

/-! ## The rest of a result -/

/-- The first of some signatures; there may be none. -/
def firstSignature (signatures : Json) : Except Fault Json :=
  if signatures.isGiven then
    match signatures with
    | .list (signature :: _) => .ok signature
    | .text t => .ok (.text (t.take 1))
    | .object _ => .error .missingField
    | _ => .error .wrongKind
  else .ok ""

/-- A transaction fails with an error, which is shown as JSON where it is no text. The error is
taken to be of a document that was read: its numbers can be written, and it is not too deep for
that. -/
def statusOf (error : Json) : TransactionStatus :=
  match error with
  | .null => .success
  | .text t => .failed (some t)
  | j => .failed (some j.render)

/-- A whole number that is 0 where the field does not count as given. -/
def count (j : Json) (field : Text) : Except Fault Int := do
  (← j.fieldOr field (.int 0)).toWhole

/-- The transaction that a document reports, if it holds one. -/
def Result.ofJson? (document : Json) : Except Fault (Option Result) := do
  let result := unwrap document
  let details := details result
  match message? result with
  | none => pure none
  | some message =>
      match ← Message.read? message details with
      | none => pure none
      | some m =>
          let keys := m.accounts.map (·.pubkey)
          let transaction ← result.fieldD "transaction" .null
          let signature ← firstSignature (← transaction.fieldD "signatures" .null)
          let logs ← (← details.fieldOr "logMessages" (.list [])).elements
          let error ← details.fieldD "err" .null
          let slot ← count result "slot"
          let fee ← count details "fee"
          let computeUsed ← count details "computeUnitsConsumed"
          let pre ← Snapshots.ofBalances keys (← details.fieldOr "preBalances" (.list []))
          let post ← Snapshots.ofBalances keys (← details.fieldOr "postBalances" (.list []))
          let transaction : Transaction := {
            signature, instructions := m.instructions, inner := m.inner, logs
            status := statusOf error, slot, fee, computeUsed
            computeLimit := ComputeLimit.ofInstructions m.instructions }
          pure (some ⟨transaction, pre, post⟩)

/-- Decodes a reported transaction. -/
def Result.decode (result : Result) (r : Registry) : Except Fault DecodedTransaction :=
  result.transaction.decode r (some result.pre) (some result.post)

end SolanaTx.Rpc
