import SolanaTx.Instruction
import SolanaTx.Json.Access

/-!
# Accounts of a reported message

Instructions refer to accounts by their places in one list: the keys of the
message, of which a header says who signs and what may be written, and then the
keys loaded from look-up tables, those that may be written first.
-/

namespace SolanaTx.Rpc

/-- How many of the keys of a message sign, how many of those are only read, and how many of the
others. The keys that sign come first, and in either part those that are only read come last. -/
structure Header where
  signers : Int
  readonlySigners : Int
  readonlyOthers : Int

namespace Header

def ofMessage (message : Json) : Except Fault Header := do
  let header ← message.fieldOr "header" (.object [])
  let signers ← (← header.fieldD "numRequiredSignatures" (.int 1)).toWhole
  let readonlySigners ← (← header.fieldD "numReadonlySignedAccounts" (.int 0)).toWhole
  let readonlyOthers ← (← header.fieldD "numReadonlyUnsignedAccounts" (.int 0)).toWhole
  pure ⟨signers, readonlySigners, readonlyOthers⟩

def isSigner (h : Header) (i : Nat) : Bool :=
  (i : Int) < h.signers

/-- Whether the key at a place may be written, of `count` keys in all. -/
def isWritable (h : Header) (count i : Nat) : Bool :=
  if h.isSigner i then (i : Int) < h.signers - h.readonlySigners
  else (i : Int) < count - h.readonlyOthers

/-- The keys of a message with what the header says of them. -/
def accounts (h : Header) (keys : List Pubkey) : List AccountMeta :=
  keys.zipIdx.map fun (key, i) => ⟨key, h.isSigner i, h.isWritable keys.length i⟩

end Header

/-- What stands for a key: the entry itself, or its field `pubkey`. -/
def keyEntry : Json → Except Fault Json
  | .text t => .ok (.text t)
  | j => j.fieldD "pubkey" ""

def key : Json → Except Fault Pubkey
  | .text t =>
      match Pubkey.ofText? t with
      | some key => .ok key
      | none => .error .badValue
  | _ => .error .wrongKind

/-- Keys loaded from look-up tables, none of which signs. -/
def loadedAccounts (addresses : Json) (role : Text) (isWritable : Bool) :
    Except Fault (List AccountMeta) := do
  let entries ← (← addresses.fieldOr role (.list [])).elements
  entries.mapM fun entry => do pure ⟨← key entry, false, isWritable⟩

/-- All accounts that the instructions of a message can refer to. -/
def messageAccounts (message details : Json) : Except Fault (List AccountMeta) := do
  let entries ← (← (← message.fieldOr "accountKeys" (.list [])).elements).mapM keyEntry
  let header ← Header.ofMessage message
  let keys ← entries.mapM key
  let addresses ← details.fieldOr "loadedAddresses" (.object [])
  let writable ← loadedAccounts addresses "writable" true
  let readonly ← loadedAccounts addresses "readonly" false
  pure (header.accounts keys ++ writable ++ readonly)

/-- The account at a place. Places below zero count from the end. -/
def accountAt (accounts : List AccountMeta) (i : Int) : Except Fault AccountMeta :=
  let place := if i < 0 then i + accounts.length else i
  if place < 0 then .error .outOfRange
  else
    match accounts[place.toNat]? with
    | some account => .ok account
    | none => .error .outOfRange

end SolanaTx.Rpc
