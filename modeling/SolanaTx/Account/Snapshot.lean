import SolanaTx.Instruction
import SolanaTx.Json.Access
import SolanaTx.PubkeyMap

/-!
# Account snapshots

The state of accounts before or after a transaction. An account that does not
exist has no snapshot.
-/

namespace SolanaTx

/-- An account at one time. Owner and data length are unknown where the source has only balances. -/
structure AccountSnapshot where
  pubkey : Pubkey
  owner : Option Pubkey
  lamports : Int
  dataLength : Option Int

/-- Snapshots by account. -/
abbrev Snapshots := PubkeyMap AccountSnapshot

/-- What a look-up of an account gives. -/
structure Account where
  lamports : Int
  owner : Option Pubkey := none
  data : Bytes := []

namespace Snapshots

/-- The snapshots of the accounts that exist, among those asked for. -/
def capture (keys : List Pubkey) (lookUp : Pubkey → Option Account) : Snapshots :=
  keys.foldl (fun found key =>
    match lookUp key with
    | some account =>
        found.insert key ⟨key, account.owner, account.lamports, some account.data.length⟩
    | none => found) {}

/-- Adds the snapshots of accounts with balances that count as given; others do not exist. -/
def addBalances (found : Snapshots) : List (Pubkey × Json) → Except Fault Snapshots
  | [] => .ok found
  | (key, balance) :: rest =>
      if balance.isGiven then do
        let lamports ← balance.toWhole
        addBalances (found.insert key ⟨key, none, lamports, none⟩) rest
      else addBalances found rest

/-- Snapshots of accounts from a reported array of balances, one for each account. -/
def ofBalances (keys : List Pubkey) (balances : Json) : Except Fault Snapshots := do
  addBalances {} (keys.zip (← balances.elements))

end Snapshots

/-- The programs and accounts of instructions, each once, in the order of first mention. -/
def mentionedKeys (instructions : List Instruction) : List Pubkey :=
  (instructions.flatMap fun i => i.program :: i.accounts.map (·.pubkey)).eraseDups

/-- A call as it may be listed: with its place below the top, or as an instruction alone. -/
inductive ListedCall where
  | placed (call : InnerInstruction)
  | bare (instruction : Instruction)

def ListedCall.instruction : ListedCall → Instruction
  | placed call => call.instruction
  | bare instruction => instruction

/-- The accounts that snapshots are taken of: those of the instructions, and then those of the
calls. -/
def accountsOfInterest (instructions : List Instruction) (calls : List ListedCall) : List Pubkey :=
  mentionedKeys (instructions ++ calls.map ListedCall.instruction)

end SolanaTx
