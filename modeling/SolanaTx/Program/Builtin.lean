import SolanaTx.Bytes.LittleEndian
import SolanaTx.Program.Registry
import SolanaTx.Pubkey.Known

/-!
# Decoders of native programs

The System Program numbers its instructions in four bytes, Compute Budget and the
two token programs in one. Instructions that take seeds are left out.
-/

namespace SolanaTx

/-- A row for the instruction with a number. -/
def numberedRow (size tag : Nat) (name : Text) (fields : List Field) (accounts : List Text) :
    InstructionRow :=
  ⟨Bytes.ofNat size tag, name, fields, accounts.map .text⟩

def systemRows : List InstructionRow := [
  numberedRow 4 0 "CreateAccount"
    [⟨"lamports", .u64, none⟩, ⟨"space", .u64, none⟩, ⟨"owner", .pubkey, none⟩]
    ["funding_account", "new_account"],
  numberedRow 4 1 "Assign" [⟨"owner", .pubkey, none⟩] ["assigned_account"],
  numberedRow 4 2 "Transfer" [⟨"lamports", .u64, none⟩] ["from", "to"],
  numberedRow 4 4 "AdvanceNonceAccount" []
    ["nonce_account", "recent_blockhashes_sysvar", "nonce_authority"],
  numberedRow 4 5 "WithdrawNonceAccount" [⟨"lamports", .u64, none⟩]
    ["nonce_account", "recipient", "recent_blockhashes_sysvar", "rent_sysvar", "nonce_authority"],
  numberedRow 4 6 "InitializeNonceAccount" [⟨"authority", .pubkey, none⟩]
    ["nonce_account", "recent_blockhashes_sysvar", "rent_sysvar"],
  numberedRow 4 7 "AuthorizeNonceAccount" [⟨"new_authority", .pubkey, none⟩]
    ["nonce_account", "nonce_authority"],
  numberedRow 4 8 "Allocate" [⟨"space", .u64, none⟩] ["new_account"],
  numberedRow 4 12 "UpgradeNonceAccount" [] ["nonce_account"]]

def computeBudgetRows : List InstructionRow := [
  numberedRow 1 0 "RequestUnits" [⟨"units", .u32, none⟩, ⟨"additional_fee", .u32, none⟩] [],
  numberedRow 1 1 "RequestHeapFrame" [⟨"bytes", .u32, none⟩] [],
  numberedRow 1 2 "SetComputeUnitLimit" [⟨"units", .u32, none⟩] [],
  numberedRow 1 3 "SetComputeUnitPrice" [⟨"micro_lamports", .u64, none⟩] [],
  numberedRow 1 4 "SetLoadedAccountsDataSizeLimit" [⟨"bytes", .u32, none⟩] []]

/-- The fields of the instructions that make a mint. -/
def mintFields : List Field := [
  ⟨"decimals", .u8, none⟩, ⟨"mint_authority", .pubkey, none⟩,
  ⟨"freeze_authority", .option .pubkey, none⟩]

def amountField : Field := ⟨"amount", .u64, none⟩

def decimalsField : Field := ⟨"decimals", .u8, none⟩

/-- The instructions that both token programs have. -/
def tokenRows : List InstructionRow := [
  numberedRow 1 0 "InitializeMint" mintFields ["mint", "rent_sysvar"],
  numberedRow 1 1 "InitializeAccount" [] ["account", "mint", "owner", "rent_sysvar"],
  numberedRow 1 2 "InitializeMultisig" [⟨"m", .u8, none⟩] ["multisig", "rent_sysvar"],
  numberedRow 1 3 "Transfer" [amountField] ["source", "destination", "authority"],
  numberedRow 1 4 "Approve" [amountField] ["source", "delegate", "owner"],
  numberedRow 1 5 "Revoke" [] ["source", "owner"],
  numberedRow 1 6 "SetAuthority"
    [⟨"authority_type", .u8, none⟩, ⟨"new_authority", .option .pubkey, none⟩]
    ["account", "current_authority"],
  numberedRow 1 7 "MintTo" [amountField] ["mint", "account", "mint_authority"],
  numberedRow 1 8 "Burn" [amountField] ["account", "mint", "authority"],
  numberedRow 1 9 "CloseAccount" [] ["account", "destination", "owner"],
  numberedRow 1 10 "FreezeAccount" [] ["account", "mint", "freeze_authority"],
  numberedRow 1 11 "ThawAccount" [] ["account", "mint", "freeze_authority"],
  numberedRow 1 12 "TransferChecked" [amountField, decimalsField]
    ["source", "mint", "destination", "authority"],
  numberedRow 1 13 "ApproveChecked" [amountField, decimalsField]
    ["source", "mint", "delegate", "owner"],
  numberedRow 1 14 "MintToChecked" [amountField, decimalsField]
    ["mint", "account", "mint_authority"],
  numberedRow 1 15 "BurnChecked" [amountField, decimalsField] ["account", "mint", "authority"],
  numberedRow 1 16 "InitializeAccount2" [⟨"owner", .pubkey, none⟩]
    ["account", "mint", "rent_sysvar"],
  numberedRow 1 17 "SyncNative" [] ["account"],
  numberedRow 1 18 "InitializeAccount3" [⟨"owner", .pubkey, none⟩] ["account", "mint"],
  numberedRow 1 20 "InitializeMint2" mintFields ["mint"]]

def systemTable : ProgramTable :=
  ⟨.systemProgram, "System Program", 4, systemRows, by decide, by decide, by decide⟩

def computeBudgetTable : ProgramTable :=
  ⟨.computeBudget, "Compute Budget", 1, computeBudgetRows, by decide, by decide, by decide⟩

def tokenTable : ProgramTable :=
  ⟨.tokenProgram, "Token Program", 1, tokenRows, by decide, by decide, by decide⟩

def token2022Table : ProgramTable :=
  ⟨.token2022, "Token 2022", 1, tokenRows, by decide, by decide, by decide⟩

def builtinDecoders : List Decoder :=
  [.table systemTable, .table computeBudgetTable, .table tokenTable, .table token2022Table]

namespace Registry

/-- The registry of the native programs, and of further decoders after them, each in place of a
native one for the same program. -/
def withBuiltins (extra : List Decoder) : Registry :=
  extra.foldl register (ofDecoders builtinDecoders)

end Registry

/-- The label of a program: that of its decoder, else that of a well-known account. An empty label
counts as none. -/
def programLabel (program : Pubkey) (registry : Option Registry) : Text :=
  let known := program.knownLabel?.getD "Unknown Program"
  match registry.bind fun r => r.label? program with
  | some label => if label.isEmpty then known else label
  | none => known

end SolanaTx
