import SolanaTx.Proofs.Account.Balances
import SolanaTx.Proofs.Rpc.Parts
import SolanaTx.Proofs.Rpc.Payload
import SolanaTx.Proofs.Rpc.Roles
import SolanaTx.Proofs.Text.Word

/-!
# Transactions recovered from reports

A transaction that a node reports is read as it is, whether the document is the result itself or a
response around it. Instructions and calls refer to the accounts of the message by their places.
-/

namespace SolanaTx.Rpc

open Fallible

variable {a : Accounts} {document result message details : Json}

/-! ## Instructions by places -/

/-- An instruction that refers to the accounts of a message. -/
structure Compiled (a : Accounts) where
  program : Fin a.all.length
  accounts : List (Fin a.all.length)
  data : Bytes

def Compiled.instruction (c : Compiled a) : Instruction :=
  ⟨a.all[c.program], c.data, c.accounts.map a.role⟩

structure Compiled.IsWrittenAs (c : Compiled a) (entry : Json) : Prop where
  program : entry.get? "programIdIndex" = some (.int c.program.val)
  accounts : entry.HasList "accounts" (c.accounts.map fun i => .int i.val)
  data : entry.get? "data" = some (.text (Bytes.toBase58 c.data))

/-- A called instruction, with the height of the stack where it is known. -/
structure Call (a : Accounts) where
  compiled : Compiled a
  height : Option Int

structure Call.IsWrittenAs (c : Call a) (entry : Json) : Prop where
  compiled : c.compiled.IsWrittenAs entry
  height : (entry.get? "stackHeight").getD .null = c.height.elim .null .int

/-- The calls of the instruction at a place at the top. -/
structure Block (a : Accounts) where
  parent : Int
  calls : List (Call a)

def Block.inner (b : Block a) : List InnerInstruction :=
  b.calls.map fun c => ⟨b.parent, c.compiled.instruction, c.height.elim .unreported .level⟩

structure Block.IsWrittenAs (b : Block a) (entry : Json) : Prop where
  parent : entry.get? "index" = some (.int b.parent)
  calls : ∃ items, entry.HasList "instructions" items ∧
    List.Forall₂ Call.IsWrittenAs b.calls items

theorem instruction_eq {c : Compiled a} {entry : Json} (h : c.IsWrittenAs entry) :
    instruction a.roles entry = .ok c.instruction := by
  have hused : (c.accounts.map fun i => Json.int i.val).mapM
      (fun place => do accountAt a.roles (← place.toWhole)) = .ok (c.accounts.map a.role) := by
    apply mapM_map_eq_ok
    intro i
    rw [Json.toWhole, ok_bind, a.accountAt_roles]
  rw [instruction, Json.need_of_get? h.program, ok_bind, Json.toWhole, ok_bind,
    h.accounts.fieldOr_eq, ok_bind, Json.elements, ok_bind, hused, ok_bind, a.accountAt_roles,
    ok_bind, Json.fieldD_of_get? _ h.data, ok_bind, payload_toBase58]
  rfl

theorem callBlock_eq {b : Block a} {entry : Json} (h : b.IsWrittenAs entry) :
    callBlock a.roles entry = .ok b.inner := by
  obtain ⟨items, hitems, hcalls⟩ := h.calls
  rw [callBlock, Json.need_of_get? h.parent, ok_bind, Json.toWhole, ok_bind, hitems.fieldOr_eq,
    ok_bind, Json.elements, ok_bind]
  apply mapM_eq_ok_of_forall₂ _ hcalls
  intro c item hc
  have hheight : item.fieldD "stackHeight" .null = .ok (c.height.elim .null .int) := by
    obtain ⟨fields, rfl⟩ := Json.exists_object_of_get? hc.compiled.program
    rw [Json.fieldD_object, ← hc.height]
    rfl
  rw [instruction_eq hc.compiled, ok_bind, hheight, ok_bind]
  cases c.height <;> rfl

/-! ## Whole transactions -/

/-- A transaction as a node knows it. -/
structure Reported where
  accounts : Accounts
  instructions : List (Compiled accounts)
  blocks : List (Block accounts)
  signatures : List Text
  logs : List Text
  /-- The error of the transaction; there is none where it is `null`. -/
  error : Json
  slot : Int
  fee : Int
  computeUsed : Int
  preBalances : List Int
  postBalances : List Int

namespace Reported

variable {r : Reported}

/-- The accounts and the instructions as they are to be read; calls stand in the order of their
blocks. -/
def content (r : Reported) : Message where
  accounts := r.accounts.roles
  instructions := r.instructions.map Compiled.instruction
  inner := r.blocks.flatMap Block.inner

def transaction (r : Reported) : Transaction where
  signature := (r.signatures.head?.map Json.text).getD ""
  instructions := r.content.instructions
  inner := r.content.inner
  logs := r.logs.map .text
  status := statusOf r.error
  slot := r.slot
  fee := r.fee
  computeUsed := r.computeUsed
  computeLimit := ComputeLimit.ofInstructions r.content.instructions

/-- Whether a message and the details of its execution report what the transaction does. -/
structure MessageIsWrittenIn (r : Reported) (message details : Json) : Prop where
  accounts : r.accounts.AreWrittenIn message details
  instructions : ∃ items, message.HasList "instructions" items ∧
    List.Forall₂ Compiled.IsWrittenAs r.instructions items
  blocks : ∃ items, details.HasList "innerInstructions" items ∧
    List.Forall₂ Block.IsWrittenAs r.blocks items

/-- Whether the details of the execution report how it went. -/
structure OutcomeIsWrittenIn (r : Reported) (details : Json) : Prop where
  logs : details.HasList "logMessages" (r.logs.map .text)
  error : (details.get? "err").getD .null = r.error
  fee : details.HasNumber "fee" r.fee
  computeUsed : details.HasNumber "computeUnitsConsumed" r.computeUsed
  preBalances : details.HasList "preBalances" (r.preBalances.map .int)
  postBalances : details.HasList "postBalances" (r.postBalances.map .int)

/-- Whether a result reports a transaction. -/
structure IsWrittenIn (r : Reported) (result : Json) : Prop where
  parts : ∃ transaction message details, result.get? "transaction" = some transaction ∧
    transaction.get? "message" = some message ∧ result.HasObject "meta" details ∧
    transaction.HasList "signatures" (r.signatures.map .text) ∧
    r.MessageIsWrittenIn message (.object details) ∧ r.OutcomeIsWrittenIn (.object details)
  slot : result.HasNumber "slot" r.slot

theorem read_eq (h : r.MessageIsWrittenIn message details) :
    Message.read message details = .ok r.content := by
  obtain ⟨entries, hentries, hinstructions⟩ := h.instructions
  obtain ⟨blocks, hblocks, hcalls⟩ := h.blocks
  have hread : entries.mapM (instruction r.accounts.roles) =
      .ok (r.instructions.map Compiled.instruction) :=
    mapM_eq_ok_of_forall₂ (fun _ _ => instruction_eq) hinstructions
  have hinner : blocks.mapM (callBlock r.accounts.roles) = .ok (r.blocks.map Block.inner) :=
    mapM_eq_ok_of_forall₂ (fun _ _ => callBlock_eq) hcalls
  rw [Message.read, h.accounts.messageAccounts_eq, ok_bind, hentries.fieldOr_eq, ok_bind,
    Json.elements, ok_bind, hread, ok_bind, hblocks.fieldOr_eq, ok_bind, Json.elements, ok_bind,
    hinner, ok_bind, content, List.flatMap_def]
  rfl

/-- A document is a result itself, or a response with the result in it. -/
def Carries (document result : Json) : Prop :=
  document = result ∧ (∀ fields, document.get? "result" ≠ some (.object fields)) ∨
    document.get? "result" = some result

theorem unwrap_eq {fields : Json.Fields} (h : Carries document (.object fields)) :
    unwrap document = .object fields := by
  rw [unwrap]
  rcases h with ⟨rfl, hnot⟩ | h
  · split
    · next inner hinner => exact absurd hinner (hnot inner)
    · rfl
  · rw [h]

theorem firstSignature_eq {transaction : Json}
    (h : transaction.HasList "signatures" (r.signatures.map .text)) :
    (transaction.fieldD "signatures" .null >>= firstSignature) =
      .ok ((r.signatures.head?.map Json.text).getD "") := by
  rcases h with h | ⟨hempty, ⟨fields, rfl⟩, hnot⟩
  · rw [Json.fieldD_of_get? _ h, ok_bind]
    cases r.signatures <;> rfl
  · have hnone : r.signatures = [] := List.map_eq_nil_iff.mp (Json.list.inj hempty)
    rw [Json.get?] at hnot
    rw [Json.fieldD_object, hnot, ok_bind, hnone]
    rfl

theorem count_eq {j : Json} {field : Text} {n : Int} (h : j.HasNumber field n) :
    count j field = .ok n := by
  rw [count, h.fieldOr_eq]
  rfl

theorem details_eq {fields : Json.Fields} (h : result.HasObject "meta" fields) :
    Rpc.details result = .object fields := by
  rw [Rpc.details]
  rcases h with h | ⟨hempty, -, hnot⟩
  · rw [h]
  · split
    · next other hother =>
      rw [hother] at hnot
      cases hnot
    · rw [hempty]

theorem message?_eq {transaction header : Json}
    (htransaction : result.get? "transaction" = some transaction)
    (hmessage : transaction.get? "message" = some message)
    (hheader : message.get? "header" = some header) : message? result = some message := by
  obtain ⟨fields, rfl⟩ := Json.exists_object_of_get? hheader
  rw [message?, htransaction, Option.bind_some, hmessage]
  cases fields with
  | nil => cases hheader
  | cons field rest => rfl

theorem map_pubkey_roles (a : Accounts) : a.roles.map (·.pubkey) = a.all := by
  rw [Accounts.roles, List.map_ofFn]
  exact List.ofFn_getElem

theorem isMadeOf_of_isWrittenIn {pre post : Snapshots} (h : r.IsWrittenIn result)
    (hpre : Snapshots.ofBalances r.accounts.all (.list (r.preBalances.map .int)) = .ok pre)
    (hpost : Snapshots.ofBalances r.accounts.all (.list (r.postBalances.map .int)) = .ok post) :
    Result.IsMadeOf ⟨r.transaction, pre, post⟩ r.content result := by
  obtain ⟨transaction, message, details, htransaction, -, hmeta, hsignatures, -, houtcome⟩ :=
    h.parts
  have hdetails := details_eq hmeta
  constructor
  · rfl
  · rfl
  · rfl
  · exact ⟨transaction, htransaction, firstSignature_eq hsignatures⟩
  · rw [hdetails, houtcome.logs.fieldOr_eq]
    rfl
  · refine ⟨r.error, ?_, rfl⟩
    rw [hdetails, Json.fieldD_object, ← houtcome.error]
    rfl
  · exact count_eq h.slot
  · rw [hdetails]
    exact count_eq houtcome.fee
  · rw [hdetails]
    exact count_eq houtcome.computeUsed
  · rw [hdetails, houtcome.preBalances.fieldOr_eq, ok_bind, content, map_pubkey_roles, hpre]
  · rw [hdetails, houtcome.postBalances.fieldOr_eq, ok_bind, content, map_pubkey_roles, hpost]

/-- The message, the details and the other fields are read as they are reported. -/
theorem ofJson?_eq (h : r.IsWrittenIn result) (hcarries : Carries document result) :
    ∃ pre post, Result.ofJson? document = .ok (some ⟨r.transaction, pre, post⟩) ∧
      Snapshots.ofBalances r.accounts.all (.list (r.preBalances.map .int)) = .ok pre ∧
      Snapshots.ofBalances r.accounts.all (.list (r.postBalances.map .int)) = .ok post := by
  obtain ⟨transaction, message, details, htransaction, hmessage, hmeta, -, hread, -⟩ := h.parts
  obtain ⟨header, hheader, -⟩ := hread.accounts.header
  obtain ⟨pre, hpre⟩ := Snapshots.exists_ofBalances r.accounts.all r.preBalances
  obtain ⟨post, hpost⟩ := Snapshots.exists_ofBalances r.accounts.all r.postBalances
  obtain ⟨fields, rfl⟩ := Json.exists_object_of_get? htransaction
  have hfound : message? (unwrap document) = some message := by
    rw [unwrap_eq hcarries, message?_eq htransaction hmessage hheader]
  have hm : Message.read message (Rpc.details (unwrap document)) = .ok r.content := by
    rw [unwrap_eq hcarries, details_eq hmeta, read_eq hread]
  refine ⟨pre, post, (ofJson?_of_read hfound hm).mpr ⟨_, rfl, ?_⟩, hpre, hpost⟩
  rw [unwrap_eq hcarries]
  exact isMadeOf_of_isWrittenIn h hpre hpost

/-- A reported transaction is recovered: its instructions and its calls in their order, each with
the program and the accounts at the places it names. An account signs, or may be written, by where
it stands among the keys. -/
theorem ofJson?_recovers (h : r.IsWrittenIn result) (hcarries : Carries document result) :
    (∃ pre post, Result.ofJson? document = .ok (some ⟨r.transaction, pre, post⟩) ∧
      Snapshots.ofBalances r.accounts.all (.list (r.preBalances.map .int)) = .ok pre ∧
      Snapshots.ofBalances r.accounts.all (.list (r.postBalances.map .int)) = .ok post) ∧
    (∀ i : Fin r.accounts.all.length,
      (r.accounts.role i).pubkey = r.accounts.all[i] ∧
      ((r.accounts.role i).isSigner = true ↔ i.val < r.accounts.signers) ∧
      ((r.accounts.role i).isWritable = true ↔
        i.val < r.accounts.signers - r.accounts.readonlySigners ∨
        r.accounts.signers ≤ i.val ∧
          i.val < r.accounts.keys.length - r.accounts.readonlyOthers ∨
        r.accounts.keys.length ≤ i.val ∧
          i.val < r.accounts.keys.length + r.accounts.loadedWritable.length)) ∧
    r.accounts.roles.countP (·.isSigner) = r.accounts.signers ∧
    r.accounts.roles.countP (fun account => !account.isWritable) =
      r.accounts.readonlySigners + r.accounts.readonlyOthers +
        r.accounts.loadedReadonly.length := by
  refine ⟨ofJson?_eq h hcarries, fun i => ⟨rfl, ?_, ?_⟩, r.accounts.countP_isSigner,
    r.accounts.countP_isReadonly⟩
  · exact decide_eq_true_iff
  · exact decide_eq_true_iff

/-- An instruction and a call of it, each with a loaded key, in a response. -/
theorem ofJson?_recovers_loaded :
    ∃ (key : UInt8 → Pubkey) (message details : Json) (transaction : Transaction)
      (pre post : Snapshots),
      (∀ n, (key n).bytes = List.replicate 32 n) ∧
      message = .object [
        ("header", .object [("numRequiredSignatures", .int 2),
          ("numReadonlySignedAccounts", .int 1), ("numReadonlyUnsignedAccounts", .int 1)]),
        ("accountKeys", .list [.text (key 0).text, .object [("pubkey", .text (key 1).text)],
          .text (key 2).text, .text (key 3).text]),
        ("instructions", .list [.object [("programIdIndex", .int 3),
          ("accounts", .list [.int 1, .int 4]), ("data", .text (Bytes.toBase58 [7]))]])] ∧
      details = .object [("err", .null), ("fee", .int 5000),
        ("loadedAddresses", .object [("writable", .list [.text (key 4).text]),
          ("readonly", .list [.text (key 5).text])]),
        ("innerInstructions", .list [.object [("index", .int 0), ("instructions", .list [
          .object [("programIdIndex", .int 5), ("accounts", .list [.int 0, .int 2]),
            ("data", .text (Bytes.toBase58 [])), ("stackHeight", .int 2)]])]])] ∧
      Result.ofJson? (.object [("result", .object [("slot", .int 321),
        ("transaction", .object [("signatures", .list ["first", "second"]),
          ("message", message)]), ("meta", details)])]) =
        .ok (some ⟨transaction, pre, post⟩) ∧
      transaction.signature = "first" ∧ transaction.slot = 321 ∧ transaction.fee = 5000 ∧
      transaction.instructions =
        [⟨key 3, [7], [⟨key 1, true, false⟩, ⟨key 4, false, true⟩]⟩] ∧
      transaction.inner =
        [⟨0, ⟨key 5, [], [⟨key 0, true, true⟩, ⟨key 2, false, true⟩]⟩, .level 2⟩] := by
  obtain ⟨key, hkey⟩ : ∃ key : UInt8 → Pubkey, ∀ n, (key n).bytes = List.replicate 32 n :=
    ⟨fun n => ⟨List.replicate 32 n, List.length_replicate⟩, fun _ => rfl⟩
  let a : Accounts := {
    keys := [key 0, key 1, key 2, key 3]
    signers := 2
    readonlySigners := 1
    readonlyOthers := 1
    loadedWritable := [key 4]
    loadedReadonly := [key 5]
    signers_le := Nat.le_of_ble_eq_true rfl
    readonlySigners_le := Nat.le_of_ble_eq_true rfl
    readonlyOthers_le := Nat.le_of_ble_eq_true rfl }
  have hplace : ∀ i : Fin 6, i.val < a.all.length := fun i => i.isLt
  let swap : Compiled a := ⟨⟨3, hplace 3⟩, [⟨1, hplace 1⟩, ⟨4, hplace 4⟩], [7]⟩
  let transfer : Compiled a := ⟨⟨5, hplace 5⟩, [⟨0, hplace 0⟩, ⟨2, hplace 2⟩], []⟩
  let r : Reported := {
    accounts := a
    instructions := [swap]
    blocks := [⟨0, [⟨transfer, some 2⟩]⟩]
    signatures := ["first", "second"]
    logs := []
    error := .null
    slot := 321
    fee := 5000
    computeUsed := 0
    preBalances := []
    postBalances := [] }
  obtain ⟨message, hmessage⟩ : ∃ message : Json, message = .object [
      ("header", .object [("numRequiredSignatures", .int 2),
        ("numReadonlySignedAccounts", .int 1), ("numReadonlyUnsignedAccounts", .int 1)]),
      ("accountKeys", .list [.text (key 0).text, .object [("pubkey", .text (key 1).text)],
        .text (key 2).text, .text (key 3).text]),
      ("instructions", .list [.object [("programIdIndex", .int 3),
        ("accounts", .list [.int 1, .int 4]), ("data", .text (Bytes.toBase58 [7]))]])] :=
    ⟨_, rfl⟩
  obtain ⟨details, hdetails⟩ : ∃ details : Json, details = .object [
      ("err", .null), ("fee", .int 5000),
      ("loadedAddresses", .object [("writable", .list [.text (key 4).text]),
        ("readonly", .list [.text (key 5).text])]),
      ("innerInstructions", .list [.object [("index", .int 0), ("instructions", .list [
        .object [("programIdIndex", .int 5), ("accounts", .list [.int 0, .int 2]),
          ("data", .text (Bytes.toBase58 [])), ("stackHeight", .int 2)]])]])] := ⟨_, rfl⟩
  have hread : r.MessageIsWrittenIn message details := by
    subst hmessage hdetails
    refine ⟨⟨?_, ⟨_, rfl, rfl, rfl, rfl⟩, ⟨_, .inl rfl, .inl rfl, .inl rfl⟩⟩, ?_, ?_⟩
    · exact ⟨_, .inl rfl,
        .cons (.inl rfl) (.cons (.inr rfl) (.cons (.inl rfl) (.cons (.inl rfl) .nil)))⟩
    · exact ⟨_, .inl rfl, .cons ⟨rfl, .inl rfl, rfl⟩ .nil⟩
    · exact ⟨_, .inl rfl, .cons ⟨rfl, _, .inl rfl, .cons ⟨⟨rfl, .inl rfl, rfl⟩, rfl⟩ .nil⟩ .nil⟩
  have hempty : ∀ field : Text, details.get? field = none →
      details.Holds field (.list []) (.list []) ∧ details.Holds field (.int 0) (.int 0) := by
    intro field hfield
    have hnull : (details.get? field).getD .null = .null := by
      rw [hfield]
      rfl
    exact ⟨.inr ⟨rfl, ⟨_, hdetails⟩, hnull⟩, .inr ⟨rfl, ⟨_, hdetails⟩, hnull⟩⟩
  obtain ⟨result, hresult⟩ : ∃ result : Json, result = .object [("slot", .int 321),
      ("transaction", .object [("signatures", .list ["first", "second"]), ("message", message)]),
      ("meta", details)] := ⟨_, rfl⟩
  have hwritten : r.IsWrittenIn result := by
    subst hresult hdetails
    refine ⟨⟨_, _, _, rfl, rfl, .inl rfl, .inl rfl, hread, ?_⟩, .inl rfl⟩
    exact ⟨(hempty _ rfl).1, rfl, .inl rfl, (hempty _ rfl).2, (hempty _ rfl).1, (hempty _ rfl).1⟩
  have hcarries : Carries (.object [("result", result)]) result := .inr rfl
  obtain ⟨⟨pre, post, hjson, -, -⟩, -⟩ := ofJson?_recovers hwritten hcarries
  rw [hresult] at hjson
  exact ⟨key, message, details, r.transaction, pre, post, hkey, hmessage, hdetails, hjson, rfl,
    rfl, rfl, rfl, rfl⟩

end Reported

end SolanaTx.Rpc
