import SolanaTx.Proofs.Fallible
import SolanaTx.Proofs.Json.Access
import SolanaTx.Rpc.Result

/-!
# Parts of a reported transaction

A document holds no transaction where it has no message or an unreadable one. Else the message is
read, and each part of the transaction comes from the message or from one field of the result.
-/

namespace SolanaTx.Rpc

open Fallible

variable {document result message : Json} {m : Message} {parsed : Result}

/-- Whether a fault in a message only says that there is no transaction. -/
def Unreadable (fault : Fault) : Prop :=
  isUnreadable fault = true

def IsObject (value : Json) : Prop :=
  ∃ fields, value = .object fields

theorem isObject_details (result : Json) : IsObject (details result) := by
  rw [details]
  split
  · exact ⟨_, rfl⟩
  · exact ⟨_, rfl⟩

/-- A result with a message has a transaction with it, and the message is an object. -/
theorem exists_of_message? (h : message? result = some message) : IsObject message ∧
    ∃ transaction, result.get? "transaction" = some transaction ∧
      transaction.get? "message" = some message := by
  rw [message?] at h
  split at h
  · next field fields hfound =>
    obtain ⟨transaction, htransaction, hmessage⟩ := Option.bind_eq_some_iff.mp hfound
    cases h
    exact ⟨⟨_, rfl⟩, transaction, htransaction, hmessage⟩
  · cases h

/-- Where the parts of a parsed result come from, once the message is read. -/
structure Result.IsMadeOf (parsed : Result) (m : Message) (result : Json) : Prop where
  instructions : parsed.transaction.instructions = m.instructions
  inner : parsed.transaction.inner = m.inner
  computeLimit : parsed.transaction.computeLimit = ComputeLimit.ofInstructions m.instructions
  signature : ∃ transaction, result.get? "transaction" = some transaction ∧
    (transaction.fieldD "signatures" .null >>= firstSignature) = .ok parsed.transaction.signature
  logs : ((details result).fieldOr "logMessages" (.list []) >>= Json.elements) =
    .ok parsed.transaction.logs
  status : ∃ error, (details result).fieldD "err" .null = .ok error ∧
    parsed.transaction.status = statusOf error
  slot : count result "slot" = .ok parsed.transaction.slot
  fee : count (details result) "fee" = .ok parsed.transaction.fee
  computeUsed : count (details result) "computeUnitsConsumed" = .ok parsed.transaction.computeUsed
  pre : ((details result).fieldOr "preBalances" (.list []) >>=
    Snapshots.ofBalances (m.accounts.map (·.pubkey))) = .ok parsed.pre
  post : ((details result).fieldOr "postBalances" (.list []) >>=
    Snapshots.ofBalances (m.accounts.map (·.pubkey))) = .ok parsed.post

theorem ofJson?_of_no_message (h : message? (unwrap document) = none) :
    Result.ofJson? document = .ok none := by
  rw [Result.ofJson?]
  dsimp only
  rw [h]
  rfl

theorem ofJson?_of_fault {fault : Fault} (hmessage : message? (unwrap document) = some message)
    (hread : Message.read message (details (unwrap document)) = .error fault) :
    Result.ofJson? document = if isUnreadable fault then .ok none else .error fault := by
  rw [Result.ofJson?]
  dsimp only
  rw [hmessage]
  dsimp only
  rw [Message.read?, hread]
  dsimp only
  split <;> rfl

/-- With a message that is read, an answer is a transaction with its parts. -/
theorem ofJson?_of_read {answer : Option Result}
    (hmessage : message? (unwrap document) = some message)
    (hread : Message.read message (details (unwrap document)) = .ok m) :
    Result.ofJson? document = .ok answer ↔
      ∃ parsed, answer = some parsed ∧ parsed.IsMadeOf m (unwrap document) := by
  obtain ⟨-, transaction, htransaction, -⟩ := exists_of_message? hmessage
  rw [Result.ofJson?]
  dsimp only
  rw [hmessage]
  dsimp only
  rw [Message.read?, hread]
  dsimp only
  rw [ok_bind]
  dsimp only
  rw [Json.fieldD_of_get? _ htransaction, ok_bind]
  constructor
  · intro h
    obtain ⟨signatures, hsignatures, h⟩ := bind_eq_ok.mp h
    obtain ⟨signature, hsignature, h⟩ := bind_eq_ok.mp h
    obtain ⟨rawLogs, hrawLogs, h⟩ := bind_eq_ok.mp h
    obtain ⟨logs, hlogs, h⟩ := bind_eq_ok.mp h
    obtain ⟨error, herror, h⟩ := bind_eq_ok.mp h
    obtain ⟨slot, hslot, h⟩ := bind_eq_ok.mp h
    obtain ⟨fee, hfee, h⟩ := bind_eq_ok.mp h
    obtain ⟨computeUsed, hcompute, h⟩ := bind_eq_ok.mp h
    obtain ⟨rawPre, hrawPre, h⟩ := bind_eq_ok.mp h
    obtain ⟨pre, hpre, h⟩ := bind_eq_ok.mp h
    obtain ⟨rawPost, hrawPost, h⟩ := bind_eq_ok.mp h
    obtain ⟨post, hpost, h⟩ := bind_eq_ok.mp h
    refine ⟨_, (pure_eq_ok.mp h).symm, ?_⟩
    exact {
      instructions := rfl
      inner := rfl
      computeLimit := rfl
      signature := ⟨transaction, htransaction, bind_eq_ok.mpr ⟨_, hsignatures, hsignature⟩⟩
      logs := bind_eq_ok.mpr ⟨_, hrawLogs, hlogs⟩
      status := ⟨error, herror, rfl⟩
      slot := hslot
      fee := hfee
      computeUsed := hcompute
      pre := bind_eq_ok.mpr ⟨_, hrawPre, hpre⟩
      post := bind_eq_ok.mpr ⟨_, hrawPost, hpost⟩ }
  · rintro ⟨⟨parsed, pre, post⟩, rfl, h⟩
    obtain ⟨other, hother, hsignature⟩ := h.signature
    obtain rfl := Option.some.inj (htransaction.symm.trans hother)
    obtain ⟨error, herror, hstatus⟩ := h.status
    -- each part is bound on its own before the next one is asked for
    simp only [← bind_assoc]
    simp only [hsignature, h.logs, herror, h.slot, h.fee, h.computeUsed, h.pre, h.post, ok_bind]
    rw [← hstatus, ← h.computeLimit, ← h.instructions, ← h.inner]
    rfl

end SolanaTx.Rpc
