import SolanaTx.Proofs.Account.Balances
import SolanaTx.Proofs.Rpc.Parts

/-!
# Faults of reports

A message that is not in proper form is one without a transaction where its fault says that it is
unreadable. Every other fault concerns the document as a whole, and so does each fault of the fields
that are read behind the message.
-/

namespace SolanaTx.Rpc

open Fallible

variable {document result message compiled block : Json}

/-! ## Messages in proper form -/

/-- Whether a value may stand for a whole number: it is not infinite, whatever else it is. -/
def Bounded (value : Json) : Prop :=
  value.toWhole ≠ .error .tooLarge

/-- Whether the entries of a list have a property, where a field holds a list. -/
def EntriesHave (j : Json) (field : Text) (p : Json → Prop) : Prop :=
  j.GivenHas field fun raw => ∀ items, raw.elements = .ok items → ∀ item ∈ items, p item

/-- Whether a payload is reported as a text, alone or as one in base 64. -/
def ProperPayload (data : Json) : Prop :=
  data.isGiven = true → (∃ t, data = .text t) ∨ ∃ body, data = .list [body, .text "base64"]

structure ProperInstruction (compiled : Json) : Prop where
  program : ∀ place, compiled.get? "programIdIndex" = some place → Bounded place
  accounts : EntriesHave compiled "accounts" Bounded
  data : ∀ data, compiled.get? "data" = some data → ProperPayload data

structure ProperBlock (block : Json) : Prop where
  parent : ∀ place, block.get? "index" = some place → Bounded place
  calls : EntriesHave block "instructions" ProperInstruction

structure ProperHeader (header : Json) : Prop where
  object : IsObject header
  signers : ∀ n, header.get? "numRequiredSignatures" = some n → Bounded n
  readonlySigners : ∀ n, header.get? "numReadonlySignedAccounts" = some n → Bounded n
  readonlyOthers : ∀ n, header.get? "numReadonlyUnsignedAccounts" = some n → Bounded n

/-- Whether the parts of a message are objects and texts where they have to be, and no number is
infinite. -/
structure ProperMessage (message details : Json) : Prop where
  keys : EntriesHave message "accountKeys" fun entry => (∃ t, entry = .text t) ∨ IsObject entry
  header : message.GivenHas "header" ProperHeader
  loaded : details.GivenHas "loadedAddresses" IsObject
  instructions : EntriesHave message "instructions" ProperInstruction
  blocks : EntriesHave details "innerInstructions" ProperBlock

/-! ## Faults of values -/

theorem EntriesHave.of_fieldOr {j raw : Json} {field : Text} {p : Json → Prop} {items : List Json}
    (h : EntriesHave j field p) (hraw : j.fieldOr field (.list []) = .ok raw)
    (hitems : raw.elements = .ok items) : ∀ item ∈ items, p item := by
  refine Json.GivenHas.of_fieldOr h ?_ hraw items hitems
  intro items hitems item hitem
  cases hitems
  cases hitem

theorem exists_fieldD {j : Json} (hj : IsObject j) (field : Text) (default : Json) :
    ∃ value, j.fieldD field default = .ok value := by
  obtain ⟨fields, rfl⟩ := hj
  exact ⟨_, rfl⟩

theorem failsOnly_need (j : Json) (field : Text) : FailsOnly Unreadable (j.need field) := by
  cases j with
  | object fields =>
      rw [Json.need]
      split
      · exact failsOnly_ok _
      · exact failsOnly_error rfl
  | null | bool | int | real | text | list => exact failsOnly_error rfl

theorem failsOnly_elements (j : Json) : FailsOnly Unreadable j.elements := by
  cases j with
  | list | object | text => exact failsOnly_ok _
  | null | bool | int | real => exact failsOnly_error rfl

theorem failsOnly_toWhole {value : Json} (h : Bounded value) :
    FailsOnly Unreadable value.toWhole := by
  intro fault hfault
  unfold Bounded at h
  unfold Json.toWhole at h hfault
  split at hfault
  · cases hfault
  · cases hfault
  · split at hfault
    · cases hfault
    · cases hfault
      rfl
  · split at hfault
    · cases hfault
    · split at hfault
      · cases hfault
        rfl
      · next htruncate hnan => simp [htruncate, hnan] at h
  · cases hfault
    rfl

/-- A count that may be left out, and what is done with it. -/
theorem failsOnly_fieldD_toWhole {α : Type} {j : Json} {field : Text} {n : Int}
    {f : Int → Except Fault α} (hj : IsObject j)
    (h : ∀ value, j.get? field = some value → Bounded value)
    (hf : ∀ count, FailsOnly Unreadable (f count)) :
    FailsOnly Unreadable (j.fieldD field (.int n) >>= fun value => value.toWhole >>= f) := by
  obtain ⟨fields, rfl⟩ := hj
  rw [Json.fieldD_object, ok_bind]
  refine FailsOnly.bind ?_ fun count _ => hf count
  cases hfound : Json.lookup field fields with
  | none => exact failsOnly_ok _
  | some value => exact failsOnly_toWhole (h value hfound)

theorem failsOnly_readOrFail (data : Option Bytes) : FailsOnly Unreadable (readOrFail data) := by
  cases data with
  | none => exact failsOnly_error rfl
  | some data => exact failsOnly_ok _

theorem failsOnly_payload {data : Json} (h : ProperPayload data) :
    FailsOnly Unreadable (payload data) := by
  -- what is no pair in base 64 is a text or does not count as given
  have hplain : (∀ body, data ≠ .list [body, .text "base64"]) →
      FailsOnly Unreadable (plainPayload data) := by
    intro hpair
    rw [plainPayload.eq_def]
    split
    · split
      · exact failsOnly_ok _
      · exact failsOnly_readOrFail _
    · next htext =>
      split
      · next hgiven =>
        rcases h hgiven with ⟨t, ht⟩ | ⟨body, hbody⟩
        · exact absurd ht (htext t)
        · exact absurd hbody (hpair body)
      · exact failsOnly_ok _
  rw [payload.eq_def]
  split
  · next body encoding =>
    split
    · split
      · exact failsOnly_readOrFail _
      · exact failsOnly_error rfl
    · next hencoding =>
      apply hplain
      intro body' hsame
      cases hsame
      exact hencoding rfl
  · next hother => exact hplain fun body => hother body _

theorem failsOnly_accountAt (accounts : List AccountMeta) (i : Int) :
    FailsOnly Unreadable (accountAt accounts i) := by
  rw [accountAt]
  generalize (if i < 0 then i + (accounts.length : Int) else i) = place
  split
  · exact failsOnly_error rfl
  · split
    · exact failsOnly_ok _
    · exact failsOnly_error rfl

theorem failsOnly_key (value : Json) : FailsOnly Unreadable (key value) := by
  unfold key
  split
  · split
    · exact failsOnly_ok _
    · exact failsOnly_error rfl
  · exact failsOnly_error rfl

/-! ## Faults of messages -/

theorem failsOnly_instruction (h : ProperInstruction compiled) (accounts : List AccountMeta) :
    FailsOnly Unreadable (instruction accounts compiled) := by
  -- what has the place of a program is an object, so asking for its other fields is no fault
  refine (failsOnly_need _ _).bind fun place hplace => ?_
  have hplace := Json.get?_of_need hplace
  have hobject : IsObject compiled := Json.exists_object_of_get? hplace
  refine (failsOnly_toWhole (h.program place hplace)).bind fun _ _ => ?_
  refine (Json.failsOnly_fieldOr hobject _ _).bind fun raw hraw => ?_
  refine (failsOnly_elements raw).bind fun places hplaces => ?_
  refine (failsOnly_mapM fun place hmem => ?_).bind fun _ _ => ?_
  · have hbounded := h.accounts.of_fieldOr hraw hplaces place hmem
    exact (failsOnly_toWhole hbounded).bind fun _ _ => failsOnly_accountAt _ _
  · refine (failsOnly_accountAt _ _).bind fun _ _ => ?_
    refine (Json.failsOnly_fieldD hobject _ _).bind fun data hdata => ?_
    have hproper : ProperPayload data := by
      obtain ⟨fields, rfl⟩ := hobject
      rw [Json.fieldD_object, Except.ok.injEq] at hdata
      subst hdata
      cases hfound : Json.lookup "data" fields with
      | none => exact fun hgiven => by cases hgiven
      | some found => exact h.data found hfound
    exact (failsOnly_payload hproper).bind fun _ _ => failsOnly_pure _

theorem failsOnly_callBlock (h : ProperBlock block) (accounts : List AccountMeta) :
    FailsOnly Unreadable (callBlock accounts block) := by
  refine (failsOnly_need _ _).bind fun place hplace => ?_
  have hplace := Json.get?_of_need hplace
  refine (failsOnly_toWhole (h.parent place hplace)).bind fun _ _ => ?_
  refine (Json.failsOnly_fieldOr (Json.exists_object_of_get? hplace) _ _).bind fun raw hraw => ?_
  refine (failsOnly_elements raw).bind fun calls hcalls => failsOnly_mapM fun call hmem => ?_
  have hcall := h.calls.of_fieldOr hraw hcalls call hmem
  refine (failsOnly_instruction hcall accounts).bind fun i hi => ?_
  obtain ⟨place, hneed, -⟩ := bind_eq_ok.mp hi
  have hobject : IsObject call := Json.exists_object_of_get? (Json.get?_of_need hneed)
  exact (Json.failsOnly_fieldD hobject _ _).bind fun _ _ => failsOnly_pure _

theorem properHeader_nil : ProperHeader (.object []) := by
  refine ⟨⟨[], rfl⟩, ?_, ?_, ?_⟩ <;>
  · intro n h
    cases h

theorem failsOnly_ofMessage (hmessage : IsObject message)
    (h : message.GivenHas "header" ProperHeader) :
    FailsOnly Unreadable (Header.ofMessage message) := by
  refine (Json.failsOnly_fieldOr hmessage _ _).bind fun header hheader => ?_
  have hproper : ProperHeader header := h.of_fieldOr properHeader_nil hheader
  refine failsOnly_fieldD_toWhole hproper.object hproper.signers fun signers => ?_
  refine failsOnly_fieldD_toWhole hproper.object hproper.readonlySigners fun readonlySigners => ?_
  refine failsOnly_fieldD_toWhole hproper.object hproper.readonlyOthers fun readonlyOthers => ?_
  exact failsOnly_pure _

theorem failsOnly_loadedAccounts {addresses : Json} (h : IsObject addresses) (role : Text)
    (isWritable : Bool) : FailsOnly Unreadable (loadedAccounts addresses role isWritable) := by
  refine (Json.failsOnly_fieldOr h _ _).bind fun raw _ => ?_
  refine (failsOnly_elements raw).bind fun entries _ => ?_
  exact failsOnly_mapM fun entry _ => (failsOnly_key entry).bind fun _ _ => failsOnly_pure _

theorem failsOnly_keyEntry {entry : Json} (h : (∃ t, entry = .text t) ∨ IsObject entry) :
    FailsOnly Unreadable (keyEntry entry) := by
  rcases h with ⟨t, rfl⟩ | ⟨fields, rfl⟩
  · exact failsOnly_ok _
  · exact failsOnly_ok _

theorem failsOnly_messageAccounts {details : Json} (hmessage : IsObject message)
    (hdetails : IsObject details) (h : ProperMessage message details) :
    FailsOnly Unreadable (messageAccounts message details) := by
  refine (Json.failsOnly_fieldOr hmessage _ _).bind fun raw hraw => ?_
  refine (failsOnly_elements raw).bind fun entries hentries => ?_
  refine (failsOnly_mapM fun entry hmem => ?_).bind fun texts _ => ?_
  · exact failsOnly_keyEntry (h.keys.of_fieldOr hraw hentries entry hmem)
  · refine (failsOnly_ofMessage hmessage h.header).bind fun header _ => ?_
    refine (failsOnly_mapM fun text _ => failsOnly_key text).bind fun keys _ => ?_
    refine (Json.failsOnly_fieldOr hdetails _ _).bind fun addresses haddresses => ?_
    have hobject : IsObject addresses := h.loaded.of_fieldOr ⟨[], rfl⟩ haddresses
    refine (failsOnly_loadedAccounts hobject _ _).bind fun _ _ => ?_
    exact (failsOnly_loadedAccounts hobject _ _).bind fun _ _ => failsOnly_pure _

/-- A message in proper form is read, or it is unreadable. -/
theorem failsOnly_read {details : Json} (hmessage : IsObject message)
    (hdetails : IsObject details) (h : ProperMessage message details) :
    FailsOnly Unreadable (Message.read message details) := by
  refine (failsOnly_messageAccounts hmessage hdetails h).bind fun accounts _ => ?_
  refine (Json.failsOnly_fieldOr hmessage _ _).bind fun raw hraw => ?_
  refine (failsOnly_elements raw).bind fun items hitems => ?_
  refine (failsOnly_mapM fun item hmem => ?_).bind fun instructions _ => ?_
  · exact failsOnly_instruction (h.instructions.of_fieldOr hraw hitems item hmem) accounts
  · refine (Json.failsOnly_fieldOr hdetails _ _).bind fun raw hraw => ?_
    refine (failsOnly_elements raw).bind fun items hitems => ?_
    refine (failsOnly_mapM fun item hmem => ?_).bind fun blocks _ => failsOnly_pure _
    exact failsOnly_callBlock (h.blocks.of_fieldOr hraw hitems item hmem) accounts

/-! ## The fields behind the message -/

/-- Whether a value is a whole number, a truth value or a numeral, or a fraction to be cut off. -/
def IsNumber (value : Json) : Prop :=
  ∃ n, value.toWhole = .ok n

/-- Whether a value has items of which those that belong to an account and count as given are
numbers. -/
def HasBalances (keys : List Pubkey) (value : Json) : Prop :=
  ∃ items, value.elements = .ok items ∧
    ∀ entry ∈ keys.zip items, entry.2.isGiven = true → IsNumber entry.2

/-- Whether the fields that are read behind the message, where they count as given, have the kinds
that they are read as. -/
structure RestIsRegular (keys : List Pubkey) (result : Json) : Prop where
  signatures : ∀ transaction, result.get? "transaction" = some transaction →
    transaction.GivenHas "signatures" fun signatures =>
      (∃ items, signatures = .list items) ∨ ∃ t, signatures = .text t
  logs : (details result).GivenHas "logMessages" fun logs => ∃ items, logs.elements = .ok items
  slot : result.GivenHas "slot" IsNumber
  fee : (details result).GivenHas "fee" IsNumber
  computeUsed : (details result).GivenHas "computeUnitsConsumed" IsNumber
  preBalances : (details result).GivenHas "preBalances" (HasBalances keys)
  postBalances : (details result).GivenHas "postBalances" (HasBalances keys)

theorem exists_fieldOr_bind_iff {α : Type} {j other : Json} {f : Json → Except Fault α}
    (hj : IsObject j) (field : Text) (hother : ∃ b, f other = .ok b) :
    (∃ b, (j.fieldOr field other >>= f) = .ok b) ↔
      j.GivenHas field fun value => ∃ b, f value = .ok b := by
  constructor
  · rintro ⟨b, h⟩
    obtain ⟨value, hvalue, hb⟩ := bind_eq_ok.mp h
    exact Json.givenHas_of_fieldOr hvalue ⟨b, hb⟩
  · intro h
    obtain ⟨value, hvalue⟩ : ∃ value, j.fieldOr field other = .ok value := by
      obtain ⟨fields, rfl⟩ := hj
      exact ⟨_, rfl⟩
    rw [hvalue, ok_bind]
    exact h.of_fieldOr hother hvalue

theorem exists_elements_iff {j : Json} (hj : IsObject j) (field : Text) :
    (∃ items, (j.fieldOr field (.list []) >>= Json.elements) = .ok items) ↔
      j.GivenHas field fun raw => ∃ items, raw.elements = .ok items :=
  exists_fieldOr_bind_iff hj field ⟨[], rfl⟩

theorem exists_count_iff {j : Json} (hj : IsObject j) (field : Text) :
    (∃ n, count j field = .ok n) ↔ j.GivenHas field IsNumber :=
  exists_fieldOr_bind_iff hj field ⟨0, rfl⟩

theorem exists_ofBalances_iff {j : Json} (hj : IsObject j) (field : Text) (keys : List Pubkey) :
    (∃ snapshots, (j.fieldOr field (.list []) >>= Snapshots.ofBalances keys) = .ok snapshots) ↔
      j.GivenHas field (HasBalances keys) := by
  have hempty : ∃ snapshots, Snapshots.ofBalances keys (.list []) = .ok snapshots :=
    Snapshots.exists_ofBalances keys []
  rw [exists_fieldOr_bind_iff hj field hempty]
  simp only [Snapshots.exists_ofBalances_iff]
  rfl

theorem exists_firstSignature_iff {signatures : Json} :
    (∃ signature, firstSignature signatures = .ok signature) ↔
      (signatures.isGiven = true →
        (∃ items, signatures = .list items) ∨ ∃ t, signatures = .text t) := by
  rw [firstSignature.eq_def]
  split
  · next hgiven =>
    simp only [hgiven, forall_const]
    cases signatures with
    | list items =>
        cases items with
        | nil => cases hgiven
        | cons signature rest => exact iff_of_true ⟨_, rfl⟩ (.inl ⟨_, rfl⟩)
    | text t => exact iff_of_true ⟨_, rfl⟩ (.inr ⟨_, rfl⟩)
    | null | bool | int | real | object => simp
  · next hgiven => exact iff_of_true ⟨_, rfl⟩ fun hgiven' => absurd hgiven' hgiven

theorem exists_signature_iff {transaction : Json} (h : IsObject transaction) :
    (∃ signature, (transaction.fieldD "signatures" .null >>= firstSignature) = .ok signature) ↔
      transaction.GivenHas "signatures" fun signatures =>
        (∃ items, signatures = .list items) ∨ ∃ t, signatures = .text t := by
  obtain ⟨fields, rfl⟩ := h
  rw [Json.fieldD_object, ok_bind, exists_firstSignature_iff]
  cases hfound : Json.lookup "signatures" fields with
  | none =>
      refine iff_of_true (fun hgiven => by cases hgiven) fun value hvalue => ?_
      rw [Json.get?, hfound] at hvalue
      cases hvalue
  | some signatures =>
      constructor
      · intro h value hvalue
        rw [Json.get?, hfound] at hvalue
        cases hvalue
        exact h
      · intro h
        exact h signatures hfound

/-! ## Documents -/

/-- Behind a message that is read, the other fields decide whether there is an answer. -/
theorem exists_ofJson?_of_read {m : Message}
    (hmessage : message? (unwrap document) = some message)
    (hread : Message.read message (details (unwrap document)) = .ok m) :
    (∃ answer, Result.ofJson? document = .ok answer) ↔
      RestIsRegular (m.accounts.map (·.pubkey)) (unwrap document) := by
  obtain ⟨-, transaction, htransaction, hmessage'⟩ := exists_of_message? hmessage
  have hresult : IsObject (unwrap document) := Json.exists_object_of_get? htransaction
  have hobject : IsObject transaction := Json.exists_object_of_get? hmessage'
  have hdetails := isObject_details (unwrap document)
  constructor
  · rintro ⟨answer, h⟩
    obtain ⟨parsed, -, h⟩ := (ofJson?_of_read hmessage hread).mp h
    refine ⟨?_, (exists_elements_iff hdetails _).mp ⟨_, h.logs⟩,
      (exists_count_iff hresult _).mp ⟨_, h.slot⟩, (exists_count_iff hdetails _).mp ⟨_, h.fee⟩,
      (exists_count_iff hdetails _).mp ⟨_, h.computeUsed⟩,
      (exists_ofBalances_iff hdetails _ _).mp ⟨_, h.pre⟩,
      (exists_ofBalances_iff hdetails _ _).mp ⟨_, h.post⟩⟩
    intro other hother
    obtain ⟨same, hsame, hsignature⟩ := h.signature
    obtain rfl := Option.some.inj (hother.symm.trans hsame)
    obtain rfl := Option.some.inj (hother.symm.trans htransaction)
    exact (exists_signature_iff hobject).mp ⟨_, hsignature⟩
  · intro h
    obtain ⟨signature, hsignature⟩ :=
      (exists_signature_iff hobject).mpr (h.signatures _ htransaction)
    obtain ⟨logs, hlogs⟩ := (exists_elements_iff hdetails _).mpr h.logs
    obtain ⟨error, herror⟩ := exists_fieldD hdetails "err" .null
    obtain ⟨slot, hslot⟩ := (exists_count_iff hresult _).mpr h.slot
    obtain ⟨fee, hfee⟩ := (exists_count_iff hdetails _).mpr h.fee
    obtain ⟨computeUsed, hcompute⟩ := (exists_count_iff hdetails _).mpr h.computeUsed
    obtain ⟨pre, hpre⟩ := (exists_ofBalances_iff hdetails _ _).mpr h.preBalances
    obtain ⟨post, hpost⟩ := (exists_ofBalances_iff hdetails _ _).mpr h.postBalances
    let parsed : Result := {
      transaction := {
        signature, instructions := m.instructions, inner := m.inner, logs
        status := statusOf error, slot, fee, computeUsed
        computeLimit := ComputeLimit.ofInstructions m.instructions }
      pre
      post }
    refine ⟨some parsed, (ofJson?_of_read hmessage hread).mpr ⟨parsed, rfl, ?_⟩⟩
    exact ⟨rfl, rfl, rfl, ⟨transaction, htransaction, hsignature⟩, hlogs, ⟨error, herror, rfl⟩,
      hslot, hfee, hcompute, hpre, hpost⟩

/-- A document is read, or found to hold no transaction, exactly where the faults of its message are
unreadable ones and the fields behind a message that is read are regular. A message in proper form
has unreadable faults only; with such a fault there is no transaction, with any other no answer. -/
theorem exists_ofJson?_iff (document : Json) :
    ((∃ parsed, Result.ofJson? document = .ok parsed) ↔
      ∀ message, message? (unwrap document) = some message →
        FailsOnly Unreadable (Message.read message (details (unwrap document))) ∧
        ∀ m, Message.read message (details (unwrap document)) = .ok m →
          RestIsRegular (m.accounts.map (·.pubkey)) (unwrap document)) ∧
    ∀ message, message? (unwrap document) = some message →
      (ProperMessage message (details (unwrap document)) →
        FailsOnly Unreadable (Message.read message (details (unwrap document)))) ∧
      ∀ fault, Message.read message (details (unwrap document)) = .error fault →
        (Unreadable fault → Result.ofJson? document = .ok none) ∧
        (¬ Unreadable fault → Result.ofJson? document = .error fault) := by
  constructor
  · cases hmessage : message? (unwrap document) with
    | none => exact iff_of_true ⟨none, ofJson?_of_no_message hmessage⟩ fun _ h => by cases h
    | some message =>
        simp only [Option.some.injEq, forall_eq']
        cases hread : Message.read message (details (unwrap document)) with
        | ok m =>
            rw [exists_ofJson?_of_read hmessage hread]
            simp only [failsOnly_ok, Except.ok.injEq, forall_eq', true_and]
        | error fault =>
            rw [ofJson?_of_fault hmessage hread]
            split
            · next hfault =>
              refine iff_of_true ⟨none, rfl⟩ ⟨failsOnly_error hfault, fun m hm => ?_⟩
              cases hm
            · next hfault =>
              refine iff_of_false ?_ fun h => hfault (h.1 fault rfl)
              rintro ⟨parsed, hparsed⟩
              cases hparsed
  · intro message hmessage
    refine ⟨failsOnly_read (exists_of_message? hmessage).1 (isObject_details _), ?_⟩
    intro fault hread
    rw [ofJson?_of_fault hmessage hread]
    exact ⟨fun h => if_pos h, fun h => if_neg h⟩

/-- A place outside the keys makes a message unreadable, and one among them does not. -/
theorem exists_ofJson?_iff_places :
    ∃ (message document : Int → Json),
      message = (fun place => .object [("accountKeys", .list ["11111111111111111111111111111111"]),
        ("instructions", .list [.object [("programIdIndex", .int place)]])]) ∧
      document = (fun place => .object [("transaction", .object [("message", message place)])]) ∧
      ProperMessage (message 9) (.object []) ∧
      Message.read (message 9) (.object []) = .error .outOfRange ∧
      Result.ofJson? (document 9) = .ok none ∧
      ∃ m, Message.read (message 0) (.object []) = .ok m ∧
        RestIsRegular (m.accounts.map (·.pubkey)) (document 0) := by
  obtain ⟨message, hmessage⟩ : ∃ message : Int → Json, message = fun place => .object [
      ("accountKeys", .list ["11111111111111111111111111111111"]),
      ("instructions", .list [.object [("programIdIndex", .int place)]])] := ⟨_, rfl⟩
  obtain ⟨document, hdocument⟩ : ∃ document : Int → Json, document = fun place =>
      .object [("transaction", .object [("message", message place)])] := ⟨_, rfl⟩
  have hfound : ∀ place, unwrap (document place) = document place ∧
      message? (document place) = some (message place) ∧
      details (document place) = .object [] := by
    subst hdocument hmessage
    exact fun place => ⟨rfl, rfl, rfl⟩
  have hproper : ProperMessage (message 9) (.object []) := by
    subst hmessage
    constructor
    · rintro raw hraw - items hitems item hitem
      cases hraw
      cases hitems
      rw [List.mem_singleton.mp hitem]
      exact .inl ⟨_, rfl⟩
    · intro header hheader
      cases hheader
    · intro addresses haddresses
      cases haddresses
    · rintro raw hraw - items hitems item hitem
      cases hraw
      cases hitems
      rw [List.mem_singleton.mp hitem]
      refine ⟨fun place hplace => ?_, fun raw hraw => ?_, fun data hdata => ?_⟩
      · cases hplace
        exact nofun
      · cases hraw
      · cases hdata
    · intro blocks hblocks
      cases hblocks
  have houtside : Message.read (message 9) (.object []) = .error .outOfRange := by
    subst hmessage
    rfl
  obtain ⟨m, hread⟩ : ∃ m, Message.read (message 0) (.object []) = .ok m := by
    subst hmessage
    exact ⟨_, rfl⟩
  have hparsed : ∃ parsed, Result.ofJson? (document 0) = .ok parsed := by
    subst hdocument hmessage
    exact ⟨_, rfl⟩
  have hnone := (exists_ofJson?_iff (document 9)).2
  have hrest := (exists_ofJson?_iff (document 0)).1.mp hparsed
  rw [(hfound 9).1, (hfound 9).2.2] at hnone
  rw [(hfound 0).1, (hfound 0).2.2] at hrest
  exact ⟨message, document, hmessage, hdocument, hproper, houtside,
    ((hnone _ (hfound 9).2.1).2 _ houtside).1 rfl, m, hread, (hrest _ (hfound 0).2.1).2 m hread⟩

/-- A key that is neither a text nor an object. -/
theorem ofJson?_number_as_key :
    Result.ofJson? (.object [("transaction", .object [("message", .object [
      ("accountKeys", .list [.int 5])])])]) = .error .noSuchMember := rfl

end SolanaTx.Rpc
