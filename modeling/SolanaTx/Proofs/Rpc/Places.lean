import SolanaTx.Proofs.Rpc.Faults

/-!
# Places of accounts

Compiled instructions refer to their programs and accounts by places among all keys. A place
from zero on is the position of a key, and one below zero counts from the end. No transaction
is had with a place beyond either end.
-/

namespace SolanaTx.Rpc

open Fallible

variable {accounts : List AccountMeta} {compiled message block place : Json}

/-- Whether a place leads to an account: it is no further below zero than there are accounts, and
counts from the end there. -/
structure LeadsTo (accounts : List AccountMeta) (i : Int) (account : AccountMeta) : Prop where
  lower : -(accounts.length : Int) ≤ i
  upper : i < accounts.length
  found : accounts[(if i < 0 then i + accounts.length else i).toNat]? = some account

theorem accountAt_eq_ok_iff {i : Int} {account : AccountMeta} :
    accountAt accounts i = .ok account ↔ LeadsTo accounts i account := by
  rw [accountAt]
  constructor
  · intro h
    generalize hposition : (if i < 0 then i + (accounts.length : Int) else i) = position at h
    split at h
    · cases h
    · split at h
      · next found hfound =>
        obtain rfl := Except.ok.inj h
        obtain ⟨hbound, -⟩ := List.getElem?_eq_some_iff.mp hfound
        refine ⟨?_, ?_, hposition ▸ hfound⟩ <;> split at hposition <;> omega
      · cases h
  · rintro ⟨hlower, -, hfound⟩
    have hnot : ¬(if i < 0 then i + (accounts.length : Int) else i) < 0 := by
      split <;> omega
    simp only [if_neg hnot, hfound]

/-- Whether a value is the place of an account. -/
def IsPlaceOf (accounts : List AccountMeta) (place : Json) (account : AccountMeta) : Prop :=
  ∃ i, place.toWhole = .ok i ∧ LeadsTo accounts i account

/-- Whether an instruction has the program and the accounts that a compiled one refers to. -/
structure IsResolved (accounts : List AccountMeta) (compiled : Json) (i : Instruction) : Prop where
  program : ∃ place account, compiled.get? "programIdIndex" = some place ∧
    IsPlaceOf accounts place account ∧ i.program = account.pubkey
  accounts : ∃ places, (compiled.fieldOr "accounts" (.list []) >>= Json.elements) = .ok places ∧
    List.Forall₂ (IsPlaceOf accounts) places i.accounts

theorem isResolved_of_instruction {i : Instruction} (h : instruction accounts compiled = .ok i) :
    IsResolved accounts compiled i := by
  obtain ⟨place, hplace, h⟩ := bind_eq_ok.mp h
  obtain ⟨n, hn, h⟩ := bind_eq_ok.mp h
  obtain ⟨raw, hraw, h⟩ := bind_eq_ok.mp h
  obtain ⟨places, hplaces, h⟩ := bind_eq_ok.mp h
  obtain ⟨used, hused, h⟩ := bind_eq_ok.mp h
  obtain ⟨program, hprogram, h⟩ := bind_eq_ok.mp h
  obtain ⟨value, -, h⟩ := bind_eq_ok.mp h
  obtain ⟨data, -, h⟩ := bind_eq_ok.mp h
  obtain rfl := pure_eq_ok.mp h
  constructor
  · exact ⟨place, program, Json.get?_of_need hplace, ⟨n, hn, accountAt_eq_ok_iff.mp hprogram⟩, rfl⟩
  · refine ⟨places, bind_eq_ok.mpr ⟨raw, hraw, hplaces⟩, (mapM_eq_ok_iff.mp hused).imp ?_⟩
    intro place account haccount
    obtain ⟨n, hn, haccount⟩ := bind_eq_ok.mp haccount
    exact ⟨n, hn, accountAt_eq_ok_iff.mp haccount⟩

/-- The compiled instructions of a message, or those that one of its instructions has called. -/
def compiledItems (j : Json) : Except Fault (List Json) :=
  j.fieldOr "instructions" (.list []) >>= Json.elements

theorem isResolved_of_callBlock {calls : List InnerInstruction}
    (h : callBlock accounts block = .ok calls) :
    ∃ items, compiledItems block = .ok items ∧
      List.Forall₂ (IsResolved accounts) items (calls.map (·.instruction)) := by
  obtain ⟨index, -, h⟩ := bind_eq_ok.mp h
  obtain ⟨parent, -, h⟩ := bind_eq_ok.mp h
  obtain ⟨raw, hraw, h⟩ := bind_eq_ok.mp h
  obtain ⟨items, hitems, h⟩ := bind_eq_ok.mp h
  refine ⟨items, bind_eq_ok.mpr ⟨raw, hraw, hitems⟩, ?_⟩
  rw [List.forall₂_map_right_iff]
  refine (mapM_eq_ok_iff.mp h).imp ?_
  intro item call hcall
  obtain ⟨i, hi, hcall⟩ := bind_eq_ok.mp hcall
  obtain ⟨height, -, hcall⟩ := bind_eq_ok.mp hcall
  obtain rfl := pure_eq_ok.mp hcall
  exact isResolved_of_instruction hi

/-- Whether instructions, at the top and called ones, are those of a message, in their order, each
with the program and the accounts that its compiled form refers to. -/
structure Resolves (message details : Json) (accounts : List AccountMeta)
    (instructions : List Instruction) (inner : List InnerInstruction) : Prop where
  all : messageAccounts message details = .ok accounts
  instructions : ∃ items, compiledItems message = .ok items ∧
    List.Forall₂ (IsResolved accounts) items instructions
  inner : ∃ blocks items,
    (details.fieldOr "innerInstructions" (.list []) >>= Json.elements) = .ok blocks ∧
    blocks.mapM compiledItems = .ok items ∧
    List.Forall₂ (IsResolved accounts) items.flatten (inner.map (·.instruction))

theorem isResolved_of_callBlocks {blocks : List Json} {calls : List (List InnerInstruction)}
    (h : List.Forall₂ (fun block calls => callBlock accounts block = .ok calls) blocks calls) :
    ∃ items, blocks.mapM compiledItems = .ok items ∧
      List.Forall₂ (IsResolved accounts) items.flatten (calls.flatten.map (·.instruction)) := by
  induction h with
  | nil => exact ⟨[], rfl, .nil⟩
  | cons hblock _ ih =>
      obtain ⟨first, hfirst, hresolved⟩ := isResolved_of_callBlock hblock
      obtain ⟨items, hitems, hothers⟩ := ih
      refine ⟨first :: items, ?_, ?_⟩
      · rw [List.mapM_cons, hfirst, ok_bind, hitems]
        rfl
      · rw [List.flatten_cons, List.flatten_cons, List.map_append]
        exact List.rel_append hresolved hothers

theorem resolves_of_read {details : Json} {m : Message}
    (h : Message.read message details = .ok m) :
    Resolves message details m.accounts m.instructions m.inner := by
  obtain ⟨accounts, haccounts, h⟩ := bind_eq_ok.mp h
  obtain ⟨raw, hraw, h⟩ := bind_eq_ok.mp h
  obtain ⟨items, hitems, h⟩ := bind_eq_ok.mp h
  obtain ⟨instructions, hinstructions, h⟩ := bind_eq_ok.mp h
  obtain ⟨rawBlocks, hrawBlocks, h⟩ := bind_eq_ok.mp h
  obtain ⟨blocks, hblocks, h⟩ := bind_eq_ok.mp h
  obtain ⟨calls, hcalls, h⟩ := bind_eq_ok.mp h
  obtain rfl := pure_eq_ok.mp h
  obtain ⟨called, hcalled, hresolved⟩ := isResolved_of_callBlocks (mapM_eq_ok_iff.mp hcalls)
  exact {
    all := haccounts
    instructions := ⟨items, bind_eq_ok.mpr ⟨raw, hraw, hitems⟩,
      (mapM_eq_ok_iff.mp hinstructions).imp fun _ _ => isResolved_of_instruction⟩
    inner := ⟨blocks, called, bind_eq_ok.mpr ⟨rawBlocks, hrawBlocks, hblocks⟩, hcalled,
      hresolved⟩ }

/-! ## Places that are met -/

/-- Whether an instruction stands in a message, at the top or among the called ones. -/
def IsCompiledIn (compiled message details : Json) : Prop :=
  (∃ items, compiledItems message = .ok items ∧ compiled ∈ items) ∨
  ∃ blocks block items,
    (details.fieldOr "innerInstructions" (.list []) >>= Json.elements) = .ok blocks ∧
    block ∈ blocks ∧ compiledItems block = .ok items ∧ compiled ∈ items

/-- Whether a value stands for a place in a compiled instruction, that of its program or of one of
its accounts. -/
def IsPlaceIn (place compiled : Json) : Prop :=
  compiled.get? "programIdIndex" = some place ∨
  ∃ places, (compiled.fieldOr "accounts" (.list []) >>= Json.elements) = .ok places ∧ place ∈ places

theorem Resolves.exists_isResolved {details : Json} {instructions : List Instruction}
    {inner : List InnerInstruction} (h : Resolves message details accounts instructions inner)
    (hcompiled : IsCompiledIn compiled message details) : ∃ i, IsResolved accounts compiled i := by
  rcases hcompiled with
    ⟨items, hitems, hmem⟩ | ⟨blocks, block, items, hblocks, hblock, hitems, hmem⟩
  · obtain ⟨items', hitems', hresolved⟩ := h.instructions
    obtain rfl := Except.ok.inj (hitems.symm.trans hitems')
    obtain ⟨i, -, hi⟩ := exists_mem_of_forall₂ hresolved compiled hmem
    exact ⟨i, hi⟩
  · obtain ⟨blocks', called, hblocks', hcalled, hresolved⟩ := h.inner
    obtain rfl := Except.ok.inj (hblocks.symm.trans hblocks')
    obtain ⟨items', hcalls, hitems'⟩ := exists_mem_of_mapM hcalled block hblock
    obtain rfl := Except.ok.inj (hitems.symm.trans hitems')
    obtain ⟨i, -, hi⟩ :=
      exists_mem_of_forall₂ hresolved compiled (List.mem_flatten_of_mem hcalls hmem)
    exact ⟨i, hi⟩

theorem IsResolved.exists_isPlaceOf {i : Instruction} (h : IsResolved accounts compiled i)
    (hplace : IsPlaceIn place compiled) : ∃ account, IsPlaceOf accounts place account := by
  rcases hplace with hplace | ⟨places, hplaces, hmem⟩
  · obtain ⟨place', account, hplace', haccount, -⟩ := h.program
    obtain rfl := Option.some.inj (hplace.symm.trans hplace')
    exact ⟨account, haccount⟩
  · obtain ⟨places', hplaces', haccounts⟩ := h.accounts
    obtain rfl := Except.ok.inj (hplaces.symm.trans hplaces')
    obtain ⟨account, -, haccount⟩ := exists_mem_of_forall₂ haccounts place hmem
    exact ⟨account, haccount⟩

/-- A message that is read has no place beyond either end of its accounts. -/
theorem Resolves.inBounds {details : Json} {instructions : List Instruction}
    {inner : List InnerInstruction} (h : Resolves message details accounts instructions inner)
    (hcompiled : IsCompiledIn compiled message details) (hplace : IsPlaceIn place compiled)
    {n : Int} (hn : place.toWhole = .ok n) :
    -(accounts.length : Int) ≤ n ∧ n < accounts.length := by
  obtain ⟨i, hi⟩ := h.exists_isResolved hcompiled
  obtain ⟨account, n', hn', haccount⟩ := hi.exists_isPlaceOf hplace
  obtain rfl := Except.ok.inj (hn.symm.trans hn')
  exact ⟨haccount.lower, haccount.upper⟩

/-! ## Transactions -/

theorem exists_read_of_ofJson? {document : Json} {parsed : Result}
    (h : Result.ofJson? document = .ok (some parsed)) :
    ∃ message m, message? (unwrap document) = some message ∧
      Message.read message (details (unwrap document)) = .ok m ∧
      parsed.IsMadeOf m (unwrap document) := by
  cases hmessage : message? (unwrap document) with
  | none =>
      rw [ofJson?_of_no_message hmessage] at h
      cases h
  | some message =>
      cases hread : Message.read message (details (unwrap document)) with
      | error fault =>
          rw [ofJson?_of_fault hmessage hread] at h
          split at h <;> cases h
      | ok m =>
          obtain ⟨parsed', hparsed, hmade⟩ := (ofJson?_of_read hmessage hread).mp h
          obtain rfl := Option.some.inj hparsed
          exact ⟨message, m, rfl, hread, hmade⟩

/-- The instructions of a transaction that is had are those of its message, with the programs and
accounts that their places lead to. Each place is less than the number of all accounts, and no
further below zero. With a place beyond either end there is no transaction; a message in proper form
is then one without a transaction. -/
theorem ofJson?_places (document : Json) :
    (∀ parsed, Result.ofJson? document = .ok (some parsed) →
      ∃ message accounts, message? (unwrap document) = some message ∧
        Resolves message (details (unwrap document)) accounts parsed.transaction.instructions
          parsed.transaction.inner) ∧
    ∀ message accounts compiled place n, message? (unwrap document) = some message →
      messageAccounts message (details (unwrap document)) = .ok accounts →
      IsCompiledIn compiled message (details (unwrap document)) → IsPlaceIn place compiled →
      place.toWhole = .ok n →
      (∀ parsed, Result.ofJson? document = .ok (some parsed) →
        -(accounts.length : Int) ≤ n ∧ n < accounts.length) ∧
      (n < -(accounts.length : Int) ∨ accounts.length ≤ n →
        ProperMessage message (details (unwrap document)) →
        Result.ofJson? document = .ok none) := by
  constructor
  · intro parsed h
    obtain ⟨message, m, hmessage, hread, hmade⟩ := exists_read_of_ofJson? h
    refine ⟨message, m.accounts, hmessage, ?_⟩
    rw [hmade.instructions, hmade.inner]
    exact resolves_of_read hread
  · intro message accounts compiled place n hmessage haccounts hcompiled hplace hn
    have hbounds : ∀ m, Message.read message (details (unwrap document)) = .ok m →
        -(accounts.length : Int) ≤ n ∧ n < accounts.length := by
      intro m hread
      have hresolves := resolves_of_read hread
      obtain rfl := Except.ok.inj (haccounts.symm.trans hresolves.all)
      exact hresolves.inBounds hcompiled hplace hn
    constructor
    · intro parsed h
      obtain ⟨message', m, hmessage', hread, -⟩ := exists_read_of_ofJson? h
      obtain rfl := Option.some.inj (hmessage.symm.trans hmessage')
      exact hbounds m hread
    · intro houtside hproper
      cases hread : Message.read message (details (unwrap document)) with
      | ok m =>
          obtain ⟨hlower, hupper⟩ := hbounds m hread
          omega
      | error fault =>
          have hobject := (exists_of_message? hmessage).1
          rw [ofJson?_of_fault hmessage hread]
          exact if_pos (failsOnly_read hobject (isObject_details _) hproper fault hread)

/-- Places below zero, which are positions of no keys, lead to keys all the same. -/
theorem ofJson?_places_below_zero :
    ∃ (document : Json) (parsed : Result),
      document = .object [("transaction", .object [("message", .object [
        ("accountKeys", .list ["11111111111111111111111111111111",
          "11111111111111111111111111111112"]),
        ("instructions", .list [.object [("programIdIndex", .int (-1)),
          ("accounts", .list [.int (-2)])]])])])] ∧
      Result.ofJson? document = .ok (some parsed) ∧
      parsed.transaction.instructions.map (fun i => i.program.text) =
        ["11111111111111111111111111111112"] ∧
      parsed.transaction.instructions.map (fun i => i.accounts.map (·.pubkey.text)) =
        [[Text.ofString "11111111111111111111111111111111"]] := by
  refine ⟨_, _, rfl, rfl, ?_, ?_⟩
  · rfl
  · rfl

end SolanaTx.Rpc
