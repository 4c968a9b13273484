import Mathlib.Data.Finset.Card
import Mathlib.Data.List.FinRange
import Mathlib.Order.Interval.Finset.Nat
import SolanaTx.Proofs.Bytes.Base58
import SolanaTx.Proofs.Fallible
import SolanaTx.Proofs.Json.Access
import SolanaTx.Rpc.Accounts

/-!
# Roles of reported accounts

The keys of a message and those loaded from tables form one list of accounts. Three counts of the
header say which of them sign and which may be written: the list falls into the keys that sign, the
other keys of the message and the loaded ones, and the accounts that are only read stand at the end
of each part.
-/

namespace SolanaTx.Rpc

open Fallible

/-- The accounts of a message, with counts that fit the keys. -/
structure Accounts where
  keys : List Pubkey
  signers : Nat
  readonlySigners : Nat
  readonlyOthers : Nat
  loadedWritable : List Pubkey
  loadedReadonly : List Pubkey
  signers_le : signers ≤ keys.length
  readonlySigners_le : readonlySigners ≤ signers
  readonlyOthers_le : readonlyOthers ≤ keys.length - signers

namespace Accounts

variable (a : Accounts)

/-- The keys that instructions refer to by their places. -/
def all : List Pubkey :=
  a.keys ++ a.loadedWritable ++ a.loadedReadonly

theorem length_all :
    a.all.length = a.keys.length + a.loadedWritable.length + a.loadedReadonly.length := by
  rw [all, List.length_append, List.length_append]

def IsSigner (i : Nat) : Prop :=
  i < a.signers

/-- Whether the account at a place may be written: as a key that signs, as another key of the
message, or as a loaded key. -/
def IsWritable (i : Nat) : Prop :=
  i < a.signers - a.readonlySigners ∨
    a.signers ≤ i ∧ i < a.keys.length - a.readonlyOthers ∨
    a.keys.length ≤ i ∧ i < a.keys.length + a.loadedWritable.length

instance (i : Nat) : Decidable (a.IsSigner i) :=
  inferInstanceAs (Decidable (i < a.signers))

instance (i : Nat) : Decidable (a.IsWritable i) :=
  inferInstanceAs (Decidable (_ ∨ _ ∧ _ ∨ _ ∧ _))

/-- The account at a place with its role. -/
def role (i : Fin a.all.length) : AccountMeta :=
  ⟨a.all[i], decide (a.IsSigner i), decide (a.IsWritable i)⟩

def roles : List AccountMeta :=
  List.ofFn a.role

/-- The counts as a header has them. -/
def header : Header :=
  ⟨a.signers, a.readonlySigners, a.readonlyOthers⟩

/-! ## Accounts in a document -/

/-- An entry for a key: its text, or an object with it. -/
def IsKeyEntry (key : Pubkey) (entry : Json) : Prop :=
  entry = .text key.text ∨ entry.get? "pubkey" = some (.text key.text)

/-- Whether a message and the details of its execution report the accounts. -/
structure AreWrittenIn (message details : Json) : Prop where
  keys : ∃ entries, message.HasList "accountKeys" entries ∧
    List.Forall₂ IsKeyEntry a.keys entries
  header : ∃ header, message.get? "header" = some header ∧
    header.get? "numRequiredSignatures" = some (.int a.signers) ∧
    header.get? "numReadonlySignedAccounts" = some (.int a.readonlySigners) ∧
    header.get? "numReadonlyUnsignedAccounts" = some (.int a.readonlyOthers)
  loaded : ∃ addresses, details.HasObject "loadedAddresses" addresses ∧
    (Json.object addresses).HasList "writable" (a.loadedWritable.map fun key => .text key.text) ∧
    (Json.object addresses).HasList "readonly" (a.loadedReadonly.map fun key => .text key.text)

variable {a} {message details : Json}

theorem keyEntry_of_isKeyEntry {key : Pubkey} {entry : Json} (h : IsKeyEntry key entry) :
    keyEntry entry = .ok (.text key.text) := by
  rcases h with rfl | h
  · rfl
  · obtain ⟨fields, rfl⟩ := Json.exists_object_of_get? h
    exact Json.fieldD_of_get? "" h

theorem key_text (k : Pubkey) : key (.text k.text) = .ok k := by
  rw [key, Pubkey.ofText?_text]

theorem loadedAccounts_eq {addresses : Json} {role : Text} {keys : List Pubkey}
    (h : addresses.HasList role (keys.map fun key => .text key.text)) (isWritable : Bool) :
    loadedAccounts addresses role isWritable =
      .ok (keys.map fun key => ⟨key, false, isWritable⟩) := by
  rw [loadedAccounts, h.fieldOr_eq, ok_bind, Json.elements, ok_bind]
  apply mapM_map_eq_ok
  intro k
  rw [key_text]
  rfl

theorem AreWrittenIn.ofMessage_eq (h : a.AreWrittenIn message details) :
    Header.ofMessage message = .ok a.header := by
  obtain ⟨header, hheader, hsigners, hreadonlySigners, hreadonlyOthers⟩ := h.header
  rw [Header.ofMessage, Json.fieldOr_of_get? _ hheader, Json.orElse_of_get? _ hsigners, ok_bind,
    Json.fieldD_of_get? _ hsigners, Json.fieldD_of_get? _ hreadonlySigners,
    Json.fieldD_of_get? _ hreadonlyOthers]
  rfl

theorem isSigner_header (a : Accounts) (i : Nat) :
    a.header.isSigner i = decide (a.IsSigner i) :=
  decide_eq_decide.mpr Int.ofNat_lt

theorem isWritable_header (a : Accounts) {i : Nat} (hi : i < a.keys.length) :
    a.header.isWritable a.keys.length i = decide (a.IsWritable i) := by
  have hsigners := a.signers_le
  have hreadonly := a.readonlySigners_le
  have hothers := a.readonlyOthers_le
  rw [Header.isWritable, isSigner_header]
  by_cases hsigner : a.IsSigner i
  · rw [decide_eq_true hsigner, if_pos rfl]
    apply decide_eq_decide.mpr
    rw [IsSigner] at hsigner
    simp only [IsWritable, header]
    omega
  · rw [decide_eq_false hsigner, if_neg Bool.false_ne_true]
    apply decide_eq_decide.mpr
    rw [IsSigner] at hsigner
    simp only [IsWritable, header]
    omega

/-- The keys of the message with what the header says of them, and then the loaded keys. -/
theorem roles_eq (a : Accounts) : a.roles =
    (a.header.accounts a.keys ++ a.loadedWritable.map fun key => ⟨key, false, true⟩) ++
      a.loadedReadonly.map fun key => ⟨key, false, false⟩ := by
  have hsigners := a.signers_le
  have hothers := a.readonlyOthers_le
  have hlength : (a.header.accounts a.keys).length = a.keys.length := by
    rw [Header.accounts, List.length_map, List.length_zipIdx]
  apply List.ext_getElem
  · simp [roles, hlength, length_all, Nat.add_assoc]
  · intro i hi _
    have hbound : i < a.all.length := by simpa [roles] using hi
    have hrole : a.roles[i] = a.role ⟨i, hbound⟩ := List.getElem_ofFn hi
    rw [hrole, role]
    -- the list falls into the keys of the message and the loaded ones of either role
    simp only [all, Fin.getElem_fin, List.getElem_append, List.length_append, List.length_map,
      hlength]
    split
    · split
      · next hkey =>
        simp only [Header.accounts, List.getElem_map, List.getElem_zipIdx, Nat.zero_add,
          isSigner_header, isWritable_header a hkey]
      · next hloaded hkey =>
        have hsigner : ¬ a.IsSigner i := by
          rw [IsSigner]
          omega
        have hwritable : a.IsWritable i := .inr (.inr ⟨by omega, hloaded⟩)
        rw [List.getElem_map, decide_eq_false hsigner, decide_eq_true hwritable]
    · next hlast =>
      have hsigner : ¬ a.IsSigner i := by
        rw [IsSigner]
        omega
      have hwritable : ¬ a.IsWritable i := by
        rw [IsWritable]
        omega
      rw [List.getElem_map, decide_eq_false hsigner, decide_eq_false hwritable]

theorem AreWrittenIn.messageAccounts_eq (h : a.AreWrittenIn message details) :
    messageAccounts message details = .ok a.roles := by
  obtain ⟨entries, hentries, hkeys⟩ := h.keys
  obtain ⟨addresses, haddresses, hwritable, hreadonly⟩ := h.loaded
  have htexts : entries.mapM keyEntry = .ok (a.keys.map fun key => .text key.text) :=
    mapM_eq_ok_of_forall₂ (fun _ _ => keyEntry_of_isKeyEntry) hkeys
  have hread : (a.keys.map fun key => Json.text key.text).mapM key = .ok a.keys := by
    rw [mapM_map_eq_ok key_text, List.map_id']
  rw [messageAccounts, hentries.fieldOr_eq, ok_bind, Json.elements, ok_bind, htexts, ok_bind,
    h.ofMessage_eq, ok_bind, hread, ok_bind, haddresses.fieldOr_eq, ok_bind,
    loadedAccounts_eq hwritable, ok_bind, loadedAccounts_eq hreadonly, ok_bind, roles_eq]
  rfl

theorem accountAt_roles (a : Accounts) (i : Fin a.all.length) :
    accountAt a.roles (i.val : Int) = .ok (a.role i) := by
  have hfound : a.roles[i.val]? = some (a.role i) := by
    rw [roles, List.getElem?_ofFn, dif_pos i.isLt]
  have hplace : ¬ (i.val : Int) < 0 := by omega
  rw [accountAt, if_neg hplace, if_neg hplace, Int.toNat_natCast, hfound]

/-! ## How many accounts there are of each role -/

theorem countP_range_eq_card (p : Nat → Prop) [DecidablePred p] (n : Nat) :
    (List.range n).countP (fun i => decide (p i)) = ((Finset.range n).filter p).card := by
  rw [List.countP_eq_length_filter]
  rfl

theorem countP_roles (a : Accounts) (p : AccountMeta → Bool) (q : Nat → Prop) [DecidablePred q]
    (h : ∀ i, p (a.role i) = decide (q i)) :
    a.roles.countP p = ((Finset.range a.all.length).filter q).card := by
  rw [← countP_range_eq_card, ← List.map_coe_finRange_eq_range, List.countP_map, roles,
    List.ofFn_eq_map, List.countP_map]
  exact List.countP_congr fun i _ => by simp [h]

/-- As many accounts sign as the header says. -/
theorem countP_isSigner (a : Accounts) : a.roles.countP (·.isSigner) = a.signers := by
  have hsigners := a.signers_le
  have hall := a.length_all
  rw [countP_roles a _ a.IsSigner fun _ => rfl]
  have hset : (Finset.range a.all.length).filter a.IsSigner = Finset.range a.signers := by
    ext i
    rw [Finset.mem_filter, Finset.mem_range, Finset.mem_range, IsSigner]
    omega
  rw [hset, Finset.card_range]

/-- The accounts that are only read are the last of those that sign, the last of the other keys of
the message and the loaded ones of that role. -/
theorem countP_isReadonly (a : Accounts) : a.roles.countP (fun account => !account.isWritable) =
    a.readonlySigners + a.readonlyOthers + a.loadedReadonly.length := by
  have hsigners := a.signers_le
  have hreadonly := a.readonlySigners_le
  have hothers := a.readonlyOthers_le
  have hall := a.length_all
  rw [countP_roles a _ (fun i => ¬ a.IsWritable i) fun i => by simp [role]]
  -- one interval for each part of the list, at its end
  have hset : (Finset.range a.all.length).filter (fun i => ¬ a.IsWritable i) =
      (Finset.Ico (a.signers - a.readonlySigners) a.signers ∪
        Finset.Ico (a.keys.length - a.readonlyOthers) a.keys.length) ∪
        Finset.Ico (a.keys.length + a.loadedWritable.length) a.all.length := by
    ext i
    rw [Finset.mem_filter, Finset.mem_range, Finset.mem_union, Finset.mem_union, Finset.mem_Ico,
      Finset.mem_Ico, Finset.mem_Ico, IsWritable]
    omega
  rw [hset, Finset.card_union_of_disjoint, Finset.card_union_of_disjoint, Nat.card_Ico,
    Nat.card_Ico, Nat.card_Ico]
  · omega
  · rw [Finset.disjoint_left]
    intro i hi hi'
    rw [Finset.mem_Ico] at hi hi'
    omega
  · rw [Finset.disjoint_left]
    intro i hi hi'
    rw [Finset.mem_union, Finset.mem_Ico, Finset.mem_Ico] at hi
    rw [Finset.mem_Ico] at hi'
    omega

end Accounts

end SolanaTx.Rpc
