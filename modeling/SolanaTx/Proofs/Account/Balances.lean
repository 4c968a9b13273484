import SolanaTx.Account.Snapshot
import SolanaTx.Proofs.Fallible
import SolanaTx.Proofs.PubkeyMap

/-!
# Snapshots from balances

A reported array of balances makes snapshots where each balance that counts as given, and that
belongs to an account, is a whole number. There is a snapshot for each account that holds lamports.
-/

namespace SolanaTx.Snapshots

open Fallible

variable {found : Snapshots} {entries : List (Pubkey × Json)} {keys : List Pubkey}
  {balances : Json}

theorem exists_addBalances_iff : (∃ snapshots, addBalances found entries = .ok snapshots) ↔
    ∀ entry ∈ entries, entry.2.isGiven = true → ∃ n, entry.2.toWhole = .ok n := by
  induction entries generalizing found with
  | nil => exact iff_of_true ⟨found, rfl⟩ fun _ hentry => by cases hentry
  | cons entry rest ih =>
      obtain ⟨key, balance⟩ := entry
      rw [List.forall_mem_cons, addBalances]
      split
      · next hgiven =>
        constructor
        · rintro ⟨snapshots, h⟩
          obtain ⟨n, hn, h⟩ := bind_eq_ok.mp h
          exact ⟨fun _ => ⟨n, hn⟩, ih.mp ⟨snapshots, h⟩⟩
        · rintro ⟨hbalance, hrest⟩
          obtain ⟨n, hn⟩ := hbalance hgiven
          rw [hn, ok_bind]
          exact ih.mpr hrest
      · next hgiven =>
        rw [ih]
        exact ⟨fun h => ⟨fun hgiven' => absurd hgiven' hgiven, h⟩, fun h => h.2⟩

theorem exists_ofBalances_iff : (∃ snapshots, ofBalances keys balances = .ok snapshots) ↔
    ∃ items, balances.elements = .ok items ∧ ∀ entry ∈ keys.zip items,
      entry.2.isGiven = true → ∃ n, entry.2.toWhole = .ok n := by
  constructor
  · rintro ⟨snapshots, h⟩
    obtain ⟨items, hitems, h⟩ := bind_eq_ok.mp h
    exact ⟨items, hitems, exists_addBalances_iff.mp ⟨snapshots, h⟩⟩
  · rintro ⟨items, hitems, h⟩
    rw [ofBalances, hitems, ok_bind]
    exact exists_addBalances_iff.mpr h

/-- Whole numbers are balances. -/
theorem exists_ofBalances (keys : List Pubkey) (balances : List Int) :
    ∃ snapshots, ofBalances keys (.list (balances.map .int)) = .ok snapshots := by
  refine exists_ofBalances_iff.mpr ⟨_, rfl, ?_⟩
  intro entry hentry _
  obtain ⟨n, -, hn⟩ := List.mem_map.mp (List.of_mem_zip hentry).2
  exact ⟨n, by rw [← hn, Json.toWhole]⟩

/-! ## What balances make -/

/-- The snapshot of an account of which only the balance is known. Without lamports it does not
exist. -/
def held (key : Pubkey) (lamports : Nat) : Option AccountSnapshot :=
  if lamports = 0 then none else some ⟨key, none, lamports, none⟩

theorem exists_addBalances_eq {entries : List (Pubkey × Nat)}
    (hnodup : (entries.map Prod.fst).Nodup)
    (hfresh : ∀ key ∈ entries.map Prod.fst, key ∉ found.keys) :
    ∃ snapshots, addBalances found (entries.map fun entry => (entry.1, .int entry.2)) =
        .ok snapshots ∧
      snapshots.keys = found.keys ++ (entries.filter (0 < ·.2)).map Prod.fst ∧
      ∀ key, snapshots.get? key = ((entries.lookup key).bind (held key)).or (found.get? key) := by
  induction entries generalizing found with
  | nil => exact ⟨found, rfl, by simp, by simp⟩
  | cons entry rest ih =>
      obtain ⟨first, n⟩ := entry
      obtain ⟨hfirst, hrest⟩ := List.nodup_cons.mp hnodup
      obtain ⟨hnew, hothers⟩ := List.forall_mem_cons.mp hfresh
      have hlookup : rest.lookup first = none := by
        rw [List.lookup_eq_none_iff]
        intro entry hentry
        exact bne_iff_ne.mpr (ne_of_mem_of_not_mem (List.mem_map_of_mem hentry) hfirst).symm
      by_cases hn : n = 0
      · obtain ⟨snapshots, hread, hkeys, hget⟩ := ih hrest hothers
        refine ⟨snapshots, ?_, ?_, ?_⟩
        · simpa [addBalances, Json.isGiven, hn] using hread
        · simpa [hn] using hkeys
        · intro key
          rw [hget]
          by_cases hkey : key = first
          · simp [hkey, hlookup, held, hn]
          · simp [List.lookup_cons, beq_false_of_ne hkey]
      · -- the keys of the rest are fresh to the account put in as well
        have hfound : (found.insert first ⟨first, none, n, none⟩).keys = found.keys ++ [first] := by
          rw [PubkeyMap.keys_insert, if_neg hnew]
        have hothers' : ∀ key ∈ rest.map Prod.fst,
            key ∉ (found.insert first ⟨first, none, n, none⟩).keys := by
          intro key hkey
          rw [hfound, List.mem_append, List.mem_singleton, not_or]
          exact ⟨hothers key hkey, ne_of_mem_of_not_mem hkey hfirst⟩
        obtain ⟨snapshots, hread, hkeys, hget⟩ := ih hrest hothers'
        refine ⟨snapshots, ?_, ?_, ?_⟩
        · simpa [addBalances, Json.isGiven, hn, Json.toWhole, ok_bind] using hread
        · simpa [hfound, Nat.pos_of_ne_zero hn] using hkeys
        · intro key
          rw [hget, PubkeyMap.get?_insert]
          by_cases hkey : key = first
          · simp [hkey, hlookup, held, hn]
          · simp [List.lookup_cons, beq_false_of_ne hkey, hkey]

/-- There is a snapshot for each account with lamports, in the order of the accounts. -/
theorem exists_ofBalances_eq {balances : List Nat} (hkeys : keys.Nodup)
    (hlength : balances.length = keys.length) :
    ∃ snapshots, ofBalances keys (.list (balances.map fun n : Nat => .int n)) = .ok snapshots ∧
      snapshots.keys = ((keys.zip balances).filter (0 < ·.2)).map Prod.fst ∧
      ∀ key n, (key, n) ∈ keys.zip balances → snapshots.get? key = held key n := by
  have hfirst : (keys.zip balances).map Prod.fst = keys := List.map_fst_zip hlength.ge
  obtain ⟨snapshots, hread, hsnapshots, hget⟩ :=
    @exists_addBalances_eq {} (keys.zip balances) (hfirst.symm ▸ hkeys)
      fun key _ => List.not_mem_nil
  refine ⟨snapshots, ?_, hsnapshots, ?_⟩
  · rw [ofBalances, Json.elements, ok_bind, List.zip_map_right]
    exact hread
  · intro key n hmem
    have hlookup : (keys.zip balances).lookup key = some n :=
      (PubkeyMap.mem_entries_iff ⟨keys.zip balances, hfirst.symm ▸ hkeys⟩).mp hmem
    rw [hget, hlookup, Option.bind_some]
    exact Option.or_none

end SolanaTx.Snapshots
