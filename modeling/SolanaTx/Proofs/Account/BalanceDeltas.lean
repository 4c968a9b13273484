import SolanaTx.Proofs.Account.Balances
import SolanaTx.Proofs.Account.Deltas

/-!
# Deltas of balances

Balances before and after a transaction make one delta for each account that holds lamports on
either side. It is told from the two numbers alone whether the account is new, closed or changed.
-/

namespace SolanaTx

/-- Whether a delta is that of an account with so many lamports before and after. -/
structure AccountDelta.Moves (d : AccountDelta) (key : Pubkey) (before after : Nat) : Prop where
  pubkey : d.pubkey = key
  change : d.change = (after : Int) - before
  created_iff : d.kindText = "created" ↔ before = 0 ∧ 0 < after
  closed_iff : d.kindText = "closed" ↔ after = 0 ∧ 0 < before
  changed_iff : d.kindText = "changed" ↔ 0 < before ∧ 0 < after

namespace Snapshots

theorem held_eq_none_iff {key : Pubkey} {n : Nat} : held key n = none ↔ n = 0 := by
  simp [held]

theorem lamports_held (key : Pubkey) (n : Nat) :
    ((held key n).map (·.lamports)).getD 0 = n := by
  by_cases hn : n = 0 <;> simp [held, hn]

theorem mem_keys_iff_of_held {snapshots : Snapshots} {key : Pubkey} {n : Nat}
    (h : snapshots.get? key = held key n) : key ∈ snapshots.keys ↔ n ≠ 0 := by
  rw [← not_iff_not, ← PubkeyMap.get?_eq_none_iff, h, held_eq_none_iff, not_not]

/-- What two balances of an account say of it. -/
theorem moves_of_isBetween {d : AccountDelta} {key : Pubkey} {before after : Nat}
    (h : d.IsBetween key (held key before) (held key after)) : d.Moves key before after := by
  have hnone : ∀ n, held key n ≠ none ↔ 0 < n := by
    intro n
    rw [ne_eq, held_eq_none_iff, Nat.pos_iff_ne_zero]
  constructor
  case pubkey => exact h.pubkey
  case change =>
    rw [AccountDelta.change, h.pre?, h.post?, lamports_held, lamports_held]
  case created_iff => rw [h.created_iff, held_eq_none_iff, hnone]
  case closed_iff => rw [h.closed_iff, held_eq_none_iff, hnone, and_comm]
  case changed_iff => rw [h.changed_iff, hnone, hnone]

/-- Of the accounts that hold lamports after, those that hold none before. -/
theorem filter_keys_after {keys : List Pubkey} {pre post : List Nat} {before : Snapshots}
    (hlength : post.length = pre.length)
    (hbefore : ∀ key n, (key, n) ∈ keys.zip pre → before.get? key = held key n) :
    (((keys.zip post).filter (0 < ·.2)).map Prod.fst).filter (fun key => key ∉ before.keys) =
      ((keys.zip (pre.zip post)).filter fun row => row.2.1 = 0 ∧ 0 < row.2.2).map Prod.fst := by
  have hpost : keys.zip post = (keys.zip (pre.zip post)).map (Prod.map id Prod.snd) := by
    rw [← List.zip_map_right, List.map_snd_zip hlength.le]
  have hpre : keys.zip pre = (keys.zip (pre.zip post)).map (Prod.map id Prod.fst) := by
    rw [← List.zip_map_right, List.map_fst_zip hlength.ge]
  have hpresent : ∀ row ∈ keys.zip (pre.zip post), row.1 ∈ before.keys ↔ row.2.1 ≠ 0 := by
    intro row hrow
    have hrow : (row.1, row.2.1) ∈ keys.zip pre := hpre ▸ List.mem_map_of_mem hrow
    exact mem_keys_iff_of_held (hbefore _ _ hrow)
  rw [hpost, List.filter_map, List.filter_map, List.filter_map, List.filter_filter, List.map_map]
  change List.map Prod.fst _ = _
  congr 1
  apply List.filter_congr
  intro row hrow
  simp [hpresent row hrow]

/-- Balances of distinct accounts on both sides of a transaction have a delta for each account that
holds lamports on either side, which is told from these two numbers. First come the accounts that
hold lamports before, and then the others, both in their order. -/
theorem diff_ofBalances {keys : List Pubkey} {pre post : List Nat} (hkeys : keys.Nodup)
    (hpre : pre.length = keys.length) (hpost : post.length = keys.length) :
    ∃ before after : Snapshots,
      ofBalances keys (.list (pre.map fun n : Nat => .int n)) = .ok before ∧
      ofBalances keys (.list (post.map fun n : Nat => .int n)) = .ok after ∧
      (before.diff after).keys = ((keys.zip pre).filter (0 < ·.2)).map Prod.fst ++
        ((keys.zip (pre.zip post)).filter fun row => row.2.1 = 0 ∧ 0 < row.2.2).map Prod.fst ∧
      ∀ (i : Nat) (key : Pubkey) (m n : Nat),
        keys[i]? = some key → pre[i]? = some m → post[i]? = some n →
          (((before.diff after).get? key).isSome ↔ m ≠ 0 ∨ n ≠ 0) ∧
          ∀ d, (before.diff after).get? key = some d → d.Moves key m n := by
  obtain ⟨before, hbefore, hkeysBefore, hgetBefore⟩ := exists_ofBalances_eq hkeys hpre
  obtain ⟨after, hafter, hkeysAfter, hgetAfter⟩ := exists_ofBalances_eq hkeys hpost
  refine ⟨before, after, hbefore, hafter, ?_, ?_⟩
  · rw [keys_diff, hkeysAfter, filter_keys_after (hpost.trans hpre.symm) hgetBefore, hkeysBefore]
  · intro i key m n hkey hm hn
    have hm : before.get? key = held key m :=
      hgetBefore key m (List.mem_of_getElem? (List.getElem?_zip_eq_some.mpr ⟨hkey, hm⟩))
    have hn : after.get? key = held key n :=
      hgetAfter key n (List.mem_of_getElem? (List.getElem?_zip_eq_some.mpr ⟨hkey, hn⟩))
    constructor
    · rw [PubkeyMap.isSome_get?_iff, mem_keys_diff, mem_keys_iff_of_held hm,
        mem_keys_iff_of_held hn]
    · intro d hd
      apply moves_of_isBetween
      rw [← hm, ← hn]
      exact isBetween_of_get?_diff before after hd

theorem diff_ofBalances_four :
    [Pubkey.systemProgram, .tokenProgram, .memoProgram, .computeBudget].Nodup ∧
    ∃ before after : Snapshots,
      ofBalances [.systemProgram, .tokenProgram, .memoProgram, .computeBudget]
        (.list [.int 0, .int 5, .int 7, .int 0]) = .ok before ∧
      ofBalances [.systemProgram, .tokenProgram, .memoProgram, .computeBudget]
        (.list [.int 3, .int 0, .int 9, .int 0]) = .ok after ∧
      (before.diff after).keys = [.tokenProgram, .memoProgram, .systemProgram] ∧
      (∀ d, (before.diff after).get? .tokenProgram = some d → d.Moves .tokenProgram 5 0) ∧
      (before.diff after).get? .computeBudget = none := by
  have hkeys : [Pubkey.systemProgram, .tokenProgram, .memoProgram, .computeBudget].Nodup := by
    decide
  obtain ⟨before, after, hbefore, hafter, horder, hdeltas⟩ :=
    @diff_ofBalances _ [0, 5, 7, 0] [3, 0, 9, 0] hkeys rfl rfl
  refine ⟨hkeys, before, after, hbefore, hafter, horder.trans (by decide),
    (hdeltas 1 _ 5 0 rfl rfl rfl).2, ?_⟩
  simpa using (hdeltas 3 _ 0 0 rfl rfl rfl).1

end Snapshots

end SolanaTx
