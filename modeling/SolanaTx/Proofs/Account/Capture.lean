import SolanaTx.Account.Snapshot
import SolanaTx.Proofs.Account.Deltas

/-!
# Captured accounts

Snapshots are captured of the accounts that instructions and calls mention, each of them once and
in the order of first mention. Two captures of the same accounts have a delta for each of these
accounts that exists on either side.
-/

namespace SolanaTx

/-! ## Mentions -/

/-- All mentions of accounts by instructions, in their order: of each instruction its program, and
then its accounts. -/
def mentions (instructions : List Instruction) : List Pubkey :=
  instructions.flatMap fun i => i.program :: i.accounts.map (·.pubkey)

/-- Whether keys are the accounts that instructions mention, each once and in the order of first
mention. -/
structure ListsMentions (keys : List Pubkey) (instructions : List Instruction) : Prop where
  nodup : keys.Nodup
  mem_iff : ∀ key, key ∈ keys ↔
    ∃ i ∈ instructions, i.program = key ∨ ∃ a ∈ i.accounts, a.pubkey = key
  ordered : keys.Pairwise fun key later =>
    (mentions instructions).idxOf key < (mentions instructions).idxOf later

theorem mem_mentions_iff {instructions : List Instruction} {key : Pubkey} :
    key ∈ mentions instructions ↔
      ∃ i ∈ instructions, i.program = key ∨ ∃ a ∈ i.accounts, a.pubkey = key := by
  simp only [mentions, List.mem_flatMap, List.mem_cons, List.mem_map, eq_comm]

/-- What is left of a list without its repetitions stands in the order in which it came first. -/
theorem pairwise_idxOf_eraseDups {α : Type} [DecidableEq α] (xs : List α) :
    xs.eraseDups.Pairwise fun x later => xs.idxOf x < xs.idxOf later := by
  induction xs using List.reverseRecOn with
  | nil => exact List.Pairwise.nil
  | append_singleton xs x ih =>
      have hkept : xs.eraseDups.Pairwise fun y later =>
          (xs ++ [x]).idxOf y < (xs ++ [x]).idxOf later := by
        apply ih.imp_of_mem
        intro y later hy hlater hlt
        rw [List.mem_eraseDups] at hy hlater
        rwa [List.idxOf_append_of_mem hy, List.idxOf_append_of_mem hlater]
      rw [List.eraseDups_append, List.removeAll]
      by_cases hx : x ∈ xs
      · rw [List.filter_cons_of_neg (by simpa using hx)]
        simpa using hkept
      · -- what is new comes behind all that was there
        rw [List.filter_cons_of_pos (by simpa using hx)]
        apply List.pairwise_append.mpr
        refine ⟨hkept, List.pairwise_singleton _ _, ?_⟩
        intro y hy later hlater
        obtain rfl := List.mem_singleton.mp hlater
        rw [List.mem_eraseDups] at hy
        rw [List.idxOf_append_of_mem hy, List.idxOf_append_of_notMem hx]
        exact Nat.lt_add_right _ (List.idxOf_lt_length_of_mem hy)

theorem listsMentions_mentionedKeys (instructions : List Instruction) :
    ListsMentions (mentionedKeys instructions) instructions := by
  have hordered := pairwise_idxOf_eraseDups (mentions instructions)
  constructor
  case nodup =>
    apply hordered.imp
    rintro key _ hlt rfl
    exact Nat.lt_irrefl _ hlt
  case mem_iff =>
    intro key
    rw [mentionedKeys, List.mem_eraseDups]
    exact mem_mentions_iff
  case ordered => exact hordered

/-! ## Captures -/

/-- The snapshot of an account that was found under a key. -/
def Account.snapshot (key : Pubkey) (account : Account) : AccountSnapshot :=
  ⟨key, account.owner, account.lamports, some account.data.length⟩

namespace Snapshots

variable {keys : List Pubkey} {lookUp before after : Pubkey → Option Account} {key : Pubkey}

theorem capture_concat (keys : List Pubkey) (lookUp : Pubkey → Option Account) (key : Pubkey) :
    capture (keys ++ [key]) lookUp =
      match lookUp key with
      | some account => (capture keys lookUp).insert key (account.snapshot key)
      | none => capture keys lookUp := by
  rw [capture, List.foldl_append]
  rfl

/-- A capture finds an account where it was asked for and exists. -/
theorem get?_capture : (capture keys lookUp).get? key =
    if key ∈ keys then (lookUp key).map (Account.snapshot key) else none := by
  induction keys using List.reverseRecOn with
  | nil => rfl
  | append_singleton keys last ih =>
      rw [capture_concat]
      by_cases hkey : key = last
      · subst hkey
        cases hfound : lookUp key with
        | none => simp [ih, hfound]
        | some account => simp [PubkeyMap.get?_insert]
      · cases lookUp last with
        | none => simp [ih, hkey]
        | some account => simp [PubkeyMap.get?_insert, ih, hkey]

theorem mem_keys_capture_iff : key ∈ (capture keys lookUp).keys ↔
    key ∈ keys ∧ (lookUp key).isSome := by
  rw [← PubkeyMap.isSome_get?_iff, get?_capture]
  split <;> simp [*]

theorem contains_diff_capture_iff :
    ((capture keys before).diff (capture keys after)).contains key ↔
      key ∈ keys ∧ ((before key).isSome ∨ (after key).isSome) := by
  rw [PubkeyMap.contains_iff_mem_keys, mem_keys_diff, mem_keys_capture_iff, mem_keys_capture_iff,
    and_or_left]

/-- An account that was asked for has no delta where it exists on neither side. -/
theorem get?_diff_capture_eq_none_iff (hkey : key ∈ keys) :
    ((capture keys before).diff (capture keys after)).get? key = none ↔
      before key = none ∧ after key = none := by
  rw [PubkeyMap.get?_eq_none_iff, ← PubkeyMap.contains_iff_mem_keys, contains_diff_capture_iff]
  simp [hkey]

end Snapshots

end SolanaTx
