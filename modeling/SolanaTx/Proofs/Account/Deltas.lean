import SolanaTx.Proofs.PubkeyMap
import SolanaTx.Proofs.Report.States

/-!
# Deltas of two sets of snapshots

There is one delta for each account that exists before or after, and it holds the
snapshots of both sides. What all accounts gain is what they hold after less what they
held before, and the deltas back in time are the same ones turned around.
-/

namespace SolanaTx

/-! ## One account -/

namespace Transition

/-- What became of an account with the given snapshots, if it exists on either side. -/
def between? : Option AccountSnapshot → Option AccountSnapshot → Option Transition
  | some pre, some post => some (.changed pre post)
  | none, some post => some (.created post)
  | some pre, none => some (.closed pre)
  | none, none => none

/-- The same transition back in time. -/
def reverse : Transition → Transition
  | .changed pre post => .changed post pre
  | .created post => .closed post
  | .closed pre => .created pre

theorem between?_comm (pre post : Option AccountSnapshot) :
    between? post pre = (between? pre post).map reverse := by
  cases pre <;> cases post <;> rfl

end Transition

namespace AccountDelta

/-- The same delta back in time. -/
def reverse (d : AccountDelta) : AccountDelta :=
  { d with transition := d.transition.reverse }

section Kind

variable (d : AccountDelta)

theorem kindText_eq_created_iff : d.kindText = "created" ↔ d.pre? = none := by
  obtain ⟨key, _ | _ | _⟩ := d <;> simp +decide [kindText, pre?]

theorem kindText_eq_closed_iff : d.kindText = "closed" ↔ d.post? = none := by
  obtain ⟨key, _ | _ | _⟩ := d <;> simp +decide [kindText, post?]

theorem kindText_eq_changed_iff : d.kindText = "changed" ↔ d.pre? ≠ none ∧ d.post? ≠ none := by
  obtain ⟨key, _ | _ | _⟩ := d <;> simp +decide [kindText, pre?, post?]

theorem not_pre?_and_post?_eq_none : ¬(d.pre? = none ∧ d.post? = none) := by
  obtain ⟨key, _ | _ | _⟩ := d <;> simp [pre?, post?]

theorem lamports_eq_ite :
    d.lamports = if d.kindText = "closed" then 0 else d.current.lamports := by
  simp only [kindText_eq_closed_iff]
  obtain ⟨key, _ | _ | _⟩ := d <;> simp [lamports, current, post?]

theorem lamports_sub_change : d.lamports - d.change = (d.pre?.map (·.lamports)).getD 0 := by
  obtain ⟨key, _ | _ | _⟩ := d <;> simp [lamports, change, pre?, post?]

end Kind

/-- Whether two deltas say the same in opposite directions. -/
structure IsReverseOf (d' d : AccountDelta) : Prop where
  pre? : d'.pre? = d.post?
  post? : d'.post? = d.pre?
  change : d'.change = -d.change
  created_iff : d'.kindText = "created" ↔ d.kindText = "closed"
  closed_iff : d'.kindText = "closed" ↔ d.kindText = "created"
  changed_iff : d'.kindText = "changed" ↔ d.kindText = "changed"

theorem isReverseOf_reverse (d : AccountDelta) : d.reverse.IsReverseOf d := by
  have hpre : d.reverse.pre? = d.post? := by obtain ⟨key, _ | _ | _⟩ := d <;> rfl
  have hpost : d.reverse.post? = d.pre? := by obtain ⟨key, _ | _ | _⟩ := d <;> rfl
  constructor
  case pre? => exact hpre
  case post? => exact hpost
  case change => simp [change, hpre, hpost]
  case created_iff => rw [kindText_eq_created_iff, kindText_eq_closed_iff, hpre]
  case closed_iff => rw [kindText_eq_created_iff, kindText_eq_closed_iff, hpost]
  case changed_iff =>
    rw [kindText_eq_changed_iff, kindText_eq_changed_iff, hpre, hpost]
    exact and_comm

/-- Whether a delta is that of an account with the given snapshots, and the account has a row that
shows what it holds in the end exactly where the numbers of the row can be written. -/
structure IsBetween (d : AccountDelta) (key : Pubkey) (pre post : Option AccountSnapshot) :
    Prop where
  pubkey : d.pubkey = key
  pre? : d.pre? = pre
  post? : d.post? = post
  exists_side : ¬(pre = none ∧ post = none)
  created_iff : d.kindText = "created" ↔ pre = none ∧ post ≠ none
  closed_iff : d.kindText = "closed" ↔ pre ≠ none ∧ post = none
  changed_iff : d.kindText = "changed" ↔ pre ≠ none ∧ post ≠ none
  lamports : d.lamports = if d.kindText = "closed" then 0 else d.current.lamports
  shown : d.IsWritable → ∀ style, ∃ cells, Report.stateCells style (some d) = .ok cells ∧
    cells[2]? = some (Decimal.grouped d.lamports)
  not_shown : ¬d.IsWritable → ∀ style, Report.stateCells style (some d) = .error .badValue
  before : d.lamports - d.change = (pre.map (·.lamports)).getD 0

theorem isBetween_of_sides {d : AccountDelta} {key : Pubkey} {pre post : Option AccountSnapshot}
    (hkey : d.pubkey = key) (hpre : d.pre? = pre) (hpost : d.post? = post) :
    d.IsBetween key pre post := by
  subst hkey hpre hpost
  have hside := d.not_pre?_and_post?_eq_none
  constructor
  case pubkey => rfl
  case pre? => rfl
  case post? => rfl
  case exists_side => exact hside
  case created_iff =>
    rw [kindText_eq_created_iff]
    tauto
  case closed_iff =>
    rw [kindText_eq_closed_iff]
    tauto
  case changed_iff => exact d.kindText_eq_changed_iff
  case lamports => exact d.lamports_eq_ite
  case before => exact d.lamports_sub_change
  case shown =>
    intro h style
    obtain ⟨cells, hcells⟩ := Report.exists_stateCells_iff.mpr h
    obtain ⟨-, length, change, -, -, rfl⟩ := Report.stateCells_eq_ok_iff.mp hcells
    exact ⟨_, hcells, rfl⟩
  case not_shown => exact fun h style => Report.stateCells_of_not_isWritable style h

end AccountDelta

/-! ## All accounts -/

namespace Snapshots

/-- The lamports of all accounts. -/
def total (m : Snapshots) : Int :=
  (m.values.map (·.lamports)).sum

variable (pre post : Snapshots)

theorem get?_diff (key : Pubkey) : (pre.diff post).get? key =
    (Transition.between? (pre.get? key) (post.get? key)).map (AccountDelta.mk key) := by
  have hfresh := lookup_filter_fst post.entries key fun key => !pre.contains key
  have hcreated := lookup_map_snd (post.entries.filter fun entry => !pre.contains entry.1) key
    fun key after => (⟨key, .created after⟩ : AccountDelta)
  show List.lookup key (_ ++ _) = _
  rw [List.lookup_append, lookup_map_snd, hcreated, hfresh, ← PubkeyMap.get?, ← PubkeyMap.get?,
    PubkeyMap.contains]
  unfold deltaFrom
  cases pre.get? key <;> cases post.get? key <;> rfl

theorem keys_diff : (pre.diff post).keys =
    pre.keys ++ post.keys.filter fun key => key ∉ pre.keys := by
  have hfresh : ∀ key, (!pre.contains key) = decide (key ∉ pre.keys) := by
    intro key
    simp [← PubkeyMap.contains_iff_mem_keys]
  simp only [diff, hfresh]
  simp [PubkeyMap.keys, List.filter_map, Function.comp_def]

theorem mem_keys_diff {key : Pubkey} :
    key ∈ (pre.diff post).keys ↔ key ∈ pre.keys ∨ key ∈ post.keys := by
  rw [keys_diff, List.mem_append, List.mem_filter, decide_eq_true_eq]
  tauto

theorem get?_diff_comm (key : Pubkey) :
    (post.diff pre).get? key = ((pre.diff post).get? key).map AccountDelta.reverse := by
  rw [get?_diff, get?_diff, Transition.between?_comm, Option.map_map, Option.map_map]
  rfl

theorem isBetween_of_get?_diff {key : Pubkey} {d : AccountDelta}
    (h : (pre.diff post).get? key = some d) : d.IsBetween key (pre.get? key) (post.get? key) := by
  rw [get?_diff] at h
  obtain ⟨t, ht, rfl⟩ := Option.map_eq_some_iff.mp h
  cases hpre : pre.get? key <;> cases hpost : post.get? key <;> rw [hpre, hpost] at ht
  case none.none => cases ht
  all_goals
    obtain rfl := Option.some.inj ht
    exact AccountDelta.isBetween_of_sides rfl rfl rfl

/-- Whatever moves between accounts, all of them together gain the difference of what they hold on
both sides. -/
theorem sum_change_diff :
    ((pre.diff post).values.map AccountDelta.change).sum = post.total - pre.total := by
  let keys := (pre.diff post).keys.toFinset
  have hpre : ∀ key ∈ pre.keys, key ∈ keys := fun key hkey =>
    List.mem_toFinset.mpr ((mem_keys_diff pre post).mpr (.inl hkey))
  have hpost : ∀ key ∈ post.keys, key ∈ keys := fun key hkey =>
    List.mem_toFinset.mpr ((mem_keys_diff pre post).mpr (.inr hkey))
  rw [total, total, PubkeyMap.sum_values _ _ hpre, PubkeyMap.sum_values _ _ hpost,
    PubkeyMap.sum_values _ _ fun key => List.mem_toFinset.mpr, ← Finset.sum_sub_distrib]
  apply Finset.sum_congr rfl
  intro key _
  rw [get?_diff]
  cases pre.get? key <;> cases post.get? key <;>
    simp [Transition.between?, AccountDelta.change, AccountDelta.pre?, AccountDelta.post?]

/-- Two sets of snapshots have one delta for each account of either, first those that exist before.
It holds both snapshots of the account, tells which of them is missing, and its row, where it has
one, shows what the account holds after, which without the change is what it held before. All
changes add up to the difference of what all accounts hold. Back in time the deltas are those of the
same accounts, with opposite changes. -/
theorem diff_complete (pre post : Snapshots) :
    (pre.diff post).keys.Nodup ∧
    (pre.diff post).keys = pre.keys ++ post.keys.filter (fun key => key ∉ pre.keys) ∧
    (∀ key d, (pre.diff post).get? key = some d →
      d.IsBetween key (pre.get? key) (post.get? key)) ∧
    ((pre.diff post).values.map AccountDelta.change).sum = post.total - pre.total ∧
    (post.diff pre).keys.Perm (pre.diff post).keys ∧
    ∀ key d, (pre.diff post).get? key = some d →
      ∃ d', (post.diff pre).get? key = some d' ∧ d'.IsReverseOf d := by
  have hnodup : ∀ m : Deltas, m.keys.Nodup := fun m => m.nodup_keys
  refine ⟨hnodup _, keys_diff pre post, fun key d => isBetween_of_get?_diff pre post,
    sum_change_diff pre post, ?_, ?_⟩
  · apply (List.perm_ext_iff_of_nodup (hnodup _) (hnodup _)).mpr
    intro key
    rw [mem_keys_diff, mem_keys_diff, or_comm]
  · intro key d h
    refine ⟨d.reverse, ?_, d.isReverseOf_reverse⟩
    rw [get?_diff_comm, h, Option.map_some]

/-- An account that rises from the least number that can be written to the greatest has no row. -/
theorem diff_complete_overlong :
    let most : Int := 10 ^ 4300 - 1
    let pre : Snapshots := {
      entries := [(.memoProgram, ⟨.memoProgram, none, -most, none⟩)]
      nodup_keys := List.nodup_singleton _ }
    let post : Snapshots := {
      entries := [(.memoProgram, ⟨.memoProgram, none, most, none⟩)]
      nodup_keys := List.nodup_singleton _ }
    Decimal.isWritable (-most) = true ∧ Decimal.isWritable most = true ∧
      ∃ d, (pre.diff post).get? .memoProgram = some d ∧
        ∀ style, Report.stateCells style (some d) = .error .badValue := by
  intro most pre post
  refine ⟨by decide +kernel, by decide +kernel,
    ⟨.memoProgram, .changed ⟨.memoProgram, none, -most, none⟩ ⟨.memoProgram, none, most, none⟩⟩,
    rfl, fun style => Report.stateCells_of_not_isWritable style fun h => ?_⟩
  exact absurd h.change (by decide +kernel)

end Snapshots

end SolanaTx
