import Mathlib.Algebra.BigOperators.Group.Finset.Basic
import Mathlib.Algebra.Ring.Int.Defs
import SolanaTx.PubkeyMap

/-!
# Look-ups by public key

A map is known by its keys in their order and by what is found for each of them.
-/

namespace SolanaTx

section Lookup

variable {α β : Type} (entries : List (Pubkey × α)) (key : Pubkey)

theorem lookup_map_snd (f : Pubkey → α → β) :
    (entries.map fun entry => (entry.1, f entry.1 entry.2)).lookup key =
      (entries.lookup key).map (f key) := by
  induction entries with
  | nil => rfl
  | cons entry rest ih =>
      obtain ⟨first, value⟩ := entry
      by_cases h : key = first
      · simp [h]
      · simp [List.lookup_cons, beq_false_of_ne h, ih]

theorem lookup_filter_fst (p : Pubkey → Bool) :
    (entries.filter fun entry => p entry.1).lookup key =
      if p key then entries.lookup key else none := by
  induction entries with
  | nil => simp
  | cons entry rest ih =>
      obtain ⟨first, value⟩ := entry
      by_cases h : key = first
      · subst h
        by_cases hp : p key
        · simp [hp]
        · simpa [hp] using ih
      · -- an entry of another key changes nothing, whether it is kept or not
        have hskip := beq_false_of_ne h
        by_cases hp : p first <;> simp [List.lookup_cons, hskip, hp, ih]

end Lookup

namespace PubkeyMap

variable {α : Type}

/-- The entries of a map are its keys, each with what is found for it. -/
theorem entries_eq_filterMap (m : PubkeyMap α) :
    m.entries = m.keys.filterMap fun key => (m.get? key).map fun value => (key, value) := by
  obtain ⟨entries, hnodup⟩ := m
  show entries = (entries.map Prod.fst).filterMap fun key =>
    (entries.lookup key).map fun value => (key, value)
  induction entries with
  | nil => rfl
  | cons entry rest ih =>
      obtain ⟨first, value⟩ := entry
      obtain ⟨hfirst, hrest⟩ := List.nodup_cons.mp hnodup
      have hother : ∀ key ∈ rest.map Prod.fst,
          (((first, value) :: rest).lookup key).map (fun value => (key, value)) =
            (rest.lookup key).map fun value => (key, value) := by
        intro key hkey
        have hne : key ≠ first := fun heq => hfirst (heq ▸ hkey)
        rw [List.lookup_cons, beq_false_of_ne hne]
      rw [List.map_cons, List.filterMap_cons, List.lookup_cons_self, Option.map_some,
        List.filterMap_congr hother, ← ih hrest]

theorem values_eq_filterMap (m : PubkeyMap α) : m.values = m.keys.filterMap m.get? := by
  rw [values, entries_eq_filterMap, List.map_filterMap]
  congr 1
  funext key
  rw [Option.map_map]
  exact Option.map_id_apply

theorem isSome_get?_iff (m : PubkeyMap α) {key : Pubkey} :
    (m.get? key).isSome ↔ key ∈ m.keys :=
  m.contains_iff_mem_keys key

theorem mem_entries_iff (m : PubkeyMap α) {key : Pubkey} {value : α} :
    (key, value) ∈ m.entries ↔ m.get? key = some value := by
  rw [entries_eq_filterMap]
  simp only [List.mem_filterMap, Option.map_eq_some_iff, Prod.mk.injEq]
  constructor
  · rintro ⟨_, -, _, h, rfl, rfl⟩
    exact h
  · intro h
    have hkey : key ∈ m.keys := m.isSome_get?_iff.mp (by rw [h, Option.isSome_some])
    exact ⟨key, hkey, value, h, rfl, rfl⟩

theorem get?_eq_none_iff (m : PubkeyMap α) {key : Pubkey} : m.get? key = none ↔ key ∉ m.keys := by
  rw [← isSome_get?_iff, Bool.not_eq_true, Option.isSome_eq_false_iff, Option.isNone_iff_eq_none]

/-- A sum over the values of a map runs over its keys, or over any keys that include them. -/
theorem sum_values (m : PubkeyMap α) (f : α → Int) {all : Finset Pubkey}
    (hall : ∀ key ∈ m.keys, key ∈ all) :
    (m.values.map f).sum = ∑ key ∈ all, ((m.get? key).map f).getD 0 := by
  have hentry : ∀ entry ∈ m.entries, f entry.2 = ((m.get? entry.1).map f).getD 0 := by
    rintro ⟨key, value⟩ hentry
    rw [m.mem_entries_iff.mp hentry, Option.map_some, Option.getD_some]
  calc (m.values.map f).sum
    _ = (m.entries.map fun entry => f entry.2).sum := by rw [values, List.map_map]; rfl
    _ = (m.entries.map fun entry => ((m.get? entry.1).map f).getD 0).sum := by
        rw [List.map_congr_left hentry]
    _ = (m.keys.map fun key => ((m.get? key).map f).getD 0).sum := by rw [keys, List.map_map]; rfl
    _ = ∑ key ∈ m.keys.toFinset, ((m.get? key).map f).getD 0 :=
        (List.sum_toFinset _ m.nodup_keys).symm
    _ = ∑ key ∈ all, ((m.get? key).map f).getD 0 := by
        apply Finset.sum_subset
        · exact fun key hkey => hall key (List.mem_toFinset.mp hkey)
        · intro key _ hkey
          rw [m.get?_eq_none_iff.mpr (mt List.mem_toFinset.mpr hkey)]
          rfl

end PubkeyMap

end SolanaTx
