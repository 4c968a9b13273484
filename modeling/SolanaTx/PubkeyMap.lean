import SolanaTx.Pubkey

/-!
# Values by public key

The entries stand in the order in which their keys came first. A later value of a
key takes the place of the earlier one.
-/

namespace SolanaTx

/-- Puts a value into entries: in place of that of its key, or at the end. -/
def putKey {α : Type} (key : Pubkey) (value : α) : List (Pubkey × α) → List (Pubkey × α)
  | [] => [(key, value)]
  | entry :: rest => if entry.1 = key then (key, value) :: rest else entry :: putKey key value rest

theorem map_fst_putKey {α : Type} (key : Pubkey) (value : α) (entries : List (Pubkey × α)) :
    (putKey key value entries).map Prod.fst =
      if key ∈ entries.map Prod.fst then entries.map Prod.fst
      else entries.map Prod.fst ++ [key] := by
  induction entries with
  | nil => simp [putKey]
  | cons entry rest ih =>
    by_cases h : entry.1 = key
    · simp [putKey, h]
    · by_cases hrest : key ∈ rest.map Prod.fst
      · simp_all [putKey]
      · simp_all [putKey, Ne.symm h]

theorem lookup_putKey {α : Type} (key key' : Pubkey) (value : α) (entries : List (Pubkey × α)) :
    (putKey key value entries).lookup key' =
      if key' = key then some value else entries.lookup key' := by
  induction entries with
  | nil =>
    by_cases h : key' = key
    · simp [putKey, h]
    · simp [putKey, List.lookup_cons, h, beq_false_of_ne h]
  | cons entry rest ih =>
    obtain ⟨first, old⟩ := entry
    by_cases hfirst : first = key
    · by_cases h : key' = key
      · simp [putKey, hfirst, h]
      · simp [putKey, List.lookup_cons, hfirst, h, beq_false_of_ne h]
    · by_cases h : key' = first
      · simp [putKey, hfirst, h]
      · simpa [putKey, List.lookup_cons, hfirst, beq_false_of_ne h] using ih

/-- A mapping from public keys that keeps the order of its keys. -/
structure PubkeyMap (α : Type) where
  entries : List (Pubkey × α) := []
  nodup_keys : (entries.map Prod.fst).Nodup := by simp

namespace PubkeyMap

variable {α : Type}

instance : Inhabited (PubkeyMap α) := ⟨{}⟩

def keys (m : PubkeyMap α) : List Pubkey :=
  m.entries.map Prod.fst

def values (m : PubkeyMap α) : List α :=
  m.entries.map Prod.snd

def size (m : PubkeyMap α) : Nat :=
  m.entries.length

def get? (m : PubkeyMap α) (key : Pubkey) : Option α :=
  m.entries.lookup key

def contains (m : PubkeyMap α) (key : Pubkey) : Bool :=
  (m.get? key).isSome

theorem nodup_map_fst_putKey {key : Pubkey} {value : α} {entries : List (Pubkey × α)}
    (h : (entries.map Prod.fst).Nodup) : ((putKey key value entries).map Prod.fst).Nodup := by
  rw [map_fst_putKey]
  split
  · exact h
  · next hkey =>
    rw [List.nodup_append]
    refine ⟨h, by simp, ?_⟩
    intro a ha b hb hab
    exact hkey (List.mem_singleton.mp hb ▸ hab ▸ ha)

def insert (m : PubkeyMap α) (key : Pubkey) (value : α) : PubkeyMap α :=
  ⟨putKey key value m.entries, nodup_map_fst_putKey m.nodup_keys⟩

def ofList (entries : List (Pubkey × α)) : PubkeyMap α :=
  entries.foldl (fun m entry => m.insert entry.1 entry.2) {}

/-- The same keys with other values. -/
def map {β : Type} (f : α → β) (m : PubkeyMap α) : PubkeyMap β :=
  ⟨m.entries.map fun entry => (entry.1, f entry.2), by
    simpa [List.map_map, Function.comp_def] using m.nodup_keys⟩

theorem keys_insert (m : PubkeyMap α) (key : Pubkey) (value : α) :
    (m.insert key value).keys = if key ∈ m.keys then m.keys else m.keys ++ [key] :=
  map_fst_putKey key value m.entries

theorem get?_insert (m : PubkeyMap α) (key key' : Pubkey) (value : α) :
    (m.insert key value).get? key' = if key' = key then some value else m.get? key' :=
  lookup_putKey key key' value m.entries

theorem contains_iff_mem_keys (m : PubkeyMap α) (key : Pubkey) :
    m.contains key = true ↔ key ∈ m.keys := by
  show (m.entries.lookup key).isSome = true ↔ key ∈ m.entries.map Prod.fst
  generalize m.entries = entries
  induction entries with
  | nil => simp
  | cons entry rest ih =>
    obtain ⟨first, value⟩ := entry
    by_cases h : key = first
    · simp [h]
    · simp [List.lookup_cons, beq_false_of_ne h, h, ih]

end PubkeyMap

end SolanaTx
