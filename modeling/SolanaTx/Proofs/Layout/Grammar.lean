import SolanaTx.Layout.Read

/-!
# Which bytes write a value

The grammar of layouts, apart from any reader: which bytes write a value, by
recursion on its layout. A truth value may be written by any byte that is not zero,
and bytes that are no text are a value of their own; all else has one form.
-/

namespace SolanaTx.Layout

/-- Bytes with a number in front of them. -/
def prefixed (count : Nat) (rest : Bytes) : Bytes :=
  Bytes.ofNat countSize count ++ rest

/-- Whether a number can stand in front of bytes. -/
def IsCount (count : Nat) : Prop :=
  count < Nat.pow 2 32

instance (count : Nat) : Decidable (IsCount count) :=
  inferInstanceAs (Decidable (count < Nat.pow 2 32))

/-- Whether bytes are the values of a list, one behind the other. -/
def WritesEach (writes : Value → Bytes → Prop) : List Value → Bytes → Prop
  | [], b => b = []
  | v :: rest, b => ∃ first later, b = first ++ later ∧ writes v first ∧
      WritesEach writes rest later

mutual

/-- Whether bytes write a value of a layout. -/
def Writes : Layout → Value → Bytes → Prop
  | .int signed width, v, b =>
      b.length = width.bytes ∧ v = .int (if signed then b.toInt else b.toNat)
  | .bool, v, b => ∃ byte, b = [byte] ∧ v = .bool (byte != 0)
  | .pubkey, v, b => ∃ key, b = key.bytes ∧ v = .pubkey key
  | .bytes, v, b => ∃ data, IsCount data.length ∧ b = prefixed data.length data ∧ v = .bytes data
  | .string, v, b =>
      ∃ data, IsCount data.length ∧ b = prefixed data.length data ∧ v = textValue data
  | .fixedBytes size, v, b => (b.length : Int) = size ∧ v = .bytes b
  | .array element size, v, b => ∃ items, v = .list items ∧ (items.length : Int) = size ∧
      WritesEach (fun v b => Writes element v b) items b
  | .vec element, v, b =>
      if element.isByte then
        ∃ data, IsCount data.length ∧ b = prefixed data.length data ∧ v = .bytes data
      else
        ∃ items rest, IsCount items.length ∧ b = prefixed items.length rest ∧ v = .list items ∧
          WritesEach (fun v b => Writes element v b) items rest
  | .option element, v, b => (b = [0] ∧ v = .none) ∨ ∃ rest, b = 1 :: rest ∧ Writes element v rest
  | .struct fields, v, b => ∃ entries, v = .struct entries ∧ WritesFields fields entries b
  | .enum variants, v, b => ∃ index rest, b = index :: rest ∧
      WritesVariant variants index.toNat v rest
  | .unknown _, _, _ => False

/-- Whether bytes write the fields of a struct, one behind the other. -/
def WritesFields : List Field → List (Json × Value) → Bytes → Prop
  | [], entries, b => entries = [] ∧ b = []
  | ⟨name, type, _⟩ :: rest, entries, b => ∃ v others first later, entries = (name, v) :: others ∧
      b = first ++ later ∧ Writes type v first ∧ WritesFields rest others later

/-- Whether bytes write what the variant carries that stands at a place. -/
def WritesVariant : List Variant → Nat → Value → Bytes → Prop
  | [], _, _, _ => False
  | ⟨name, none⟩ :: _, 0, v, b => v = .variant name .none ∧ b = []
  | ⟨name, some type⟩ :: _, 0, v, b => ∃ payload, v = .variant name payload ∧ Writes type payload b
  | _ :: rest, left + 1, v, b => WritesVariant rest left v b

end

theorem writesVariant_succ (variant : Variant) (rest : List Variant) (left : Nat) (v : Value)
    (b : Bytes) : WritesVariant (variant :: rest) (left + 1) v b = WritesVariant rest left v b := by
  obtain ⟨name, _ | type⟩ := variant
  all_goals rfl

/-! ## Names -/

/-- Whether names are texts, of which no two are the same. -/
def DistinctNames (names : List Json) : Prop :=
  ∃ texts : List Text, names = texts.map .text ∧ texts.Nodup

theorem DistinctNames.tail {name : Json} {rest : List Json} (h : DistinctNames (name :: rest)) :
    DistinctNames rest := by
  obtain ⟨texts, htexts, hnodup⟩ := h
  obtain ⟨t, others, rfl, -, rfl⟩ := List.map_eq_cons_iff.mp htexts.symm
  exact ⟨others, rfl, hnodup.tail⟩

/-- Names that differ are told apart where a name is looked for. -/
theorem DistinctNames.isEqual_head {name : Json} {rest : List Json}
    (h : DistinctNames (name :: rest)) :
    name.isEqual name = true ∧ ∀ other ∈ rest, name.isEqual other = false := by
  obtain ⟨texts, htexts, hnodup⟩ := h
  obtain ⟨t, others, rfl, rfl, rfl⟩ := List.map_eq_cons_iff.mp htexts.symm
  refine ⟨beq_self_eq_true t, ?_⟩
  intro other hother
  obtain ⟨t', ht', rfl⟩ := List.mem_map.mp hother
  have hne : t ≠ t' := fun heq => (List.nodup_cons.mp hnodup).1 (heq ▸ ht')
  exact beq_eq_false_iff_ne.mpr hne

/-- A name is a key, and one of its own among those before it. -/
theorem DistinctNames.sameKey_middle {before after : List Json} {name : Json}
    (h : DistinctNames (before ++ name :: after)) :
    name.isKey ∧ name.sameKey name = true ∧ ∀ other ∈ before, other.sameKey name = false := by
  obtain ⟨texts, htexts, hnodup⟩ := h
  obtain ⟨texts₁, texts₂, rfl, rfl, hrest⟩ := List.map_eq_append_iff.mp htexts.symm
  obtain ⟨t, texts₃, rfl, rfl, rfl⟩ := List.map_eq_cons_iff.mp hrest
  refine ⟨rfl, beq_self_eq_true t, ?_⟩
  intro other hother
  obtain ⟨t', ht', rfl⟩ := List.mem_map.mp hother
  have hne : t' ≠ t := (List.nodup_append.mp hnodup).2.2 t' ht' t List.mem_cons_self
  exact beq_eq_false_iff_ne.mpr hne

/-- Whether the fields that a layout itself has differ in their names. -/
def FieldsApart : Layout → Prop
  | .struct fields => DistinctNames (fields.map (·.name))
  | _ => True

/-- Whether the variants that a layout itself has differ in their names. -/
def VariantsApart : Layout → Prop
  | .enum variants => DistinctNames (variants.map (·.name))
  | _ => True

mutual

/-- Whether a property holds of a layout and of all layouts inside it. -/
def Everywhere (p : Layout → Prop) : Layout → Prop
  | .array element size => p (.array element size) ∧ Everywhere p element
  | .vec element => p (.vec element) ∧ Everywhere p element
  | .option element => p (.option element) ∧ Everywhere p element
  | .struct fields => p (.struct fields) ∧ EverywhereInFields p fields
  | .enum variants => p (.enum variants) ∧ EverywhereInVariants p variants
  | layout => p layout

def EverywhereInFields (p : Layout → Prop) : List Field → Prop
  | [] => True
  | ⟨_, type, _⟩ :: rest => Everywhere p type ∧ EverywhereInFields p rest

def EverywhereInVariants (p : Layout → Prop) : List Variant → Prop
  | [] => True
  | ⟨_, none⟩ :: rest => EverywhereInVariants p rest
  | ⟨_, some type⟩ :: rest => Everywhere p type ∧ EverywhereInVariants p rest

end

theorem EverywhereInVariants.rest {p : Layout → Prop} {variant : Variant} {rest : List Variant}
    (h : EverywhereInVariants p (variant :: rest)) : EverywhereInVariants p rest := by
  obtain ⟨name, _ | type⟩ := variant
  · exact h
  · exact h.2

/-! ## Least sizes -/

theorem length_prefixed (count : Nat) (rest : Bytes) :
    (prefixed count rest).length = countSize + rest.length := by
  rw [prefixed, List.length_append, Bytes.length_ofNat]

/-- Values of a least size take up at least that size each. -/
theorem minSize_le_of_writesEach {writes : Value → Bytes → Prop} {size : Int}
    (hsize : ∀ v b, writes v b → size ≤ b.length) {items : List Value} {b : Bytes}
    (h : WritesEach writes items b) : items.length * size ≤ b.length := by
  induction items generalizing b with
  | nil => simp
  | cons v rest ih =>
      obtain ⟨first, later, rfl, hfirst, hlater⟩ := h
      have hle := hsize v first hfirst
      have hrest := ih hlater
      rw [List.length_cons, List.length_append, Int.natCast_add, Int.natCast_add, Int.add_mul]
      omega

mutual

/-- No value takes up fewer bytes than its layout says. -/
theorem minSize_le_of_writes {layout : Layout} {v : Value} {b : Bytes} (h : layout.Writes v b) :
    layout.minSize ≤ b.length := by
  cases layout with
  | int signed width =>
      rw [h.1]
      exact Int.le_refl _
  | bool =>
      obtain ⟨byte, rfl, -⟩ := h
      exact Int.le_refl _
  | pubkey =>
      obtain ⟨key, rfl, -⟩ := h
      rw [key.length_eq]
      exact Int.le_refl _
  | bytes | string =>
      obtain ⟨data, -, rfl, -⟩ := h
      rw [length_prefixed, minSize]
      omega
  | fixedBytes size => exact Int.le_of_eq h.1.symm
  | array element size =>
      obtain ⟨items, -, rfl, hitems⟩ := h
      exact minSize_le_of_writesEach (fun _ _ hv => minSize_le_of_writes hv) hitems
  | vec element =>
      rw [Writes] at h
      rw [minSize]
      split at h
      · obtain ⟨data, -, rfl, -⟩ := h
        rw [length_prefixed]
        omega
      · obtain ⟨items, rest, -, rfl, -⟩ := h
        rw [length_prefixed]
        omega
  | option element =>
      rcases h with ⟨rfl, -⟩ | ⟨rest, rfl, -⟩
      · exact Int.le_refl _
      · rw [minSize, List.length_cons]
        omega
  | struct fields =>
      obtain ⟨entries, -, hfields⟩ := h
      exact minSizeSum_le_of_writesFields hfields
  | enum variants =>
      obtain ⟨index, rest, rfl, -⟩ := h
      rw [minSize, List.length_cons]
      omega
  | unknown tag => cases h

theorem minSizeSum_le_of_writesFields {fields : List Field} {entries : List (Json × Value)}
    {b : Bytes} (h : WritesFields fields entries b) : minSizeSum fields ≤ b.length := by
  cases fields with
  | nil => exact Int.natCast_nonneg _
  | cons field rest =>
      obtain ⟨name, type, decimals⟩ := field
      obtain ⟨v, others, first, later, -, rfl, hfirst, hlater⟩ := h
      have hleast := minSize_le_of_writes hfirst
      have hrest := minSizeSum_le_of_writesFields hlater
      rw [minSizeSum, List.length_append, Int.natCast_add]
      omega

end

end SolanaTx.Layout
