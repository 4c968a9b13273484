import SolanaTx.Proofs.Bytes.RoundTrip
import SolanaTx.Proofs.Layout.Grammar

/-!
# An encoder

Values that fit a layout, and the bytes that an encoder writes for them. What it
writes is one of the forms that the grammar knows for the value.
-/

namespace SolanaTx

/-- Whether a number is one of those of a width. -/
def IntWidth.Holds (signed : Bool) (width : IntWidth) (n : Int) : Prop :=
  if signed then
    -(Nat.pow 2 (8 * width.bytes - 1) : Int) ≤ n ∧ n < Nat.pow 2 (8 * width.bytes - 1)
  else 0 ≤ n ∧ n < Nat.pow 2 (8 * width.bytes)

namespace Layout

mutual

/-- Whether a value is one of a layout. The value of a list of single bytes is a row of bytes; bytes
that are no text can stand for one. -/
def Fits : Layout → Value → Prop
  | .int signed width, .int n => width.Holds signed n
  | .bool, .bool _ => True
  | .pubkey, .pubkey _ => True
  | .bytes, .bytes data => IsCount data.length
  | .string, .text t => ∃ data, Bytes.ofText? t = some data ∧ IsCount data.length
  | .string, .bytes data => data.toText? = none ∧ IsCount data.length
  | .fixedBytes size, .bytes data => (data.length : Int) = size
  | .array element size, .list items => (items.length : Int) = size ∧ ∀ v ∈ items, Fits element v
  | .vec element, .bytes data => element.isByte ∧ IsCount data.length
  | .vec element, .list items =>
      element.isByte = false ∧ IsCount items.length ∧ ∀ v ∈ items, Fits element v
  | .option _, .none => True
  | .option element, v => Fits element v
  | .struct fields, .struct entries => FitsFields fields entries
  | .enum variants, .variant name payload => FitsVariant variants 0 name payload
  | _, _ => False

/-- Whether entries are those of the fields of a struct, in their order. -/
def FitsFields : List Field → List (Json × Value) → Prop
  | [], entries => entries = []
  | ⟨name, type, _⟩ :: rest, entries =>
      ∃ v others, entries = (name, v) :: others ∧ Fits type v ∧ FitsFields rest others

/-- Whether one of some variants, of which the first has a given index, has a name and carries a
value. Indices go up to 255. -/
def FitsVariant : List Variant → Nat → Json → Value → Prop
  | [], _, _, _ => False
  | ⟨candidate, none⟩ :: rest, index, name, payload =>
      (candidate = name ∧ index ≤ 255 ∧ payload = .none) ∨
        FitsVariant rest (index + 1) name payload
  | ⟨candidate, some type⟩ :: rest, index, name, payload =>
      (candidate = name ∧ index ≤ 255 ∧ Fits type payload) ∨
        FitsVariant rest (index + 1) name payload

end

mutual

/-- The bytes of a value. -/
def encode : Layout → Value → Bytes
  | .int _ width, .int n => Bytes.ofInt width.bytes n
  | .bool, .bool b => [if b then 1 else 0]
  | .pubkey, .pubkey key => key.bytes
  | .bytes, .bytes data => prefixed data.length data
  | .string, .text t =>
      let data := (Bytes.ofText? t).getD []
      prefixed data.length data
  | .string, .bytes data => prefixed data.length data
  | .fixedBytes _, .bytes data => data
  | .array element _, .list items => items.flatMap fun v => encode element v
  | .vec _, .bytes data => prefixed data.length data
  | .vec element, .list items => prefixed items.length (items.flatMap fun v => encode element v)
  | .option _, .none => [0]
  | .option element, v => 1 :: encode element v
  | .struct fields, .struct entries => encodeFields fields entries
  | .enum variants, .variant name payload => encodeVariant variants 0 name payload
  | _, _ => []

def encodeFields : List Field → List (Json × Value) → Bytes
  | ⟨_, type, _⟩ :: rest, (_, v) :: others => encode type v ++ encodeFields rest others
  | _, _ => []

/-- The index of the variant with a name, and what it carries. -/
def encodeVariant : List Variant → Nat → Json → Value → Bytes
  | [], _, _, _ => []
  | ⟨candidate, none⟩ :: rest, index, name, payload =>
      if candidate.isEqual name then [UInt8.ofNat index]
      else encodeVariant rest (index + 1) name payload
  | ⟨candidate, some type⟩ :: rest, index, name, payload =>
      if candidate.isEqual name then UInt8.ofNat index :: encode type payload
      else encodeVariant rest (index + 1) name payload

end

theorem capacity_bytes (width : IntWidth) :
    Bytes.capacity width.bytes = Nat.pow 2 (8 * width.bytes) := by
  cases width <;> rfl

theorem read_ofInt {signed : Bool} {width : IntWidth} {n : Int} (h : width.Holds signed n) :
    n = if signed then (Bytes.ofInt width.bytes n).toInt
      else ((Bytes.ofInt width.bytes n).toNat : Int) := by
  have hcapacity := capacity_bytes width
  unfold IntWidth.Holds at h
  cases signed with
  | true =>
      have hhalf : Nat.pow 2 (8 * width.bytes) = 2 * Nat.pow 2 (8 * width.bytes - 1) := by
        cases width <;> rfl
      rw [if_pos rfl] at h ⊢
      exact (Bytes.toInt_ofInt (by omega) (by omega)).symm
  | false =>
      rw [if_neg Bool.false_ne_true] at h ⊢
      exact (Bytes.toNat_ofInt_of_lt h.1 (by omega)).symm

theorem writesEach_flatMap {writes : Value → Bytes → Prop} {write : Value → Bytes}
    {items : List Value} (h : ∀ v ∈ items, writes v (write v)) :
    WritesEach writes items (items.flatMap write) := by
  induction items with
  | nil => rfl
  | cons v rest ih =>
      rw [List.forall_mem_cons] at h
      exact ⟨write v, rest.flatMap write, rfl, h.1, ih h.2⟩

theorem fits_option {element : Layout} {v : Value} (hv : v ≠ .none) :
    Fits (.option element) v = Fits element v := by
  rw [Fits]
  exact hv

theorem encode_option {element : Layout} {v : Value} (hv : v ≠ .none) :
    encode (.option element) v = 1 :: encode element v := by
  rw [encode]
  exact hv

theorem mem_names_of_fitsVariant {variants : List Variant} {index : Nat} {name : Json}
    {payload : Value} (h : FitsVariant variants index name payload) :
    name ∈ variants.map (·.name) := by
  induction variants generalizing index with
  | nil => cases h
  | cons variant rest ih =>
      obtain ⟨candidate, _ | type⟩ := variant
      all_goals
        rcases h with ⟨rfl, -⟩ | hrest
        · exact List.mem_cons_self
        · exact List.mem_cons_of_mem _ (ih hrest)

/-- Variants of other names are passed over. -/
theorem encodeVariant_cons_of_isEqual_eq_false {variant : Variant} {rest : List Variant}
    {index : Nat} {name : Json} {payload : Value} (h : variant.name.isEqual name = false) :
    encodeVariant (variant :: rest) index name payload =
      encodeVariant rest (index + 1) name payload := by
  obtain ⟨candidate, _ | type⟩ := variant
  all_goals
    rw [encodeVariant, if_neg]
    rw [h]
    exact Bool.false_ne_true

mutual

/-- The bytes of a value write it. -/
theorem writes_encode {layout : Layout} {v : Value} (hnames : layout.Everywhere VariantsApart)
    (h : layout.Fits v) : layout.Writes v (layout.encode v) := by
  cases layout with
  | int signed width =>
      match v, h with
      | .int n, h => exact ⟨Bytes.length_ofInt _ _, congrArg Value.int (read_ofInt h)⟩
  | bool =>
      match v, h with
      | .bool b, _ => exact ⟨if b then 1 else 0, rfl, by cases b <;> rfl⟩
  | pubkey =>
      match v, h with
      | .pubkey key, _ => exact ⟨key, rfl, rfl⟩
  | bytes =>
      match v, h with
      | .bytes data, h => exact ⟨data, h, rfl, rfl⟩
  | string =>
      match v, h with
      | .text t, ⟨data, hdata, hcount⟩ =>
          refine ⟨data, hcount, ?_, ?_⟩
          · rw [encode, hdata, Option.getD_some]
          · rw [textValue, Bytes.toText?_of_ofText? hdata]
      | .bytes data, ⟨hdata, hcount⟩ =>
          refine ⟨data, hcount, rfl, ?_⟩
          rw [textValue, hdata]
  | fixedBytes size =>
      match v, h with
      | .bytes data, h => exact ⟨h, rfl⟩
  | array element size =>
      match v, h with
      | .list items, ⟨hsize, hitems⟩ =>
          have heach := writesEach_flatMap fun v hv => writes_encode hnames.2 (hitems v hv)
          exact ⟨items, rfl, hsize, heach⟩
  | vec element =>
      match v, h with
      | .bytes data, ⟨hbyte, hcount⟩ =>
          rw [Writes, if_pos hbyte]
          exact ⟨data, hcount, rfl, rfl⟩
      | .list items, ⟨hbyte, hcount, hitems⟩ =>
          have heach := writesEach_flatMap fun v hv => writes_encode hnames.2 (hitems v hv)
          rw [Writes, if_neg (by rw [hbyte]; exact Bool.false_ne_true)]
          exact ⟨items, _, hcount, rfl, rfl, heach⟩
  | option element =>
      by_cases hv : v = .none
      · subst hv
        exact .inl ⟨rfl, rfl⟩
      · rw [fits_option hv] at h
        rw [encode_option hv]
        exact .inr ⟨encode element v, rfl, writes_encode hnames.2 h⟩
  | struct fields =>
      match v, h with
      | .struct entries, h => exact ⟨entries, rfl, writesFields_encode hnames.2 h⟩
  | enum variants =>
      match v, h with
      | .variant name payload, h =>
          obtain ⟨place, rest, hbytes, hplace, hwrites⟩ :=
            writesVariant_encode hnames.1 hnames.2 h
          rw [encode, hbytes]
          refine ⟨_, rest, rfl, ?_⟩
          have hlt : 0 + place < UInt8.size := Nat.lt_succ_of_le hplace
          rw [UInt8.toNat_ofNat_of_lt' hlt, Nat.zero_add]
          exact hwrites
  | unknown tag => cases h

theorem writesFields_encode {fields : List Field} {entries : List (Json × Value)}
    (hnames : EverywhereInFields VariantsApart fields) (h : FitsFields fields entries) :
    WritesFields fields entries (encodeFields fields entries) := by
  cases fields with
  | nil =>
      obtain rfl : entries = [] := h
      exact ⟨rfl, rfl⟩
  | cons field rest =>
      obtain ⟨name, type, decimals⟩ := field
      obtain ⟨v, others, rfl, hv, hothers⟩ := h
      exact ⟨v, others, type.encode v, encodeFields rest others, rfl, rfl,
        writes_encode hnames.1 hv, writesFields_encode hnames.2 hothers⟩

/-- The encoder writes the place of a variant and then what the variant carries. -/
theorem writesVariant_encode {variants : List Variant} {index : Nat} {name : Json}
    {payload : Value} (hdistinct : DistinctNames (variants.map (·.name)))
    (hnames : EverywhereInVariants VariantsApart variants)
    (h : FitsVariant variants index name payload) :
    ∃ place rest, encodeVariant variants index name payload =
        UInt8.ofNat (index + place) :: rest ∧ index + place ≤ 255 ∧
      WritesVariant variants place (.variant name payload) rest := by
  cases variants with
  | nil => cases h
  | cons variant rest =>
      rw [List.map_cons] at hdistinct
      obtain ⟨hself, hothers⟩ := hdistinct.isEqual_head
      by_cases hrest : FitsVariant rest (index + 1) name payload
      · -- the variant stands further on, so that this one has another name
        have hother := hothers name (mem_names_of_fitsVariant hrest)
        obtain ⟨place, later, hbytes, hplace, hwrites⟩ :=
          writesVariant_encode hdistinct.tail hnames.rest hrest
        refine ⟨place + 1, later, ?_, by omega, ?_⟩
        · rw [encodeVariant_cons_of_isEqual_eq_false hother, hbytes, Nat.add_right_comm]
          rfl
        · rw [writesVariant_succ]
          exact hwrites
      · obtain ⟨candidate, _ | type⟩ := variant
        · obtain ⟨rfl, hindex, rfl⟩ := h.resolve_right hrest
          refine ⟨0, [], ?_, hindex, rfl, rfl⟩
          rw [encodeVariant, if_pos hself]
          rfl
        · obtain ⟨rfl, hindex, hpayload⟩ := h.resolve_right hrest
          refine ⟨0, type.encode payload, ?_, hindex, payload, rfl, writes_encode hnames.1 hpayload⟩
          rw [encodeVariant, if_pos hself]
          rfl

end

end Layout

end SolanaTx
