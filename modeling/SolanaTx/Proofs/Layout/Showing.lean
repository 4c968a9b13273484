import SolanaTx.Layout.Display
import SolanaTx.Proofs.Decimal.FixedPoint
import SolanaTx.Proofs.Json.Access
import SolanaTx.Proofs.Layout.Reading

/-!
# Showing what is read

A value that is read has a text by the rule of its kind, for what it holds as for itself, as
long as names tell the fields of a struct and the variants of an enum apart. No value falls
through to the diagnostic, and each variant is found again under its name. A layout has a label
unless it names a size with too many digits.
-/

namespace SolanaTx

open Fallible

namespace Layout

variable {data : Bytes}

theorem DistinctNames.texts_eq {names : List Json} (h : DistinctNames names) :
    ∃ texts, Json.texts names = .ok texts := by
  obtain ⟨texts, rfl, -⟩ := h
  exact ⟨texts, Json.texts_map_text texts⟩

/-! ## Labels -/

mutual

/-- Whether the sizes that a label names can be written. What variants carry is not named. -/
def sizesWritable : Layout → Bool
  | .fixedBytes size => Decimal.isWritable size
  | .array element size => element.sizesWritable && Decimal.isWritable size
  | .vec element | .option element => element.sizesWritable
  | .struct fields => sizesWritableInFields fields
  | _ => true

def sizesWritableInFields : List Field → Bool
  | [] => true
  | ⟨_, type, _⟩ :: rest => type.sizesWritable && sizesWritableInFields rest

end

mutual

/-- A layout has a label, or else there is a size in it that cannot be written. -/
theorem label_cases {layout : Layout} (h : layout.Everywhere VariantsApart) :
    (layout.sizesWritable = true ∧ ∃ t, layout.label = .ok t) ∨
      (layout.sizesWritable = false ∧ layout.label = .error .badValue) := by
  cases layout with
  | int | bool | pubkey | bytes | string | unknown => exact .inl ⟨rfl, _, rfl⟩
  | fixedBytes size =>
      rw [label, Decimal.written, sizesWritable]
      cases Decimal.isWritable size with
      | true => exact .inl ⟨rfl, _, rfl⟩
      | false => exact .inr ⟨rfl, rfl⟩
  | array element size =>
      rw [label, Decimal.written, sizesWritable]
      obtain ⟨hwritable, t, ht⟩ | ⟨hwritable, ht⟩ := label_cases h.2
      · rw [hwritable, ht]
        cases Decimal.isWritable size with
        | true => exact .inl ⟨rfl, _, rfl⟩
        | false => exact .inr ⟨rfl, rfl⟩
      · rw [hwritable, ht]
        exact .inr ⟨rfl, rfl⟩
  | vec element | option element =>
      rw [label, sizesWritable]
      obtain ⟨hwritable, t, ht⟩ | ⟨hwritable, ht⟩ := label_cases h.2
      · rw [hwritable, ht]
        exact .inl ⟨rfl, _, rfl⟩
      · rw [hwritable, ht]
        exact .inr ⟨rfl, rfl⟩
  | struct fields =>
      rw [label, sizesWritable]
      obtain ⟨hwritable, texts, htexts⟩ | ⟨hwritable, htexts⟩ := fieldLabels_cases h.2
      · rw [hwritable, htexts]
        exact .inl ⟨rfl, _, rfl⟩
      · rw [hwritable, htexts]
        exact .inr ⟨rfl, rfl⟩
  | enum variants =>
      obtain ⟨texts, htexts⟩ := h.1.texts_eq
      rw [label, htexts]
      exact .inl ⟨rfl, _, rfl⟩

theorem fieldLabels_cases {fields : List Field} (h : EverywhereInFields VariantsApart fields) :
    (sizesWritableInFields fields = true ∧ ∃ texts, fieldLabels fields = .ok texts) ∨
      (sizesWritableInFields fields = false ∧ fieldLabels fields = .error .badValue) := by
  cases fields with
  | nil => exact .inl ⟨rfl, [], rfl⟩
  | cons field rest =>
      obtain ⟨name, type, decimals⟩ := field
      rw [fieldLabels, sizesWritableInFields]
      obtain ⟨hwritable, t, ht⟩ | ⟨hwritable, ht⟩ := label_cases h.1
      · rw [hwritable, ht]
        obtain ⟨hrest, texts, htexts⟩ | ⟨hrest, htexts⟩ := fieldLabels_cases h.2
        · rw [hrest, htexts]
          exact .inl ⟨rfl, _, rfl⟩
        · rw [hrest, htexts]
          exact .inr ⟨rfl, rfl⟩
      · rw [hwritable, ht]
        exact .inr ⟨rfl, rfl⟩

end

theorem exists_label_iff {layout : Layout} (h : layout.Everywhere VariantsApart) :
    (∃ t, layout.label = .ok t) ↔ layout.sizesWritable = true := by
  obtain ⟨hwritable, hlabel⟩ | ⟨hwritable, hlabel⟩ := label_cases h
  · exact iff_of_true hlabel hwritable
  · simp [hwritable, hlabel]

theorem failsOnly_label {layout : Layout} (h : layout.Everywhere VariantsApart) :
    FailsOnly (· = .badValue) layout.label := by
  obtain ⟨-, t, hlabel⟩ | ⟨-, hlabel⟩ := label_cases h
  · rw [hlabel]
    exact failsOnly_ok t
  · rw [hlabel]
    exact failsOnly_error rfl

/-! ## Numbers -/

/-- A number that can be written is shown, with any places. -/
theorem exists_displayInt {n : Int} (h : Decimal.isWritable n = true) (decimals : Option Int) :
    ∃ t, displayInt n decimals = .ok t := by
  cases decimals with
  | none => exact Decimal.exists_written_iff.mpr h
  | some places =>
      exact ⟨_, Decimal.fixedPoint_eq_ok_iff.mpr ⟨Decimal.partsWritable_of_isWritable h _, rfl⟩⟩

theorem failsOnly_displayInt (n : Int) (decimals : Option Int) :
    FailsOnly (· = .badValue) (displayInt n decimals) := by
  cases decimals with
  | none => exact Decimal.failsOnly_written _ _
  | some places => exact Decimal.failsOnly_fixedPoint _ _

theorem length_le_of_take {raw : Bytes} {size : Nat} {offset : Int}
    (h : take data offset size = .ok raw) : raw.length ≤ size := by
  unfold take at h
  dsimp only at h
  split at h
  · cases h
  · obtain rfl := Except.ok.inj h
    rw [Bytes.slice, List.length_drop, List.length_take]
    unfold Bytes.position
    split <;> split <;> omega

/-- The numbers of sixteen bytes have few digits. -/
theorem isWritable_of_length_le {raw : Bytes} (h : raw.length ≤ 16) (signed : Bool) :
    Decimal.isWritable (if signed then raw.toInt else raw.toNat) = true := by
  have hlt := raw.toNat_lt_capacity
  have hcapacity : Bytes.capacity raw.length ≤ Bytes.capacity 16 :=
    Nat.pow_le_pow_right (by decide) h
  have hfew : Bytes.capacity 16 < Decimal.scale Decimal.maxDigits := by decide +kernel
  have habs : (if signed then raw.toInt else raw.toNat).natAbs ≤ Bytes.capacity raw.length := by
    unfold Bytes.toInt
    dsimp only
    split
    · split <;> omega
    · omega
  rw [Decimal.isWritable, decide_eq_true_eq]
  omega

/-! ## The last resort -/

mutual

/-- A value as it is shown, with `other` in the place of the diagnostic. -/
def displayOr (other : Value → Except Fault Json) :
    Layout → Value → Option Int → Except Fault Json
  | _, .none, _ => .ok "None"
  | .option element, value, decimals => displayOr other element value decimals
  | _, .bool b, _ => .ok (if b then "true" else "false")
  | _, .int n, decimals => (displayInt n decimals).map .text
  | _, .bytes data, _ => .ok (.text (displayBytes data))
  | _, .pubkey key, _ => .ok (.text key.text)
  | _, .text t, _ => .ok (.text t)
  | .struct fields, .struct entries, _ => do
      pure (.text ("\x7b" ++ Text.join ", " (← displayFieldsOr other fields entries) ++ "\x7d"))
  | .enum variants, .variant name payload, decimals =>
      displayVariantOr other variants name payload decimals
  | .array element _, .list items, decimals => do
      let shown ← displayItems (fun v => displayOr other element v decimals) items
      pure (.text (← listText shown))
  | .vec element, .list items, decimals => do
      let shown ← displayItems (fun v => displayOr other element v decimals) items
      pure (.text (← listText shown))
  | _, value, _ => other value

def displayFieldsOr (other : Value → Except Fault Json) :
    List Field → List (Json × Value) → Except Fault (List Text)
  | [], _ => .ok []
  | ⟨name, type, decimals⟩ :: rest, entries => do
      if !name.isKey then throw .wrongKind
      let shown ← displayOr other type ((Value.entry? name entries).getD .none) decimals
      pure ((name.plain ++ ": " ++ shown.plain) :: (← displayFieldsOr other rest entries))

def displayVariantOr (other : Value → Except Fault Json) :
    List Variant → Json → Value → Option Int → Except Fault Json
  | [], _, _, _ => .error .noVariant
  | ⟨candidate, none⟩ :: rest, name, payload, decimals =>
      if candidate.isEqual name then .ok name
      else displayVariantOr other rest name payload decimals
  | ⟨candidate, some type⟩ :: rest, name, payload, decimals =>
      if candidate.isEqual name then do
        pure (.text (name.plain ++ " " ++ (← displayOr other type payload decimals).plain))
      else displayVariantOr other rest name payload decimals

end

mutual

/-- Values are shown with the diagnostic as the last resort. -/
theorem displayOr_diagnostic (layout : Layout) (v : Value) (decimals : Option Int) :
    displayOr (fun value => .ok (.text value.diagnostic)) layout v decimals =
      display layout v decimals := by
  cases layout with
  | array element size | vec element =>
      have hitems : (fun v => displayOr (fun value => .ok (.text value.diagnostic)) element v
          decimals) = fun v => display element v decimals :=
        funext fun v => displayOr_diagnostic element v decimals
      cases v with
      | list items =>
          rw [displayOr, display, hitems]
      | _ => rfl
  | option element =>
      cases v with
      | none => rfl
      | _ => exact displayOr_diagnostic element _ decimals
  | struct fields =>
      cases v with
      | struct entries =>
          rw [displayOr, display, displayFieldsOr_diagnostic fields entries]
      | _ => rfl
  | enum variants =>
      cases v with
      | variant name payload =>
          rw [displayOr, display, displayVariantOr_diagnostic variants name payload decimals]
      | _ => rfl
  | _ => cases v <;> rfl

theorem displayFieldsOr_diagnostic (fields : List Field) (entries : List (Json × Value)) :
    displayFieldsOr (fun value => .ok (.text value.diagnostic)) fields entries =
      displayFields fields entries := by
  cases fields with
  | nil => rfl
  | cons field rest =>
      obtain ⟨name, type, decimals⟩ := field
      rw [displayFieldsOr, displayFields, displayOr_diagnostic type,
        displayFieldsOr_diagnostic rest]

theorem displayVariantOr_diagnostic (variants : List Variant) (name : Json) (payload : Value)
    (decimals : Option Int) :
    displayVariantOr (fun value => .ok (.text value.diagnostic)) variants name payload decimals =
      displayVariant variants name payload decimals := by
  cases variants with
  | nil => rfl
  | cons variant rest =>
      obtain ⟨candidate, _ | type⟩ := variant
      · rw [displayVariantOr, displayVariant, displayVariantOr_diagnostic rest]
      · rw [displayVariantOr, displayVariant, displayVariantOr_diagnostic rest,
          displayOr_diagnostic type]

end

/-! ## Texts by kind -/

/-- Whether a text shows bytes. -/
def ShowsBytes (v : Value) (t : Text) : Prop :=
  ∃ raw, v = .bytes raw ∧ t = displayBytes raw

/-- Whether texts show the items of a list, which are read one behind the other. -/
def ShowsEach (reader : Int → Except Fault (Value × Int)) (shows : Int → Value → Text → Prop) :
    Int → List Value → List Text → Prop
  | _, [], texts => texts = []
  | offset, v :: rest, texts => ∃ t others next, texts = t :: others ∧ shows offset v t ∧
      reader offset = .ok (v, next) ∧ ShowsEach reader shows next rest others

/-- Whether a text shows a list, of which the first item is read at an offset. -/
def ShowsList (reader : Int → Except Fault (Value × Int)) (shows : Int → Value → Text → Prop)
    (offset : Int) (v : Value) (t : Text) : Prop :=
  ∃ items texts, v = .list items ∧ t = "[" ++ Text.join ", " texts ++ "]" ∧
    ShowsEach reader shows offset items texts

mutual

/-- Whether a text shows the value that is read at an offset, by the rule of its kind. A variant is
the one that stands at the index read there. -/
def ShowsAt (data : Bytes) : Layout → Int → Value → Option Int → Text → Prop
  | .int _ _, _, v, decimals, t => ∃ n, v = .int n ∧ displayInt n decimals = .ok t
  | .bool, _, v, _, t => ∃ b, v = .bool b ∧ t = if b then "true" else "false"
  | .pubkey, _, v, _, t => ∃ key, v = .pubkey key ∧ t = key.text
  | .bytes, _, v, _, t => ShowsBytes v t
  | .string, _, v, _, t => v = .text t ∨ ShowsBytes v t
  | .fixedBytes _, _, v, _, t => ShowsBytes v t
  | .array element _, offset, v, decimals, t =>
      ShowsList (fun o => read data element o) (fun o v t => ShowsAt data element o v decimals t)
        offset v t
  | .vec element, offset, v, decimals, t =>
      if element.isByte then ShowsBytes v t
      else ShowsList (fun o => read data element o)
        (fun o v t => ShowsAt data element o v decimals t) (offset + countSize) v t
  | .option element, offset, v, decimals, t =>
      (readNat data 1 offset = .ok (0, offset + 1) ∧ v = .none ∧ t = "None") ∨
        (readNat data 1 offset = .ok (1, offset + 1) ∧
          ShowsAt data element (offset + 1) v decimals t)
  | .struct fields, offset, v, _, t => ∃ entries texts, v = .struct entries ∧
      t = "\x7b" ++ Text.join ", " texts ++ "\x7d" ∧ ShowsFields data fields offset entries texts
  | .enum variants, offset, v, decimals, t => ∃ index,
      readNat data 1 offset = .ok (index, offset + 1) ∧
        ShowsVariant data variants index (offset + 1) v decimals t
  | .unknown _, _, _, _, _ => False

/-- Whether texts show the fields of a struct, each under its name and by its own decimals. -/
def ShowsFields (data : Bytes) : List Field → Int → List (Json × Value) → List Text → Prop
  | [], _, entries, texts => entries = [] ∧ texts = []
  | ⟨name, type, decimals⟩ :: rest, offset, entries, texts => ∃ v others t shown next,
      entries = (name, v) :: others ∧ texts = (name.plain ++ ": " ++ t) :: shown ∧
      ShowsAt data type offset v decimals t ∧ read data type offset = .ok (v, next) ∧
      ShowsFields data rest next others shown

/-- Whether a text shows the variant at a place, with what it carries. -/
def ShowsVariant (data : Bytes) : List Variant → Nat → Int → Value → Option Int → Text → Prop
  | [], _, _, _, _, _ => False
  | ⟨name, none⟩ :: _, 0, _, v, _, t => v = .variant name .none ∧ t = name.plain
  | ⟨name, some type⟩ :: _, 0, offset, v, decimals, t => ∃ payload shown,
      v = .variant name payload ∧ t = name.plain ++ " " ++ shown ∧
        ShowsAt data type offset payload decimals shown
  | _ :: rest, left + 1, offset, v, decimals, t => ShowsVariant data rest left offset v decimals t

end

theorem showsVariant_succ (variant : Variant) (rest : List Variant) (left : Nat) (offset : Int)
    (v : Value) (decimals : Option Int) (t : Text) :
    ShowsVariant data (variant :: rest) (left + 1) offset v decimals t =
      ShowsVariant data rest left offset v decimals t := by
  obtain ⟨name, _ | type⟩ := variant
  all_goals rfl

/-! ## What is read has a text -/

/-- A number ends behind its bytes. -/
theorem eq_of_readNat_eq_ok {width n : Nat} {offset stop : Int}
    (h : readNat data width offset = .ok (n, stop)) : stop = offset + width := by
  obtain ⟨raw, -, h⟩ := bind_eq_ok.mp h
  exact (Prod.mk.inj (pure_eq_ok.mp h)).2.symm

/-- A list that is read has a text where each of its items has. -/
theorem exists_showsList {reader : Int → Except Fault (Value × Int)}
    {shows : Int → Value → Text → Prop}
    (hshows : ∀ offset v next, reader offset = .ok (v, next) → ∃ t, shows offset v t)
    {count : Nat} {offset stop : Int} {items : List Value}
    (h : readMany reader count offset = .ok (items, stop)) :
    ∃ t, ShowsList reader shows offset (.list items) t := by
  have hitems : ∃ texts, ShowsEach reader shows offset items texts := by
    induction count generalizing offset items with
    | zero =>
        obtain ⟨rfl, rfl⟩ := Prod.mk.inj (Except.ok.inj h)
        exact ⟨[], rfl⟩
    | succ count ih =>
        obtain ⟨⟨v, next⟩, hv, h⟩ := bind_eq_ok.mp h
        obtain ⟨⟨rest, last⟩, hrest, h⟩ := bind_eq_ok.mp h
        obtain ⟨rfl, rfl⟩ := Prod.mk.inj (pure_eq_ok.mp h)
        obtain ⟨t, ht⟩ := hshows offset v next hv
        obtain ⟨texts, htexts⟩ := ih hrest
        exact ⟨t :: texts, t, texts, next, rfl, ht, hv, htexts⟩
  obtain ⟨texts, htexts⟩ := hitems
  exact ⟨_, items, texts, rfl, rfl, htexts⟩

mutual

/-- A value that is read has a text by the rule of its kind. -/
theorem exists_showsAt {layout : Layout} {offset stop : Int} {v : Value} (decimals : Option Int)
    (hfields : layout.Everywhere FieldsApart) (h : read data layout offset = .ok (v, stop)) :
    ∃ t, ShowsAt data layout offset v decimals t := by
  cases layout with
  | int signed width =>
      rw [read] at h
      obtain ⟨raw, hraw, h⟩ := bind_eq_ok.mp h
      obtain ⟨rfl, -⟩ := Prod.mk.inj (pure_eq_ok.mp h)
      have hwidth : width.bytes ≤ 16 := by cases width <;> decide
      obtain ⟨t, ht⟩ := exists_displayInt
        (isWritable_of_length_le ((length_le_of_take hraw).trans hwidth) signed) decimals
      exact ⟨t, _, rfl, ht⟩
  | bool =>
      rw [read] at h
      obtain ⟨raw, -, h⟩ := bind_eq_ok.mp h
      cases raw with
      | nil => cases h
      | cons byte rest =>
          obtain ⟨rfl, -⟩ := Prod.mk.inj (pure_eq_ok.mp h)
          exact ⟨_, _, rfl, rfl⟩
  | pubkey =>
      rw [read] at h
      obtain ⟨raw, -, h⟩ := bind_eq_ok.mp h
      split at h
      · obtain ⟨rfl, -⟩ := Prod.mk.inj (pure_eq_ok.mp h)
        exact ⟨_, _, rfl, rfl⟩
      · cases h
  | bytes =>
      rw [read] at h
      obtain ⟨⟨raw, next⟩, -, h⟩ := bind_eq_ok.mp h
      obtain ⟨rfl, -⟩ := Prod.mk.inj (pure_eq_ok.mp h)
      exact ⟨_, _, rfl, rfl⟩
  | string =>
      rw [read] at h
      obtain ⟨⟨raw, next⟩, -, h⟩ := bind_eq_ok.mp h
      obtain ⟨rfl, -⟩ := Prod.mk.inj (pure_eq_ok.mp h)
      rw [textValue]
      cases raw.toText? with
      | some t => exact ⟨t, .inl rfl⟩
      | none => exact ⟨_, .inr ⟨raw, rfl, rfl⟩⟩
  | fixedBytes size =>
      rw [read] at h
      obtain ⟨raw, -, h⟩ := bind_eq_ok.mp h
      obtain ⟨rfl, -⟩ := Prod.mk.inj (pure_eq_ok.mp h)
      exact ⟨_, _, rfl, rfl⟩
  | array element size =>
      rw [read] at h
      obtain ⟨⟨items, next⟩, hitems, h⟩ := bind_eq_ok.mp h
      obtain ⟨rfl, -⟩ := Prod.mk.inj (pure_eq_ok.mp h)
      have helement : ∀ o v next, read data element o = .ok (v, next) →
          ∃ t, ShowsAt data element o v decimals t :=
        fun _ _ _ hv => exists_showsAt decimals hfields.2 hv
      exact exists_showsList helement hitems
  | vec element =>
      rw [read] at h
      obtain ⟨⟨count, next⟩, hcount, h⟩ := bind_eq_ok.mp h
      obtain rfl := eq_of_readNat_eq_ok hcount
      dsimp only at h
      split at h
      · cases h
      · split at h
        · next hbyte =>
          obtain ⟨rfl, -⟩ := Prod.mk.inj (pure_eq_ok.mp h)
          simp only [ShowsAt, if_pos hbyte]
          exact ⟨_, _, rfl, rfl⟩
        · next hbyte =>
          obtain ⟨⟨items, last⟩, hitems, h⟩ := bind_eq_ok.mp h
          obtain ⟨rfl, -⟩ := Prod.mk.inj (pure_eq_ok.mp h)
          have helement : ∀ o v next, read data element o = .ok (v, next) →
              ∃ t, ShowsAt data element o v decimals t :=
            fun _ _ _ hv => exists_showsAt decimals hfields.2 hv
          simp only [ShowsAt, if_neg hbyte]
          exact exists_showsList helement hitems
  | option element =>
      rw [read] at h
      obtain ⟨⟨tag, next⟩, htag, h⟩ := bind_eq_ok.mp h
      obtain rfl := eq_of_readNat_eq_ok htag
      dsimp only at h
      split at h
      · obtain ⟨rfl, -⟩ := Prod.mk.inj (pure_eq_ok.mp h)
        exact ⟨_, .inl ⟨htag, rfl, rfl⟩⟩
      · obtain ⟨t, ht⟩ := exists_showsAt decimals hfields.2 h
        exact ⟨t, .inr ⟨htag, ht⟩⟩
      · cases h
  | struct fields =>
      rw [read] at h
      obtain ⟨⟨entries, next⟩, hentries, h⟩ := bind_eq_ok.mp h
      obtain ⟨rfl, -⟩ := Prod.mk.inj (pure_eq_ok.mp h)
      obtain ⟨_, texts, rfl, htexts⟩ := exists_showsFields [] hfields.1 hfields.2 hentries
      exact ⟨_, _, texts, rfl, rfl, htexts⟩
  | enum variants =>
      rw [read] at h
      obtain ⟨⟨index, next⟩, hindex, h⟩ := bind_eq_ok.mp h
      obtain rfl := eq_of_readNat_eq_ok hindex
      obtain ⟨t, ht⟩ := exists_showsVariant decimals hfields.2 h
      exact ⟨t, index, hindex, ht⟩
  | unknown tag =>
      rw [read] at h
      cases h

/-- Fields that are read behind those done have texts under their names. -/
theorem exists_showsFields {fields : List Field} {offset stop : Int} {all : List (Json × Value)}
    (done : List (Json × Value))
    (hdistinct : DistinctNames (done.map Prod.fst ++ fields.map (·.name)))
    (hfields : EverywhereInFields FieldsApart fields)
    (h : readFields data fields done offset = .ok (all, stop)) :
    ∃ entries texts, all = done ++ entries ∧ ShowsFields data fields offset entries texts := by
  cases fields with
  | nil =>
      rw [readFields] at h
      obtain ⟨rfl, -⟩ := Prod.mk.inj (Except.ok.inj h)
      exact ⟨[], [], (List.append_nil _).symm, rfl, rfl⟩
  | cons field rest =>
      obtain ⟨name, type, decimals⟩ := field
      rw [List.map_cons] at hdistinct
      obtain ⟨hkey, -, hfresh⟩ := hdistinct.sameKey_middle
      rw [List.forall_mem_map] at hfresh
      rw [readFields] at h
      obtain ⟨⟨v, next⟩, hv, h⟩ := bind_eq_ok.mp h
      dsimp only at h
      rw [if_pos hkey, putEntry_of_forall hfresh] at h
      have hrest : DistinctNames ((done ++ [(name, v)]).map Prod.fst ++ rest.map (·.name)) := by
        rw [List.map_append, List.append_assoc]
        exact hdistinct
      obtain ⟨t, ht⟩ := exists_showsAt decimals hfields.1 hv
      obtain ⟨others, shown, rfl, hshown⟩ := exists_showsFields _ hrest hfields.2 h
      exact ⟨(name, v) :: others, _, List.append_assoc _ _ _, v, others, t, shown, next, rfl, rfl,
        ht, hv, hshown⟩

theorem exists_showsVariant {variants : List Variant} {index left : Nat} {offset stop : Int}
    {v : Value} (decimals : Option Int) (hfields : EverywhereInVariants FieldsApart variants)
    (h : readVariant data index variants left offset = .ok (v, stop)) :
    ∃ t, ShowsVariant data variants left offset v decimals t := by
  cases variants with
  | nil =>
      rw [readVariant] at h
      cases h
  | cons variant rest =>
      cases left with
      | zero =>
          obtain ⟨name, _ | type⟩ := variant
          · rw [readVariant] at h
            obtain ⟨rfl, -⟩ := Prod.mk.inj (pure_eq_ok.mp h)
            exact ⟨_, rfl, rfl⟩
          · rw [readVariant] at h
            obtain ⟨⟨payload, next⟩, hpayload, h⟩ := bind_eq_ok.mp h
            obtain ⟨rfl, -⟩ := Prod.mk.inj (pure_eq_ok.mp h)
            obtain ⟨t, ht⟩ := exists_showsAt decimals hfields.1 hpayload
            exact ⟨_, payload, t, rfl, rfl, ht⟩
      | succ left =>
          have h : readVariant data index rest left offset = .ok (v, stop) := by
            obtain ⟨name, _ | type⟩ := variant
            all_goals exact h
          obtain ⟨t, ht⟩ := exists_showsVariant decimals hfields.rest h
          refine ⟨t, ?_⟩
          rw [showsVariant_succ]
          exact ht

end

/-! ## The text is the one shown -/

/-- An entry is found by its name. -/
theorem entry?_of_forall {name : Json} {v : Value} {before others : List (Json × Value)}
    (hname : name.sameKey name = true) (h : ∀ entry ∈ before, entry.1.sameKey name = false) :
    Value.entry? name (before ++ (name, v) :: others) = some v := by
  have hnone : (before.find? fun entry => entry.1.sameKey name) = none := by
    rw [List.find?_eq_none]
    intro entry hentry
    rw [h entry hentry]
    exact Bool.false_ne_true
  have hfound : ((name, v) :: others).find? (fun entry => entry.1.sameKey name) = some (name, v) :=
    List.find?_cons_of_pos hname
  rw [Value.entry?, List.find?_append, hnone, hfound]
  rfl

/-- A list is shown as its text where each of its items is. -/
theorem listText_of_showsList {reader : Int → Except Fault (Value × Int)}
    {shows : Int → Value → Text → Prop} {display : Value → Except Fault Json}
    (hdisplay : ∀ offset v t, shows offset v t → display v = .ok (.text t)) {offset : Int}
    {v : Value} {t : Text} (h : ShowsList reader shows offset v t) :
    ∃ items, v = .list items ∧ (displayItems display items >>= listText) = .ok t := by
  obtain ⟨items, texts, rfl, rfl, h⟩ := h
  have hitems : displayItems display items = .ok (texts.map .text) := by
    induction items generalizing offset texts with
    | nil =>
        obtain rfl := h
        rfl
    | cons v rest ih =>
        obtain ⟨t, others, next, rfl, ht, -, hrest⟩ := h
        rw [displayItems, hdisplay offset v t ht, ih others hrest]
        rfl
  refine ⟨items, rfl, ?_⟩
  rw [hitems, ok_bind, listText, Json.texts_map_text]
  rfl

theorem ShowsVariant.exists_name {variants : List Variant} {place : Nat} {offset : Int} {v : Value}
    {decimals : Option Int} {t : Text} (h : ShowsVariant data variants place offset v decimals t) :
    ∃ name payload, v = .variant name payload ∧ name ∈ variants.map (·.name) := by
  induction variants generalizing place with
  | nil => cases h
  | cons variant rest ih =>
      cases place with
      | zero =>
          obtain ⟨name, _ | type⟩ := variant
          · exact ⟨name, .none, h.1, List.mem_cons_self⟩
          · obtain ⟨payload, shown, hv, -⟩ := h
            exact ⟨name, payload, hv, List.mem_cons_self⟩
      | succ left =>
          rw [showsVariant_succ] at h
          obtain ⟨name, payload, hv, hmem⟩ := ih h
          exact ⟨name, payload, hv, List.mem_cons_of_mem _ hmem⟩

mutual

/-- The text by the rules of the kinds is the one shown, whatever the last resort is. -/
theorem displayOr_of_showsAt {layout : Layout} {offset : Int} {v : Value} {decimals : Option Int}
    {t : Text} (other : Value → Except Fault Json) (hvariants : layout.Everywhere VariantsApart)
    (hfields : layout.Everywhere FieldsApart) (h : ShowsAt data layout offset v decimals t) :
    displayOr other layout v decimals = .ok (.text t) := by
  cases layout with
  | int =>
      obtain ⟨n, rfl, hn⟩ := h
      change (displayInt n decimals).map Json.text = .ok (.text t)
      rw [hn]
      rfl
  | pubkey | bytes | fixedBytes =>
      obtain ⟨_, rfl, rfl⟩ := h
      rfl
  | bool =>
      obtain ⟨b, rfl, rfl⟩ := h
      cases b
      all_goals rfl
  | string =>
      obtain rfl | ⟨raw, rfl, rfl⟩ := h
      all_goals rfl
  | array element size =>
      obtain ⟨items, rfl, hitems⟩ := listText_of_showsList
        (fun _ _ _ hv => displayOr_of_showsAt other hvariants.2 hfields.2 hv) h
      rw [displayOr, ← bind_assoc, hitems]
      rfl
  | vec element =>
      rw [ShowsAt] at h
      split at h
      · obtain ⟨raw, rfl, rfl⟩ := h
        rfl
      · obtain ⟨items, rfl, hitems⟩ := listText_of_showsList
          (fun _ _ _ hv => displayOr_of_showsAt other hvariants.2 hfields.2 hv) h
        rw [displayOr, ← bind_assoc, hitems]
        rfl
  | option element =>
      rcases h with ⟨-, rfl, rfl⟩ | ⟨-, h⟩
      · rfl
      · have ht := displayOr_of_showsAt other hvariants.2 hfields.2 h
        cases v with
        | none => rwa [displayOr] at ht ⊢
        | _ => exact ht
  | struct fields =>
      obtain ⟨entries, texts, rfl, rfl, hentries⟩ := h
      have htexts :=
        displayFieldsOr_of_showsFields other [] hfields.1 hvariants.2 hfields.2 hentries
      rw [List.nil_append] at htexts
      rw [displayOr, htexts]
      rfl
  | enum variants =>
      obtain ⟨index, -, h⟩ := h
      obtain ⟨name, payload, rfl, -⟩ := h.exists_name
      exact displayVariantOr_of_showsVariant other hvariants.1 hvariants.2 hfields.2 h
  | unknown tag => cases h

/-- Each field is found by its name in all entries, of which `before` are passed already. -/
theorem displayFieldsOr_of_showsFields {fields : List Field} {offset : Int}
    {entries : List (Json × Value)} {texts : List Text} (other : Value → Except Fault Json)
    (before : List (Json × Value))
    (hdistinct : DistinctNames (before.map Prod.fst ++ fields.map (·.name)))
    (hvariants : EverywhereInFields VariantsApart fields)
    (hfields : EverywhereInFields FieldsApart fields)
    (h : ShowsFields data fields offset entries texts) :
    displayFieldsOr other fields (before ++ entries) = .ok texts := by
  cases fields with
  | nil =>
      obtain ⟨-, rfl⟩ := h
      rfl
  | cons field rest =>
      obtain ⟨name, type, decimals⟩ := field
      obtain ⟨v, others, t, shown, next, rfl, rfl, ht, -, hshown⟩ := h
      rw [List.map_cons] at hdistinct
      obtain ⟨hkey, hself, hfresh⟩ := hdistinct.sameKey_middle
      rw [List.forall_mem_map] at hfresh
      have hrest : DistinctNames ((before ++ [(name, v)]).map Prod.fst ++ rest.map (·.name)) := by
        rw [List.map_append, List.append_assoc]
        exact hdistinct
      have hfirst := displayOr_of_showsAt other hvariants.1 hfields.1 ht
      have hlater := displayFieldsOr_of_showsFields other _ hrest hvariants.2 hfields.2 hshown
      rw [List.append_assoc, List.singleton_append] at hlater
      rw [displayFieldsOr, hkey, entry?_of_forall hself hfresh, Option.getD_some, hfirst, hlater]
      rfl

/-- The variant of a name is the one at the place that was read. -/
theorem displayVariantOr_of_showsVariant {variants : List Variant} {place : Nat} {offset : Int}
    {name : Json} {payload : Value} {decimals : Option Int} {t : Text}
    (other : Value → Except Fault Json) (hdistinct : DistinctNames (variants.map (·.name)))
    (hvariants : EverywhereInVariants VariantsApart variants)
    (hfields : EverywhereInVariants FieldsApart variants)
    (h : ShowsVariant data variants place offset (.variant name payload) decimals t) :
    displayVariantOr other variants name payload decimals = .ok (.text t) := by
  cases variants with
  | nil => cases h
  | cons variant rest =>
      rw [List.map_cons] at hdistinct
      obtain ⟨hself, hothers⟩ := hdistinct.isEqual_head
      cases place with
      | zero =>
          obtain ⟨candidate, _ | type⟩ := variant
          · obtain ⟨hvalue, rfl⟩ := h
            obtain ⟨rfl, rfl⟩ := Value.variant.inj hvalue
            obtain ⟨texts, htexts, -⟩ := hdistinct
            obtain ⟨s, -, -, rfl, -⟩ := List.map_eq_cons_iff.mp htexts.symm
            rw [displayVariantOr, if_pos hself]
            rfl
          · obtain ⟨carried, shown, hvalue, rfl, hcarried⟩ := h
            obtain ⟨rfl, rfl⟩ := Value.variant.inj hvalue
            have hshown := displayOr_of_showsAt other hvariants.1 hfields.1 hcarried
            rw [displayVariantOr, if_pos hself, hshown]
            rfl
      | succ left =>
          -- the name is that of a later variant, and so not the one of the first
          rw [showsVariant_succ] at h
          obtain ⟨found, carried, hvalue, hmem⟩ := h.exists_name
          obtain ⟨rfl, rfl⟩ := Value.variant.inj hvalue
          have hne := hothers _ hmem
          have hrest := displayVariantOr_of_showsVariant other hdistinct.tail hvariants.rest
            hfields.rest h
          obtain ⟨candidate, _ | type⟩ := variant
          all_goals
            rw [displayVariantOr, if_neg (by rw [hne]; exact Bool.false_ne_true)]
            exact hrest

end

/-- A value that is read is shown by the rule of its kind. -/
theorem exists_display_of_read {layout : Layout} {offset stop : Int} {v : Value}
    (decimals : Option Int) (hfields : layout.Everywhere FieldsApart)
    (hvariants : layout.Everywhere VariantsApart) (h : read data layout offset = .ok (v, stop)) :
    ∃ t, ShowsAt data layout offset v decimals t ∧
      (∀ other, displayOr other layout v decimals = .ok (.text t)) ∧
      layout.display v decimals = .ok (.text t) := by
  obtain ⟨t, ht⟩ := exists_showsAt decimals hfields h
  refine ⟨t, ht, fun other => displayOr_of_showsAt other hvariants hfields ht, ?_⟩
  rw [← displayOr_diagnostic]
  exact displayOr_of_showsAt _ hvariants hfields ht

end Layout

end SolanaTx
