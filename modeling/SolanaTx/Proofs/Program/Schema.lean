import Mathlib.Data.List.Forall2
import SolanaTx.Proofs.Layout.Showing

/-!
# Fields of a schema

The fields of a schema are decoded where their values are read, the names inside them are told apart
and their labels can be written. Each then has the name of its field, its label, and its value as it
is shown.
-/

namespace SolanaTx

open Fallible Layout

/-- Whether a decoded field shows a value as a field of a schema has it. -/
structure DecodedField.Shows (decoded : DecodedField) (field : Field) (v : Value) : Prop where
  name_eq : decoded.name = field.name
  label_eq : field.type.label = .ok decoded.label
  display_eq : field.type.display v field.decimals = .ok (.text decoded.value)

/-- Whether the names inside a schema tell fields and variants apart. -/
def NamesApart (schema : List Field) : Prop :=
  ∀ field ∈ schema, field.type.Everywhere FieldsApart ∧ field.type.Everywhere VariantsApart

/-- Whether the labels of a schema can be written. -/
def LabelsWritable (schema : List Field) : Prop :=
  ∀ field ∈ schema, field.type.sizesWritable = true

instance : DecidablePred LabelsWritable := fun schema =>
  inferInstanceAs (Decidable (∀ field ∈ schema, field.type.sizesWritable = true))

namespace DecodedField

variable {data : Bytes} {field : Field} {v : Value} {offset stop : Int}
  (hfields : field.type.Everywhere FieldsApart) (hvariants : field.type.Everywhere VariantsApart)
  (h : read data field.type offset = .ok (v, stop))

include hfields hvariants h

/-- A field is decoded where its value is read and its label can be written. -/
theorem exists_ofValue (hlabel : field.type.sizesWritable = true) :
    ∃ decoded, DecodedField.ofValue field v = .ok decoded ∧ decoded.Shows field v := by
  obtain ⟨label, hlabel⟩ := (exists_label_iff hvariants).mpr hlabel
  obtain ⟨t, -, -, ht⟩ := exists_display_of_read field.decimals hfields hvariants h
  refine ⟨⟨field.name, label, t⟩, ?_, rfl, hlabel, ht⟩
  rw [DecodedField.ofValue, hlabel, ok_bind, ht, ok_bind]
  rfl

theorem failsOnly_ofValue : FailsOnly (· = .badValue) (DecodedField.ofValue field v) := by
  obtain ⟨t, -, -, ht⟩ := exists_display_of_read field.decimals hfields hvariants h
  rw [DecodedField.ofValue, ht]
  exact (failsOnly_label hvariants).bind fun _ _ => failsOnly_ok _

end DecodedField

section

variable {data : Bytes} {schema : List Field} {values : List Value} {offset stop : Int}

theorem length_eq_of_readSchema (h : readSchema data schema offset = .ok (values, stop)) :
    schema.length = values.length := by
  induction schema generalizing offset values with
  | nil =>
      obtain ⟨rfl, -⟩ := Prod.mk.inj (Except.ok.inj h)
      rfl
  | cons field rest ih =>
      obtain ⟨⟨v, next⟩, -, h⟩ := bind_eq_ok.mp h
      obtain ⟨⟨others, last⟩, hothers, h⟩ := bind_eq_ok.mp h
      obtain ⟨rfl, rfl⟩ := Prod.mk.inj (pure_eq_ok.mp h)
      rw [List.length_cons, List.length_cons, ih hothers]

/-- Each value of a schema is read somewhere. -/
theorem exists_read_of_mem_zip (h : readSchema data schema offset = .ok (values, stop)) :
    ∀ pair ∈ schema.zip values, ∃ start next, read data pair.1.type start = .ok (pair.2, next) := by
  induction schema generalizing offset values with
  | nil =>
      intro pair hpair
      cases hpair
  | cons field rest ih =>
      obtain ⟨⟨v, next⟩, hv, h⟩ := bind_eq_ok.mp h
      obtain ⟨⟨others, last⟩, hothers, h⟩ := bind_eq_ok.mp h
      obtain ⟨rfl, rfl⟩ := Prod.mk.inj (pure_eq_ok.mp h)
      rw [List.zip_cons_cons, List.forall_mem_cons]
      exact ⟨⟨offset, next, hv⟩, ih hothers⟩

/-- Fields are decoded where their values are read and their labels can be written. -/
theorem exists_decodeFields_of_readSchema (hnames : NamesApart schema)
    (hlabels : LabelsWritable schema) (h : readSchema data schema 0 = .ok (values, stop)) :
    ∃ decoded, decodeFields data schema = .ok (decoded, stop) ∧
      decoded.length = schema.length ∧
      List.Forall₂ (fun pair field => DecodedField.Shows field pair.1 pair.2)
        (schema.zip values) decoded := by
  have hshown : ∀ pair ∈ schema.zip values, ∃ decoded,
      DecodedField.ofValue pair.1 pair.2 = .ok decoded ∧ decoded.Shows pair.1 pair.2 := by
    intro pair hpair
    obtain ⟨start, next, hread⟩ := exists_read_of_mem_zip h pair hpair
    have hfield := (List.of_mem_zip hpair).1
    obtain ⟨hfields, hvariants⟩ := hnames pair.1 hfield
    exact DecodedField.exists_ofValue hfields hvariants hread (hlabels pair.1 hfield)
  obtain ⟨decoded, hdecoded, hall⟩ := exists_mapM_of_forall hshown
  refine ⟨decoded, ?_, ?_, hall⟩
  · rw [decodeFields, h, ok_bind]
    dsimp only
    rw [hdecoded, ok_bind]
    rfl
  · rw [← hall.length_eq, List.length_zip, ← length_eq_of_readSchema h, Nat.min_self]

/-- A label that cannot be written is the only thing that can be wrong with values that are read. -/
theorem decodeFields_of_not_labelsWritable (hnames : NamesApart schema)
    (hlabels : ¬LabelsWritable schema) (h : readSchema data schema 0 = .ok (values, stop)) :
    decodeFields data schema = .error .badValue := by
  have hread : ∀ pair ∈ schema.zip values, pair.1.type.Everywhere VariantsApart ∧
      FailsOnly (· = .badValue) (DecodedField.ofValue pair.1 pair.2) := by
    intro pair hpair
    obtain ⟨start, next, hread⟩ := exists_read_of_mem_zip h pair hpair
    obtain ⟨hfields, hvariants⟩ := hnames pair.1 (List.of_mem_zip hpair).1
    exact ⟨hvariants, DecodedField.failsOnly_ofValue hfields hvariants hread⟩
  have hfails : FailsOnly (· = .badValue) (decodeFields data schema) := by
    rw [decodeFields, h]
    exact (failsOnly_mapM fun pair hpair => (hread pair hpair).2).bind fun _ _ => failsOnly_pure _
  cases hdecode : decodeFields data schema with
  | error fault => rw [hfails fault hdecode]
  | ok decoded =>
      rw [decodeFields, h, ok_bind] at hdecode
      obtain ⟨fields, hfields, -⟩ := bind_eq_ok.mp hdecode
      have hschema : (schema.zip values).map Prod.fst = schema :=
        List.map_fst_zip (length_eq_of_readSchema h).le
      refine absurd (fun field hfield => ?_) hlabels
      rw [← hschema] at hfield
      obtain ⟨pair, hpair, rfl⟩ := List.mem_map.mp hfield
      obtain ⟨found, -, hfound⟩ := exists_mem_of_mapM hfields pair hpair
      obtain ⟨label, hlabel, -⟩ := bind_eq_ok.mp hfound
      exact (exists_label_iff (hread pair hpair).1).mp ⟨label, hlabel⟩

end

end SolanaTx
