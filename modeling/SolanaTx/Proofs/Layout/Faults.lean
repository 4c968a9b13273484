import SolanaTx.Proofs.Layout.Reading
import SolanaTx.Proofs.Layout.Showing

/-!
# Where faults come from

Reading fails for the bytes, or for a layout inside that no bytes can suit: a tag that names no
layout, or a struct with a name that is no key. Showing never says that a payload is unfit.
-/

namespace SolanaTx

open Fallible

/-- A smaller number has a numeral where a greater one has. -/
theorem Decimal.isWritable_of_le {m : Nat} {n : Int} (hn : Decimal.isWritable n = true)
    (hle : m ≤ n) : Decimal.isWritable m = true := by
  rw [Decimal.isWritable, decide_eq_true_eq] at hn ⊢
  omega

theorem DecodeError.isWritable_truncated {needed available offset : Int}
    (hneeded : Decimal.isWritable needed = true) (havailable : Decimal.isWritable available = true)
    (hoffset : Decimal.isWritable offset = true) :
    (DecodeError.truncated needed available offset).isWritable = true := by
  simp only [isWritable, List.all_cons, List.all_nil, hneeded, havailable, hoffset, Bool.and_self]

theorem Fault.inPayload_of_isWritable {e : DecodeError} (h : e.isWritable = true) :
    Fault.inPayload e = .payload e := by
  rw [Fault.inPayload, if_pos h]

theorem Fault.inPayload_eq_payload_iff {e e' : DecodeError} :
    Fault.inPayload e = .payload e' ↔ e.isWritable = true ∧ e = e' := by
  unfold Fault.inPayload
  split
  · next hwritable => simp [hwritable]
  · next hnot => simp [hnot]

theorem Fault.inPayload_ne_wrongKind {e : DecodeError} : Fault.inPayload e ≠ .wrongKind := by
  unfold Fault.inPayload
  split
  · exact Fault.noConfusion
  · exact Fault.noConfusion

/-- The errors that say that the bytes of a payload are unfit. -/
inductive DecodeError.ConcernsBytes : DecodeError → Prop
  | unknownDiscriminator (discriminator : Bytes) :
      ConcernsBytes (.unknownDiscriminator discriminator)
  | truncated (needed available offset : Int) : ConcernsBytes (.truncated needed available offset)
  | invalidOptionTag (tag : Nat) (offset : Int) : ConcernsBytes (.invalidOptionTag tag offset)
  | invalidVariant (index : Nat) (offset : Int) : ConcernsBytes (.invalidVariant index offset)

theorem DecodeError.ConcernsBytes.shift {e : DecodeError} (h : e.ConcernsBytes) (size : Int) :
    (e.shift size).ConcernsBytes := by
  cases h with
  | unknownDiscriminator discriminator => exact .unknownDiscriminator discriminator
  | truncated needed available offset => exact .truncated needed available (offset + size)
  | invalidOptionTag tag offset => exact .invalidOptionTag tag offset
  | invalidVariant index offset => exact .invalidVariant index offset

/-- Whether a fault is one that unfit bytes bring about. -/
def Fault.OfBytes (fault : Fault) : Prop :=
  fault = .outOfRange ∨ fault = .badValue ∨ ∃ e, .inPayload e = fault ∧ e.ConcernsBytes

/-- Whether a fault is one of showing a value. -/
def Fault.OfShowing (fault : Fault) : Prop :=
  fault = .wrongKind ∨ fault = .noVariant ∨ fault = .noVariantInList ∨ fault = .badValue

theorem Fault.OfBytes.concernsBytes {e : DecodeError} (h : Fault.OfBytes (.payload e)) :
    e.ConcernsBytes := by
  rcases h with h | h | ⟨e', he', hconcerns⟩
  · cases h
  · cases h
  · rwa [(Fault.inPayload_eq_payload_iff.mp he').2] at hconcerns

theorem Fault.not_ofBytes_wrongKind : ¬ Fault.OfBytes .wrongKind := by
  rintro (h | h | ⟨e, he, -⟩)
  · cases h
  · cases h
  · exact Fault.inPayload_ne_wrongKind he

theorem Fault.not_ofShowing_payload {e : DecodeError} : ¬ Fault.OfShowing (.payload e) := by
  rintro (h | h | h | h)
  all_goals cases h

namespace Layout

variable {data : Bytes} {offset : Int} {fault : Fault}

/-! ## Properties everywhere -/

mutual

theorem Everywhere.imp {p q : Layout → Prop} (himp : ∀ layout, p layout → q layout)
    {layout : Layout} (h : layout.Everywhere p) : layout.Everywhere q := by
  cases layout with
  | int | bool | pubkey | bytes | string | fixedBytes | unknown => exact himp _ h
  | array | vec | option => exact ⟨himp _ h.1, h.2.imp himp⟩
  | struct fields => exact ⟨himp _ h.1, EverywhereInFields.imp himp h.2⟩
  | enum variants => exact ⟨himp _ h.1, EverywhereInVariants.imp himp h.2⟩

theorem EverywhereInFields.imp {p q : Layout → Prop} (himp : ∀ layout, p layout → q layout)
    {fields : List Field} (h : EverywhereInFields p fields) : EverywhereInFields q fields := by
  cases fields with
  | nil => trivial
  | cons field rest =>
      obtain ⟨name, type, decimals⟩ := field
      exact ⟨h.1.imp himp, EverywhereInFields.imp himp h.2⟩

theorem EverywhereInVariants.imp {p q : Layout → Prop} (himp : ∀ layout, p layout → q layout)
    {variants : List Variant} (h : EverywhereInVariants p variants) :
    EverywhereInVariants q variants := by
  cases variants with
  | nil => trivial
  | cons variant rest =>
      obtain ⟨name, _ | type⟩ := variant
      · exact h.rest.imp himp
      · exact ⟨h.1.imp himp, EverywhereInVariants.imp himp h.2⟩

end

theorem everywhereInFields_iff {p : Layout → Prop} {fields : List Field} :
    EverywhereInFields p fields ↔ ∀ field ∈ fields, field.type.Everywhere p := by
  induction fields with
  | nil => exact ⟨fun _ _ h => (List.not_mem_nil h).elim, fun _ => trivial⟩
  | cons field rest ih =>
      obtain ⟨name, type, decimals⟩ := field
      rw [EverywhereInFields, ih, List.forall_mem_cons]

theorem everywhereInVariants_iff {p : Layout → Prop} {variants : List Variant} :
    EverywhereInVariants p variants ↔
      ∀ variant ∈ variants, ∀ type, variant.type = some type → type.Everywhere p := by
  induction variants with
  | nil => exact ⟨fun _ _ h => (List.not_mem_nil h).elim, fun _ => trivial⟩
  | cons variant rest ih =>
      obtain ⟨name, _ | type⟩ := variant
      · simp [EverywhereInVariants, ih]
      · simp [EverywhereInVariants, ih]

/-! ## Faults of reading -/

/-- Whether a layout brings about a fault by itself, whatever the bytes are. -/
def BringsAbout : Layout → Fault → Prop
  | .unknown tag, fault => .inPayload (.unsupportedType tag) = fault
  | .struct fields, fault => fault = .wrongKind ∧ ∃ field ∈ fields, field.name.isKey = false
  | _, _ => False

theorem ofBytes_of_take {size : Int} (h : take data offset size = .error fault) :
    fault.OfBytes := by
  unfold take at h
  dsimp only at h
  split at h
  · exact .inr (.inr ⟨_, Except.error.inj h, .truncated _ _ _⟩)
  · cases h

theorem ofBytes_of_readNat {width : Nat} (h : readNat data width offset = .error fault) :
    fault.OfBytes := by
  rcases bind_eq_error.mp h with h | ⟨raw, -, h⟩
  · exact ofBytes_of_take h
  · cases h

theorem ofBytes_of_readCounted (h : readCounted data offset = .error fault) : fault.OfBytes := by
  rcases bind_eq_error.mp h with h | ⟨⟨length, offset'⟩, -, h⟩
  · exact ofBytes_of_readNat h
  · rcases bind_eq_error.mp h with h | ⟨raw, -, h⟩
    · exact ofBytes_of_take h
    · cases h

/-- Reading many values fails where one value fails behind those that have been read. -/
theorem exists_of_readMany_eq_error {reader : Int → Except Fault (Value × Int)} {count : Nat}
    (h : readMany reader count offset = .error fault) :
    ∃ n items o, readMany reader n offset = .ok (items, o) ∧ reader o = .error fault := by
  induction count generalizing offset with
  | zero => cases h
  | succ count ih =>
      rcases bind_eq_error.mp h with h | ⟨⟨v, offset'⟩, hv, h⟩
      · exact ⟨0, [], offset, rfl, h⟩
      · rcases bind_eq_error.mp h with h | ⟨⟨values, last⟩, -, h⟩
        · obtain ⟨n, items, o, hitems, ho⟩ := ih h
          refine ⟨n + 1, v :: items, o, ?_, ho⟩
          rw [readMany, hv, ok_bind]
          dsimp only
          rw [hitems]
          rfl
        · cases h

mutual

/-- A fault of reading that no layout inside brings about comes from the bytes. -/
theorem ofBytes_of_read {layout : Layout} {offset : Int}
    (hnone : layout.Everywhere fun inner => ¬ inner.BringsAbout fault)
    (h : read data layout offset = .error fault) : fault.OfBytes := by
  cases layout with
  | int signed width =>
      rw [read] at h
      rcases bind_eq_error.mp h with h | ⟨raw, -, h⟩
      · exact ofBytes_of_take h
      · cases h
  | bool =>
      rw [read] at h
      rcases bind_eq_error.mp h with h | ⟨raw, -, h⟩
      · exact ofBytes_of_take h
      · split at h
        · cases h
        · exact .inl (Except.error.inj h).symm
  | pubkey =>
      rw [read] at h
      rcases bind_eq_error.mp h with h | ⟨raw, -, h⟩
      · exact ofBytes_of_take h
      · split at h
        · cases h
        · exact .inr (.inl (Except.error.inj h).symm)
  | bytes | string =>
      rw [read] at h
      rcases bind_eq_error.mp h with h | ⟨⟨raw, offset'⟩, -, h⟩
      · exact ofBytes_of_readCounted h
      · cases h
  | fixedBytes size =>
      rw [read] at h
      rcases bind_eq_error.mp h with h | ⟨raw, -, h⟩
      · exact ofBytes_of_take h
      · cases h
  | array element size =>
      rw [read] at h
      rcases bind_eq_error.mp h with h | ⟨⟨items, offset'⟩, -, h⟩
      · obtain ⟨-, -, o, -, h⟩ := exists_of_readMany_eq_error h
        exact ofBytes_of_read hnone.2 h
      · cases h
  | vec element =>
      rw [read] at h
      rcases bind_eq_error.mp h with h | ⟨⟨count, offset'⟩, -, h⟩
      · exact ofBytes_of_readNat h
      · dsimp only at h
        split at h
        · exact .inr (.inr ⟨_, Except.error.inj h, .truncated _ _ _⟩)
        · split at h
          · cases h
          · rcases bind_eq_error.mp h with h | ⟨⟨items, last⟩, -, h⟩
            · obtain ⟨-, -, o, -, h⟩ := exists_of_readMany_eq_error h
              exact ofBytes_of_read hnone.2 h
            · cases h
  | option element =>
      rw [read] at h
      rcases bind_eq_error.mp h with h | ⟨⟨tag, offset'⟩, -, h⟩
      · exact ofBytes_of_readNat h
      · dsimp only at h
        split at h
        · cases h
        · exact ofBytes_of_read hnone.2 h
        · exact .inr (.inr ⟨_, Except.error.inj h, .invalidOptionTag _ _⟩)
  | struct fields =>
      rw [read] at h
      rcases bind_eq_error.mp h with h | ⟨⟨entries, offset'⟩, -, h⟩
      · refine ofBytes_of_readFields ?_ hnone.2 h
        intro hkind field hfield
        by_contra hkey
        exact hnone.1 ⟨hkind, field, hfield, Bool.eq_false_iff.mpr hkey⟩
      · cases h
  | enum variants =>
      rw [read] at h
      rcases bind_eq_error.mp h with h | ⟨⟨index, offset'⟩, -, h⟩
      · exact ofBytes_of_readNat h
      · exact ofBytes_of_readVariant hnone.2 h
  | unknown tag =>
      rw [read] at h
      exact absurd (Except.error.inj h) hnone

theorem ofBytes_of_readFields {fields : List Field} {entries : List (Json × Value)} {offset : Int}
    (hkeys : fault = .wrongKind → ∀ field ∈ fields, field.name.isKey = true)
    (hnone : EverywhereInFields (fun inner => ¬ inner.BringsAbout fault) fields)
    (h : readFields data fields entries offset = .error fault) : fault.OfBytes := by
  cases fields with
  | nil =>
      rw [readFields] at h
      cases h
  | cons field rest =>
      obtain ⟨name, type, decimals⟩ := field
      rw [readFields] at h
      rcases bind_eq_error.mp h with h | ⟨⟨v, offset'⟩, -, h⟩
      · exact ofBytes_of_read hnone.1 h
      · dsimp only at h
        split at h
        · exact ofBytes_of_readFields (fun hkind => (List.forall_mem_cons.mp (hkeys hkind)).2)
            hnone.2 h
        · next hkey =>
          exact absurd (hkeys (Except.error.inj h).symm _ List.mem_cons_self) hkey

theorem ofBytes_of_readVariant {variants : List Variant} {index left : Nat} {offset : Int}
    (hnone : EverywhereInVariants (fun inner => ¬ inner.BringsAbout fault) variants)
    (h : readVariant data index variants left offset = .error fault) : fault.OfBytes := by
  cases variants with
  | nil =>
      rw [readVariant] at h
      exact .inr (.inr ⟨_, Except.error.inj h, .invalidVariant _ _⟩)
  | cons variant rest =>
      cases left with
      | zero =>
          obtain ⟨name, _ | type⟩ := variant
          · rw [readVariant] at h
            cases h
          · rw [readVariant] at h
            rcases bind_eq_error.mp h with h | ⟨⟨payload, offset'⟩, -, h⟩
            · exact ofBytes_of_read hnone.1 h
            · cases h
      | succ left =>
          rw [readVariant_succ] at h
          exact ofBytes_of_readVariant hnone.rest h

end

/-- Whether a layout is no tag without a reader. -/
def IsKnown : Layout → Prop
  | .unknown _ => False
  | _ => True

/-- The values of a schema fail as the layouts of its fields do. -/
theorem ofBytes_of_readSchema {fields : List Field}
    (hnone : ∀ field ∈ fields, field.type.Everywhere fun inner => ¬ inner.BringsAbout fault)
    (h : readSchema data fields offset = .error fault) : fault.OfBytes := by
  induction fields generalizing offset with
  | nil => cases h
  | cons field rest ih =>
      rw [List.forall_mem_cons] at hnone
      rcases bind_eq_error.mp h with h | ⟨⟨v, offset'⟩, -, h⟩
      · exact ofBytes_of_read hnone.1 h
      · rcases bind_eq_error.mp h with h | ⟨⟨values, last⟩, -, h⟩
        · exact ih hnone.2 h
        · cases h

/-! ## Faults of showing -/

theorem ofShowing_of_texts {items : List Json} (h : Json.texts items = .error fault) :
    fault.OfShowing := by
  fun_induction Json.texts items with
  | case1 => cases h
  | case2 t rest ih =>
      cases hrest : Json.texts rest with
      | error fault' =>
          rw [hrest] at h
          obtain rfl := Except.error.inj h
          exact ih hrest
      | ok texts =>
          rw [hrest] at h
          cases h
  | case3 => exact .inl (Except.error.inj h).symm

theorem ofShowing_of_listText {items : List Json} (h : listText items = .error fault) :
    fault.OfShowing := by
  rcases bind_eq_error.mp h with h | ⟨texts, -, h⟩
  · exact ofShowing_of_texts h
  · cases h

theorem ofShowing_of_displayItems {display : Value → Except Fault Json}
    (hdisplay : ∀ v fault, display v = .error fault → fault.OfShowing) {items : List Value}
    (h : displayItems display items = .error fault) : fault.OfShowing := by
  induction items with
  | nil => cases h
  | cons item rest ih =>
      rw [displayItems] at h
      split at h
      · cases hrest : displayItems display rest with
        | error fault' =>
            rw [hrest] at h
            obtain rfl := Except.error.inj h
            exact ih hrest
        | ok shown =>
            rw [hrest] at h
            cases h
      · exact .inr (.inr (.inl (Except.error.inj h).symm))
      · next fault' _ hitem =>
        obtain rfl := Except.error.inj h
        exact hdisplay _ _ hitem

theorem ofShowing_of_written {text : Int → Text} {n : Int}
    (h : Decimal.written text n = .error fault) : fault.OfShowing :=
  .inr (.inr (.inr (Decimal.failsOnly_written text n fault h)))

theorem ofShowing_of_displayInt {n : Int} {decimals : Option Int}
    (h : (displayInt n decimals).map Json.text = .error fault) : fault.OfShowing :=
  .inr (.inr (.inr ((failsOnly_displayInt n decimals).map Json.text fault h)))

mutual

theorem ofShowing_of_label {layout : Layout} (h : layout.label = .error fault) :
    fault.OfShowing := by
  cases layout with
  | int | bool | pubkey | bytes | string | unknown => cases h
  | fixedBytes size =>
      rw [label] at h
      rcases bind_eq_error.mp h with h | ⟨t, -, h⟩
      · exact ofShowing_of_written h
      · cases h
  | array element size =>
      rw [label] at h
      rcases bind_eq_error.mp h with h | ⟨t, -, h⟩
      · exact ofShowing_of_label h
      · rcases bind_eq_error.mp h with h | ⟨written, -, h⟩
        · exact ofShowing_of_written h
        · cases h
  | vec | option =>
      rw [label] at h
      rcases bind_eq_error.mp h with h | ⟨t, -, h⟩
      · exact ofShowing_of_label h
      · cases h
  | struct fields =>
      rw [label] at h
      rcases bind_eq_error.mp h with h | ⟨texts, -, h⟩
      · exact ofShowing_of_fieldLabels h
      · cases h
  | enum variants =>
      rw [label] at h
      rcases bind_eq_error.mp h with h | ⟨texts, -, h⟩
      · exact ofShowing_of_texts h
      · cases h

theorem ofShowing_of_fieldLabels {fields : List Field} (h : fieldLabels fields = .error fault) :
    fault.OfShowing := by
  cases fields with
  | nil => cases h
  | cons field rest =>
      obtain ⟨name, type, decimals⟩ := field
      rw [fieldLabels] at h
      rcases bind_eq_error.mp h with h | ⟨t, -, h⟩
      · exact ofShowing_of_label h
      · rcases bind_eq_error.mp h with h | ⟨texts, -, h⟩
        · exact ofShowing_of_fieldLabels h
        · cases h

end

theorem display_option {element : Layout} {v : Value} {decimals : Option Int} (hv : v ≠ .none) :
    display (.option element) v decimals = display element v decimals := by
  rw [display]
  exact hv

mutual

/-- Showing a value fails for its names, its variants or its numbers only. -/
theorem ofShowing_of_display {layout : Layout} {v : Value} {decimals : Option Int} {fault : Fault}
    (h : layout.display v decimals = .error fault) : fault.OfShowing := by
  cases layout with
  | int | bool | pubkey | bytes | string | fixedBytes | unknown =>
      cases v with
      | int n => exact ofShowing_of_displayInt h
      | _ => cases h
  | array element size | vec element =>
      cases v with
      | int n => exact ofShowing_of_displayInt h
      | list items =>
          rw [display] at h
          rcases bind_eq_error.mp h with h | ⟨shown, -, h⟩
          · exact ofShowing_of_displayItems (fun _ _ h => ofShowing_of_display h) h
          · rcases bind_eq_error.mp h with h | ⟨t, -, h⟩
            · exact ofShowing_of_listText h
            · cases h
      | _ => cases h
  | option element =>
      by_cases hv : v = .none
      · subst hv
        cases h
      · rw [display_option hv] at h
        exact ofShowing_of_display h
  | struct fields =>
      cases v with
      | int n => exact ofShowing_of_displayInt h
      | struct entries =>
          rw [display] at h
          rcases bind_eq_error.mp h with h | ⟨texts, -, h⟩
          · exact ofShowing_of_displayFields h
          · cases h
      | _ => cases h
  | enum variants =>
      cases v with
      | int n => exact ofShowing_of_displayInt h
      | variant name payload => exact ofShowing_of_displayVariant h
      | _ => cases h

theorem ofShowing_of_displayFields {fields : List Field} {entries : List (Json × Value)}
    {fault : Fault} (h : displayFields fields entries = .error fault) : fault.OfShowing := by
  cases fields with
  | nil =>
      rw [displayFields] at h
      cases h
  | cons field rest =>
      obtain ⟨name, type, decimals⟩ := field
      rw [displayFields] at h
      split at h
      · exact .inl (Except.error.inj h).symm
      · rcases bind_eq_error.mp h with h | ⟨shown, -, h⟩
        · exact ofShowing_of_display h
        · rcases bind_eq_error.mp h with h | ⟨texts, -, h⟩
          · exact ofShowing_of_displayFields h
          · cases h

theorem ofShowing_of_displayVariant {variants : List Variant} {name : Json} {payload : Value}
    {decimals : Option Int} {fault : Fault}
    (h : displayVariant variants name payload decimals = .error fault) :
    fault.OfShowing := by
  cases variants with
  | nil =>
      rw [displayVariant] at h
      exact .inr (.inl (Except.error.inj h).symm)
  | cons variant rest =>
      obtain ⟨candidate, _ | type⟩ := variant
      · rw [displayVariant] at h
        split at h
        · cases h
        · exact ofShowing_of_displayVariant h
      · rw [displayVariant] at h
        split at h
        · rcases bind_eq_error.mp h with h | ⟨shown, -, h⟩
          · exact ofShowing_of_display h
          · cases h
        · exact ofShowing_of_displayVariant h

end

theorem ofShowing_of_ofValue {field : Field} {v : Value}
    (h : DecodedField.ofValue field v = .error fault) : fault.OfShowing := by
  rcases bind_eq_error.mp h with h | ⟨label, -, h⟩
  · exact ofShowing_of_label h
  · rcases bind_eq_error.mp h with h | ⟨shown, -, h⟩
    · exact ofShowing_of_display h
    · cases h

/-- Decoding fields fails as reading them does, or in showing them. -/
theorem readSchema_or_ofShowing_of_decodeFields {schema : List Field}
    (h : decodeFields data schema = .error fault) :
    readSchema data schema 0 = .error fault ∨ fault.OfShowing := by
  rcases bind_eq_error.mp h with h | ⟨⟨values, consumed⟩, -, h⟩
  · exact .inl h
  · rcases bind_eq_error.mp h with h | ⟨fields, -, h⟩
    · obtain ⟨pair, -, hpair⟩ := exists_of_mapM_eq_error h
      exact .inr (ofShowing_of_ofValue hpair)
    · cases h

end Layout

end SolanaTx
