import SolanaTx.Proofs.Layout.Faults
import SolanaTx.Proofs.Layout.Steadiness

/-!
# Offsets of reading

Reading a value goes through offsets: that of the value, those of the values inside it, and the one
behind the number of bytes or items. Where no size lies below zero they all lie inside the bytes.
-/

namespace SolanaTx.Layout

open Fallible

/-- Whether reading a layout from an offset comes by a place. -/
inductive ComesBy (data : Bytes) : Layout → Int → Int → Prop
  | start (layout : Layout) (offset : Int) : ComesBy data layout offset offset
  | counted {layout : Layout} {offset place : Int} {count : Nat} :
      readNat data countSize offset = .ok (count, place) → ComesBy data layout offset place
  | array {element : Layout} {size offset first place : Int} {n : Nat} {items : List Value} :
      readMany (fun o => read data element o) n offset = .ok (items, first) →
      ComesBy data element first place → ComesBy data (.array element size) offset place
  | vec {element : Layout} {offset start first place : Int} {count n : Nat} {items : List Value} :
      readNat data countSize offset = .ok (count, start) →
      readMany (fun o => read data element o) n start = .ok (items, first) →
      ComesBy data element first place → ComesBy data (.vec element) offset place
  | option {element : Layout} {offset first place : Int} {tag : Nat} :
      readNat data 1 offset = .ok (tag, first) →
      ComesBy data element first place → ComesBy data (.option element) offset place
  | struct {before after : List Field} {field : Field} {offset first place : Int}
      {entries : List (Json × Value)} :
      readFields data before [] offset = .ok (entries, first) →
      ComesBy data field.type first place →
      ComesBy data (.struct (before ++ field :: after)) offset place
  | enum {variants : List Variant} {name : Json} {type : Layout} {offset first place : Int}
      {index : Nat} :
      readNat data 1 offset = .ok (index, first) → ⟨name, some type⟩ ∈ variants →
      ComesBy data type first place → ComesBy data (.enum variants) offset place

variable {data : Bytes}

/-! ## Places where bytes are missing -/

variable {needed available place : Int}

theorem eq_of_take_eq_error {size offset : Int}
    (h : take data offset size = .error (.payload (.truncated needed available place))) :
    place = offset := by
  unfold take at h
  dsimp only at h
  split at h
  · obtain ⟨-, hsame⟩ := Fault.inPayload_eq_payload_iff.mp (Except.error.inj h)
    injection hsame with _ _ hplace
    exact hplace.symm
  · cases h

theorem eq_of_readNat_eq_error {width : Nat} {offset : Int}
    (h : readNat data width offset = .error (.payload (.truncated needed available place))) :
    place = offset := by
  rcases bind_eq_error.mp h with h | ⟨raw, -, h⟩
  · exact eq_of_take_eq_error h
  · cases h

theorem comesBy_of_readCounted {layout : Layout} {offset : Int}
    (h : readCounted data offset = .error (.payload (.truncated needed available place))) :
    ComesBy data layout offset place := by
  rcases bind_eq_error.mp h with h | ⟨⟨length, first⟩, hlength, h⟩
  · obtain rfl := eq_of_readNat_eq_error h
    exact .start _ _
  · rcases bind_eq_error.mp h with h | ⟨raw, -, h⟩
    · obtain rfl := eq_of_take_eq_error h
      exact .counted hlength
    · cases h

mutual

/-- Reading has come by the place where it says that bytes are missing. -/
theorem comesBy_of_read {layout : Layout} {offset : Int}
    (h : read data layout offset = .error (.payload (.truncated needed available place))) :
    ComesBy data layout offset place := by
  cases layout with
  | int | fixedBytes =>
      rw [read] at h
      rcases bind_eq_error.mp h with h | ⟨raw, -, h⟩
      · obtain rfl := eq_of_take_eq_error h
        exact .start _ _
      · cases h
  | bool | pubkey =>
      rw [read] at h
      rcases bind_eq_error.mp h with h | ⟨raw, -, h⟩
      · obtain rfl := eq_of_take_eq_error h
        exact .start _ _
      · split at h
        all_goals cases h
  | bytes | string =>
      rw [read] at h
      rcases bind_eq_error.mp h with h | ⟨⟨raw, stop⟩, -, h⟩
      · exact comesBy_of_readCounted h
      · cases h
  | array element size =>
      rw [read] at h
      rcases bind_eq_error.mp h with h | ⟨⟨items, stop⟩, -, h⟩
      · obtain ⟨n, items, first, hitems, h⟩ := exists_of_readMany_eq_error h
        exact .array hitems (comesBy_of_read h)
      · cases h
  | vec element =>
      rw [read] at h
      rcases bind_eq_error.mp h with h | ⟨⟨count, start⟩, hcount, h⟩
      · obtain rfl := eq_of_readNat_eq_error h
        exact .start _ _
      · dsimp only at h
        split at h
        · obtain ⟨-, hsame⟩ := Fault.inPayload_eq_payload_iff.mp (Except.error.inj h)
          injection hsame with _ _ hplace
          exact hplace ▸ .counted hcount
        · split at h
          · cases h
          · rcases bind_eq_error.mp h with h | ⟨⟨items, stop⟩, -, h⟩
            · obtain ⟨n, items, first, hitems, h⟩ := exists_of_readMany_eq_error h
              exact .vec hcount hitems (comesBy_of_read h)
            · cases h
  | option element =>
      rw [read] at h
      rcases bind_eq_error.mp h with h | ⟨⟨tag, first⟩, htag, h⟩
      · obtain rfl := eq_of_readNat_eq_error h
        exact .start _ _
      · dsimp only at h
        split at h
        · cases h
        · exact .option htag (comesBy_of_read h)
        · obtain ⟨-, hsame⟩ := Fault.inPayload_eq_payload_iff.mp (Except.error.inj h)
          cases hsame
  | struct fields =>
      rw [read] at h
      rcases bind_eq_error.mp h with h | ⟨⟨entries, stop⟩, -, h⟩
      · obtain ⟨before, field, after, entries, first, rfl, hbefore, hfield⟩ :=
          comesBy_of_readFields h
        exact .struct hbefore hfield
      · cases h
  | enum variants =>
      rw [read] at h
      rcases bind_eq_error.mp h with h | ⟨⟨index, first⟩, hindex, h⟩
      · obtain rfl := eq_of_readNat_eq_error h
        exact .start _ _
      · obtain ⟨name, type, hmem, htype⟩ := comesBy_of_readVariant h
        exact .enum hindex hmem htype
  | unknown tag =>
      rw [read] at h
      obtain ⟨-, hsame⟩ := Fault.inPayload_eq_payload_iff.mp (Except.error.inj h)
      cases hsame

theorem comesBy_of_readFields {fields : List Field} {entries : List (Json × Value)} {offset : Int}
    (h : readFields data fields entries offset =
      .error (.payload (.truncated needed available place))) :
    ∃ before field after entries' first, fields = before ++ field :: after ∧
      readFields data before entries offset = .ok (entries', first) ∧
      ComesBy data field.type first place := by
  cases fields with
  | nil => rw [readFields] at h; cases h
  | cons field rest =>
      obtain ⟨name, type, decimals⟩ := field
      rw [readFields] at h
      rcases bind_eq_error.mp h with h | ⟨⟨v, stop⟩, hv, h⟩
      · exact ⟨[], _, rest, entries, offset, rfl, by rw [readFields], comesBy_of_read h⟩
      · dsimp only at h
        split at h
        · next hkey =>
          obtain ⟨before, field, after, entries', first, rfl, hbefore, hfield⟩ :=
            comesBy_of_readFields h
          refine ⟨⟨name, type, decimals⟩ :: before, field, after, entries', first, rfl, ?_, hfield⟩
          rw [readFields, hv, ok_bind]
          dsimp only
          rw [if_pos hkey, hbefore]
        · cases h

theorem comesBy_of_readVariant {variants : List Variant} {index left : Nat} {offset : Int}
    (h : readVariant data index variants left offset =
      .error (.payload (.truncated needed available place))) :
    ∃ name type, ⟨name, some type⟩ ∈ variants ∧ ComesBy data type offset place := by
  cases variants with
  | nil =>
      rw [readVariant] at h
      obtain ⟨-, hsame⟩ := Fault.inPayload_eq_payload_iff.mp (Except.error.inj h)
      cases hsame
  | cons variant rest =>
      cases left with
      | zero =>
          obtain ⟨name, _ | type⟩ := variant
          · rw [readVariant] at h
            cases h
          · rw [readVariant] at h
            rcases bind_eq_error.mp h with h | ⟨⟨payload, stop⟩, -, h⟩
            · exact ⟨name, type, List.mem_cons_self, comesBy_of_read h⟩
            · cases h
      | succ left =>
          rw [readVariant_succ] at h
          obtain ⟨name, type, hmem, htype⟩ := comesBy_of_readVariant h
          exact ⟨name, type, List.mem_cons_of_mem variant hmem, htype⟩

end

/-! ## Offsets inside the bytes -/

/-- Whether an offset lies inside the bytes or right behind them. -/
def InRange (data : Bytes) (offset : Int) : Prop :=
  0 ≤ offset ∧ offset ≤ data.length

theorem Steady.inRange {α : Type} (r : Reader α) {least most : Int} {a : α} {offset stop : Int}
    (h : ∀ start : Nat, start ≤ data.length → Steady r least most data start)
    (hoffset : InRange data offset) (hread : r data offset = .ok (a, stop)) :
    InRange data stop := by
  obtain ⟨start, rfl⟩ := Int.eq_ofNat_of_zero_le hoffset.1
  obtain ⟨stop, rfl, hsettles⟩ := (h start (Int.ofNat_le.mp hoffset.2)).ok hread
  exact ⟨Int.natCast_nonneg _, Int.ofNat_le.mpr hsettles.stop_le⟩

theorem inRange_of_readNat {width count : Nat} {offset stop : Int} (hoffset : InRange data offset)
    (h : readNat data width offset = .ok (count, stop)) : InRange data stop :=
  Steady.inRange (fun data o => readNat data width o)
    (fun _ hstart => steady_readNat width (Int.le_refl _) hstart) hoffset h

theorem inRange_of_readMany {element : Layout} {n : Nat} {items : List Value} {offset stop : Int}
    (hsizes : element.Everywhere SizeNonneg) (hoffset : InRange data offset)
    (h : readMany (fun o => read data element o) n offset = .ok (items, stop)) :
    InRange data stop :=
  Steady.inRange (fun data o => readMany (fun o => read data element o) n o)
    (fun _ hstart => steady_readMany (fun _ hstart => steady_read hsizes hstart) n hstart) hoffset h

/-- Reading comes by no place outside the bytes. -/
theorem ComesBy.inRange {layout : Layout} {offset place : Int}
    (h : ComesBy data layout offset place)
    (hsizes : layout.Everywhere SizeNonneg) (hoffset : InRange data offset) :
    InRange data place := by
  induction h with
  | start => exact hoffset
  | counted hcount => exact inRange_of_readNat hoffset hcount
  | array hmany _ ih => exact ih hsizes.2 (inRange_of_readMany hsizes.2 hoffset hmany)
  | vec hcount hmany _ ih =>
      have hstart := inRange_of_readNat hoffset hcount
      exact ih hsizes.2 (inRange_of_readMany hsizes.2 hstart hmany)
  | option htag _ ih => exact ih hsizes.2 (inRange_of_readNat hoffset htag)
  | @struct before after field _ _ _ _ hfields _ ih =>
      have hall := everywhereInFields_iff.mp hsizes.2
      rw [List.forall_mem_append, List.forall_mem_cons] at hall
      have hbefore := everywhereInFields_iff.mpr hall.1
      exact ih hall.2.1 (Steady.inRange (fun data o => readFields data before [] o)
        (fun _ hstart => steady_readFields [] hbefore hstart) hoffset hfields)
  | enum hindex hmem _ ih =>
      have hall := everywhereInVariants_iff.mp hsizes.2
      exact ih (hall _ hmem _ rfl) (inRange_of_readNat hoffset hindex)

/-! ## Schemas -/

/-- Whether reading the fields of a schema from an offset comes by a place. -/
def SchemaComesBy (data : Bytes) (schema : List Field) (offset place : Int) : Prop :=
  ∃ before field after values first, schema = before ++ field :: after ∧
    readSchema data before offset = .ok (values, first) ∧ ComesBy data field.type first place

theorem schemaComesBy_of_readSchema {schema : List Field} {offset : Int}
    (h : readSchema data schema offset = .error (.payload (.truncated needed available place))) :
    SchemaComesBy data schema offset place := by
  induction schema generalizing offset with
  | nil => cases h
  | cons field rest ih =>
      rcases bind_eq_error.mp h with h | ⟨⟨v, stop⟩, hv, h⟩
      · exact ⟨[], field, rest, [], offset, rfl, rfl, comesBy_of_read h⟩
      · rcases bind_eq_error.mp h with h | ⟨⟨values, last⟩, -, h⟩
        · obtain ⟨before, field', after, values, first, rfl, hbefore, hfield⟩ := ih h
          refine ⟨field :: before, field', after, v :: values, first, rfl, ?_, hfield⟩
          rw [readSchema, hv, ok_bind]
          dsimp only
          rw [hbefore]
          rfl
        · cases h

theorem SchemaComesBy.inRange {schema : List Field} {offset place : Int}
    (h : SchemaComesBy data schema offset place)
    (hsizes : ∀ field ∈ schema, field.type.Everywhere SizeNonneg) (hoffset : InRange data offset) :
    InRange data place := by
  obtain ⟨before, field, after, values, first, rfl, hbefore, hcomes⟩ := h
  rw [List.forall_mem_append, List.forall_mem_cons] at hsizes
  obtain ⟨hsizesBefore, hsizesField, -⟩ := hsizes
  exact hcomes.inRange hsizesField (Steady.inRange (fun data o => readSchema data before o)
    (fun _ hstart => steady_readSchema hsizesBefore hstart) hoffset hbefore)

end SolanaTx.Layout
