import Mathlib.Data.List.Nodup
import SolanaTx.Program.Table
import SolanaTx.Proofs.Layout.Faults
import SolanaTx.Proofs.Layout.Steadiness
import SolanaTx.Proofs.Program.Schema

/-!
# What a table makes of a payload

A table comes to an outcome in one of four ways: the payload is too short for a discriminator, or
has one that no row has, or the fields of its row cannot be read, or it is decoded. Where the names
inside a row tell its fields and variants apart and its labels can be written, there is no fifth
way.
-/

namespace SolanaTx

open Fallible Layout

namespace ProgramTable

variable {t : ProgramTable} {data : Bytes} {accounts limit : Nat} {row : InstructionRow}
  {outcome : Outcome}

theorem decodeWithin_eq_ok_iff :
    t.decodeWithin limit data accounts = .ok outcome ↔
      t.decode data accounts = .ok outcome ∧ t.displayDepth data ≤ limit := by
  rw [decodeWithin, bind_eq_ok]
  constructor
  · rintro ⟨found, hfound, h⟩
    split at h
    · cases h
    · next hdepth =>
      obtain rfl := pure_eq_ok.mp h
      exact ⟨hfound, Nat.le_of_not_lt hdepth⟩
  · rintro ⟨hdecode, hdepth⟩
    refine ⟨outcome, hdecode, ?_⟩
    rw [if_neg (Nat.not_lt.mpr hdepth)]
    rfl

/-! ## Rows -/

theorem find?_discriminator (hrow : row ∈ t.rows) : t.find? row.discriminator = some row := by
  cases hfound : t.find? row.discriminator with
  | none =>
      have hne := List.find?_eq_none.mp hfound row hrow
      exact absurd (beq_self_eq_true row.discriminator) hne
  | some found =>
      have hmem : found ∈ t.rows := List.mem_of_find?_eq_some hfound
      rw [find?] at hfound
      have hbeq := List.find?_some hfound
      rw [List.inj_on_of_nodup_map t.nodup hmem hrow (eq_of_beq hbeq)]

theorem eq_of_ofRows_eq_ok {program : Pubkey} {label : Text} {size : Int}
    {rows : List InstructionRow} (h : ofRows program label size rows = .ok t) :
    t.label = label ∧ t.rows = rows := by
  unfold ofRows at h
  split at h
  · split at h
    · cases h
    · cases h
      exact ⟨rfl, rfl⟩
  · cases h

theorem length_of_find? {discriminator : Bytes} (h : t.find? discriminator = some row) :
    row ∈ t.rows ∧ row.discriminator = discriminator ∧ discriminator.length = t.size := by
  have hmem : row ∈ t.rows := List.mem_of_find?_eq_some h
  rw [find?] at h
  have hbeq := List.find?_some h
  have hsame : row.discriminator = discriminator := eq_of_beq hbeq
  exact ⟨hmem, hsame, hsame ▸ t.length_eq row hmem⟩

/-- A row of which the payload has the discriminator is found, and the payload is long enough. -/
theorem find?_of_discriminator_eq (hrow : row ∈ t.rows)
    (h : row.discriminator = data.take t.size) :
    t.size ≤ data.length ∧ t.find? (data.take t.size) = some row := by
  refine ⟨?_, h ▸ find?_discriminator hrow⟩
  have hlength := t.length_eq row hrow
  rw [h, List.length_take] at hlength
  omega

theorem displayDepth_of_find? (hrow : t.find? (data.take t.size) = some row) :
    t.displayDepth data = schemaDepth (data.drop t.size) row.fields := by
  rw [displayDepth, hrow]

theorem displayDepth_of_length_lt (h : data.length < t.size) : t.displayDepth data = 0 := by
  cases hrow : t.find? (data.take t.size) with
  | none => rw [displayDepth, hrow]
  | some row =>
      have hlength := (length_of_find? hrow).2.2
      rw [List.length_take] at hlength
      omega

/-! ## Ways to an outcome -/

/-- How a table comes to the outcome of a payload. -/
inductive Answers (t : ProgramTable) (data : Bytes) (accounts : Nat) : Outcome → Prop
  | short : data.length < t.size →
      Answers t data accounts (.error (.truncated t.size data.length 0))
  | unmatched : t.size ≤ data.length → t.find? (data.take t.size) = none →
      Answers t data accounts (.error (.unknownDiscriminator (data.take t.size)))
  | unread {row : InstructionRow} {e : DecodeError} : t.size ≤ data.length →
      t.find? (data.take t.size) = some row →
      readSchema (data.drop t.size) row.fields 0 = .error (.payload e) →
      Answers t data accounts (.error (e.shift t.size))
  | decoded {row : InstructionRow} {fields : List DecodedField} {consumed : Int} :
      t.size ≤ data.length → t.find? (data.take t.size) = some row →
      decodeFields (data.drop t.size) row.fields = .ok (fields, consumed) →
      Answers t data accounts
        (.ok ⟨t.label, row.name, fields, accountNames row.accounts accounts⟩)

theorem answers_of_decode (h : t.decode data accounts = .ok outcome) :
    t.Answers data accounts outcome := by
  unfold decode at h
  split at h
  · next hshort =>
    obtain rfl := Except.ok.inj h
    exact .short hshort
  · next hsize =>
    have hsize := Nat.le_of_not_lt hsize
    split at h
    · next hrow =>
      obtain rfl := Except.ok.inj h
      exact .unmatched hsize hrow
    · next row hrow =>
      split at h
      · next fields consumed hfields =>
        obtain rfl := Except.ok.inj h
        exact .decoded hsize hrow hfields
      · next e hfields =>
        split at h
        · obtain rfl := Except.ok.inj h
          -- showing values gives no such error
          have hread := (readSchema_or_ofShowing_of_decodeFields hfields).resolve_right
            Fault.not_ofShowing_payload
          exact .unread hsize hrow hread
        · cases h
      · cases h

theorem exists_row_of_decode_eq_ok {decoded : DecodedInstruction}
    (h : t.decode data accounts = .ok (.ok decoded)) :
    t.size ≤ data.length ∧ ∃ row fields consumed, t.find? (data.take t.size) = some row ∧
      decodeFields (data.drop t.size) row.fields = .ok (fields, consumed) := by
  cases answers_of_decode h with
  | decoded hsize hrow hfields => exact ⟨hsize, _, _, _, hrow, hfields⟩

theorem decode_of_length_lt (h : data.length < t.size) :
    t.decode data accounts = .ok (.error (.truncated t.size data.length 0)) := by
  rw [decode, if_pos h]

theorem decode_of_find?_eq_none (hsize : t.size ≤ data.length)
    (h : t.find? (data.take t.size) = none) :
    t.decode data accounts = .ok (.error (.unknownDiscriminator (data.take t.size))) := by
  rw [decode, if_neg (Nat.not_lt.mpr hsize), h]

theorem decode_of_decodeFields {fields : List DecodedField} {consumed : Int}
    (hsize : t.size ≤ data.length) (hrow : t.find? (data.take t.size) = some row)
    (h : decodeFields (data.drop t.size) row.fields = .ok (fields, consumed)) :
    t.decode data accounts =
      .ok (.ok ⟨t.label, row.name, fields, accountNames row.accounts accounts⟩) := by
  rw [decode, if_neg (Nat.not_lt.mpr hsize), hrow]
  dsimp only
  rw [h]

theorem decode_of_payload {e : DecodeError} (hsize : t.size ≤ data.length)
    (hrow : t.find? (data.take t.size) = some row)
    (h : readSchema (data.drop t.size) row.fields 0 = .error (.payload e))
    (hwritable : (e.shift t.size).isWritable = true) :
    t.decode data accounts = .ok (.error (e.shift t.size)) := by
  rw [decode, if_neg (Nat.not_lt.mpr hsize), hrow]
  dsimp only
  rw [decodeFields, h]
  dsimp only [bind, Except.bind]
  rw [if_pos hwritable]

end ProgramTable

/-! ## Errors of reading -/

namespace Layout

variable {data : Bytes} {schema : List Field} {fault : Fault}

/-- An error of steady reading says which bytes are missing, or is an objection. -/
theorem Steady.payload {α : Type} {reader : Reader α} {least most : Int} {start : Nat}
    {e : DecodeError} (h : Steady reader least most data start)
    (herror : reader data start = .error (.payload e)) :
    (∃ (needed : Int) (available place : Nat), e = .truncated needed available place) ∨
      Objection data e := by
  rcases h.error herror with ⟨needed, available, place, hfault, -⟩ | ⟨hkind | ⟨e', hfault, h⟩, -⟩
  · exact .inl ⟨needed, available, place, (Fault.inPayload_eq_payload_iff.mp hfault).2.symm⟩
  · cases hkind
  · obtain rfl := (Fault.inPayload_eq_payload_iff.mp hfault).2
    exact .inr h

theorem isWritable_of_objection {e : DecodeError} (h : Objection data e)
    (hlength : Decimal.isWritable data.length = true) : e.isWritable = true := by
  cases h with
  | optionTag hplace | variant hplace =>
      obtain ⟨hlt, -⟩ := List.getElem?_eq_some_iff.mp hplace
      exact Decimal.isWritable_of_le hlength (Int.ofNat_le.mpr (Nat.le_of_lt hlt))
  | type tag => rfl

/-- Where the names of all fields are keys, reading never fails for a value of the wrong kind. -/
theorem not_bringsAbout_wrongKind {layout : Layout} (h : layout.FieldsApart) :
    ¬ layout.BringsAbout .wrongKind := by
  cases layout with
  | struct fields =>
      rintro ⟨-, field, hfield, hkey⟩
      obtain ⟨texts, htexts, -⟩ := h
      have hmem : field.name ∈ fields.map (·.name) := List.mem_map_of_mem hfield
      rw [htexts] at hmem
      obtain ⟨t, -, ht⟩ := List.mem_map.mp hmem
      rw [← ht] at hkey
      cases hkey
  | unknown tag => exact Fault.inPayload_ne_wrongKind
  | int | bool | pubkey | bytes | string | fixedBytes | array | vec | option | enum => exact id

end Layout

/-! ## Rows that answer -/

/-- Whether the fields of a row are such that all payloads with its discriminator are answered: no
size lies below zero, the names inside a layout differ, and the labels can be written as well as the
number of bytes that a step of reading asks for. -/
structure InstructionRow.WellMade (row : InstructionRow) : Prop where
  sizes : ∀ field ∈ row.fields, field.type.Everywhere SizeNonneg
  names : NamesApart row.fields
  labels : LabelsWritable row.fields
  steps : Decimal.isWritable (maxStepOfFields row.fields) = true

variable {row : InstructionRow} {data : Bytes} {fault : Fault}

/-- The fields of such a row fail to be read for the payload's own sake. -/
theorem InstructionRow.WellMade.exists_payload (hmade : row.WellMade) {size : Nat}
    (hlength : Decimal.isWritable data.length = true) (hsize : size ≤ data.length)
    (h : readSchema (data.drop size) row.fields 0 = .error fault) :
    ∃ e, fault = .payload e ∧ (e.shift size).isWritable = true := by
  have hdrop : (data.drop size).length + size = data.length := by
    rw [List.length_drop]
    omega
  have hwritable : ∀ n : Nat, n ≤ data.length → Decimal.isWritable n = true :=
    fun n hn => Decimal.isWritable_of_le hlength (by omega)
  rcases (steady_readSchema hmade.sizes (Nat.zero_le _)).error h with
    ⟨needed, available, place, rfl, hshort⟩ | ⟨hkind | ⟨e, rfl, hobjection⟩, -⟩
  · have hlt := hshort.lt_needed
    have hparts := hshort.length_eq
    obtain ⟨n, rfl⟩ := Int.eq_ofNat_of_zero_le (show 0 ≤ needed by omega)
    have hneeded := Decimal.isWritable_of_le hmade.steps hshort.needed_le
    have havailable := hwritable available (by omega)
    refine ⟨_, Fault.inPayload_of_isWritable ?_, ?_⟩
    · exact DecodeError.isWritable_truncated hneeded havailable (hwritable place (by omega))
    · exact DecodeError.isWritable_truncated hneeded havailable
        (hwritable (place + size) (by omega))
  · subst hkind
    refine absurd (ofBytes_of_readSchema ?_ h) Fault.not_ofBytes_wrongKind
    intro field hfield
    exact (hmade.names field hfield).1.imp fun _ => not_bringsAbout_wrongKind
  · have hfields := hwritable (data.drop size).length (by omega)
    have he := isWritable_of_objection hobjection hfields
    refine ⟨e, Fault.inPayload_of_isWritable he, ?_⟩
    cases hobjection with
    | optionTag | variant | type => exact he

/-- The fields of such a row are shown where they are read. -/
theorem InstructionRow.WellMade.exists_decodeFields (hmade : row.WellMade) {values : List Value}
    {consumed : Int} (h : readSchema data row.fields 0 = .ok (values, consumed)) :
    ∃ fields, decodeFields data row.fields = .ok (fields, consumed) := by
  obtain ⟨fields, hfields, -⟩ := exists_decodeFields_of_readSchema hmade.names hmade.labels h
  exact ⟨fields, hfields⟩

/-- A table comes to an outcome where the row of the payload, if it has one, is well made. -/
theorem ProgramTable.exists_decode {t : ProgramTable} (accounts : Nat)
    (hmade : ∀ row ∈ t.rows, row.discriminator = data.take t.size → row.WellMade)
    (hlength : Decimal.isWritable data.length = true) :
    ∃ outcome, t.decode data accounts = .ok outcome := by
  by_cases hshort : data.length < t.size
  · exact ⟨_, decode_of_length_lt hshort⟩
  · have hsize := Nat.le_of_not_lt hshort
    cases hrow : t.find? (data.take t.size) with
    | none => exact ⟨_, decode_of_find?_eq_none hsize hrow⟩
    | some row =>
        obtain ⟨hmem, hsame, -⟩ := length_of_find? hrow
        have hrowMade := hmade row hmem hsame
        cases hread : readSchema (data.drop t.size) row.fields 0 with
        | error fault =>
            obtain ⟨e, rfl, hwritable⟩ := hrowMade.exists_payload hlength hsize hread
            exact ⟨_, decode_of_payload hsize hrow hread hwritable⟩
        | ok p =>
            obtain ⟨fields, hfields⟩ := hrowMade.exists_decodeFields hread
            exact ⟨_, decode_of_decodeFields hsize hrow hfields⟩

end SolanaTx
