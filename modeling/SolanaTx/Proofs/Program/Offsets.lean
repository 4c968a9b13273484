import SolanaTx.Proofs.Program.Truncation

/-!
# Offsets in payload errors

The fields of a row are read behind the discriminator. The offset of a truncation is counted
from the start of the whole payload, and that of a tag or an index that is refused is still
counted from the first byte behind the discriminator.
-/

namespace SolanaTx

open Layout

/-- Whether an error refuses an option tag or the index of a variant, and says where it stands. -/
inductive DecodeError.Refuses : DecodeError → Nat → Int → Prop
  | optionTag (tag : Nat) (offset : Int) : Refuses (.invalidOptionTag tag offset) tag offset
  | variant (index : Nat) (offset : Int) : Refuses (.invalidVariant index offset) index offset

variable {e : DecodeError} {data : Bytes}

theorem DecodeError.Refuses.message_eq {tag : Nat} {offset : Int} (h : e.Refuses tag offset) :
    ∃ what : Text, (what = "invalid option tag " ∨ what = "invalid enum variant ") ∧
      e.message = what ++ Decimal.ofNat tag ++ " at offset " ++ Decimal.ofInt offset := by
  cases h with
  | optionTag => exact ⟨_, .inl rfl, rfl⟩
  | variant => exact ⟨_, .inr rfl, rfl⟩

/-- More bytes in front leave the place of a tag or an index as it is. -/
theorem DecodeError.refuses_shift_iff {size : Int} {tag : Nat} {offset : Int} :
    (e.shift size).Refuses tag offset ↔ e.Refuses tag offset := by
  cases e with
  | truncated => exact ⟨nofun, nofun⟩
  | unknownProgram | unknownDiscriminator | unsupportedType | invalidOptionTag | invalidVariant
  | decoderRaised | reason => rfl

/-- The number at a place of some bytes. -/
def Bytes.at? (data : Bytes) (place : Nat) : Option Nat :=
  data[place]?.map UInt8.toNat

theorem Bytes.at?_drop (data : Bytes) (size place : Nat) :
    Bytes.at? (data.drop size) place = data.at? (size + place) := by
  rw [at?, at?, List.getElem?_drop]

/-- Whether an error tells where it stands in some bytes, of which the first `skipped` are not
counted by what it refuses: the number that it names stands there, or all that is left behind is
what was available. -/
structure DecodeError.Locates (e : DecodeError) (data : Bytes) (skipped : Nat) : Prop where
  refused : ∀ tag offset, e.Refuses tag offset →
    ∃ place : Nat, offset = place ∧ data.at? (skipped + place) = some tag
  truncated : ∀ needed available offset, e = .truncated needed available offset →
    0 ≤ available ∧ 0 ≤ offset ∧ offset + available = data.length

/-- What an objection refuses stands where it says. -/
theorem Layout.Objection.locates (h : Objection data e) : e.Locates data 0 := by
  cases h with
  | @optionTag tag place hplace =>
      refine ⟨?_, nofun⟩
      rintro _ _ ⟨⟩
      exact ⟨place, rfl, by rw [Nat.zero_add, Bytes.at?, hplace, Option.map_some]⟩
  | @variant index place hplace =>
      refine ⟨?_, nofun⟩
      rintro _ _ ⟨⟩
      exact ⟨place, rfl, by rw [Nat.zero_add, Bytes.at?, hplace, Option.map_some]⟩
  | type => exact ⟨nofun, nofun⟩

theorem Layout.locates_of_readSchema {schema : List Field}
    (hsizes : ∀ field ∈ schema, field.type.Everywhere SizeNonneg)
    (h : readSchema data schema 0 = .error (.payload e)) : e.Locates data 0 := by
  rcases (steady_readSchema hsizes (Nat.zero_le _)).error h with
    ⟨needed, available, place, hfault, hshort⟩ | ⟨hkind | ⟨e', hfault, hobjection⟩, -⟩
  · obtain rfl := (Fault.inPayload_eq_payload_iff.mp hfault).2
    have hparts := hshort.length_eq
    refine ⟨nofun, ?_⟩
    rintro _ _ _ ⟨⟩
    omega
  · cases hkind
  · obtain rfl := (Fault.inPayload_eq_payload_iff.mp hfault).2
    exact hobjection.locates

/-- In front of the bytes that were read, only the place of a truncation moves. -/
theorem DecodeError.Locates.shift {size : Nat} (h : e.Locates (data.drop size) 0)
    (hsize : size ≤ data.length) : (e.shift size).Locates data size := by
  constructor
  · intro tag offset hrefuses
    obtain ⟨place, hoffset, hplace⟩ := h.refused tag offset (refuses_shift_iff.mp hrefuses)
    rw [Bytes.at?_drop, Nat.zero_add] at hplace
    exact ⟨place, hoffset, hplace⟩
  · intro needed available offset hshift
    cases e with
    | truncated needed' available' offset' =>
        obtain ⟨-, rfl, rfl⟩ := DecodeError.truncated.inj hshift
        have hparts := h.truncated _ _ _ rfl
        rw [List.length_drop] at hparts
        omega
    | unknownProgram | unknownDiscriminator | unsupportedType | invalidOptionTag | invalidVariant
    | decoderRaised | reason => cases hshift

namespace ProgramTable

variable {t : ProgramTable} {accounts limit : Nat}

/-- A payload that a table does not decode for the sake of a tag or an index has that number at the
place that the error names, counted from behind the discriminator. The place of a truncation is
counted from the start of the payload, so that what is left behind it is what is available. -/
theorem locates_of_decodeWithin
    (hsizes : ∀ row ∈ t.rows, ∀ field ∈ row.fields, field.type.Everywhere SizeNonneg)
    (h : t.decodeWithin limit data accounts = .ok (.error e)) :
    e.Locates data t.size ∧ ∀ tag offset, e.Refuses tag offset →
      ∃ what : Text, (what = "invalid option tag " ∨ what = "invalid enum variant ") ∧
        e.message = what ++ Decimal.ofNat tag ++ " at offset " ++ Decimal.ofInt offset := by
  refine ⟨?_, fun _ _ hrefuses => hrefuses.message_eq⟩
  cases answers_of_decode (decodeWithin_eq_ok_iff.mp h).1 with
  | short =>
      refine ⟨nofun, ?_⟩
      rintro _ _ _ ⟨⟩
      omega
  | unmatched => exact ⟨nofun, nofun⟩
  | unread hsize hrow hread =>
      exact (locates_of_readSchema (hsizes _ (length_of_find? hrow).1) hread).shift hsize

/-- What refuses a tag or an index is passed on as it is. -/
theorem decodeWithin_of_refused {row : InstructionRow} {tag : Nat} {offset : Int}
    (hrow : row ∈ t.rows) (hdiscriminator : row.discriminator = data.take t.size)
    (hread : readSchema (data.drop t.size) row.fields 0 = .error (.inPayload e))
    (hrefuses : e.Refuses tag offset) (hwritable : e.isWritable = true) :
    t.decodeWithin limit data accounts = .ok (.error e) := by
  rw [Fault.inPayload_of_isWritable hwritable] at hread
  obtain ⟨hsize, hfound⟩ := find?_of_discriminator_eq hrow hdiscriminator
  have hshift : e.shift t.size = e := by cases hrefuses <;> rfl
  refine decodeWithin_eq_ok_iff.mpr ⟨?_, ?_⟩
  · rw [decode_of_payload hsize hfound hread (by rwa [hshift]), hshift]
  · rw [displayDepth_of_find? hfound, schemaDepth_of_error hread]
    exact Nat.zero_le _

/-- A tag in the second item of a list, behind a discriminator of four bytes. -/
theorem locates_of_decodeWithin_settle :
    ∃ (t : ProgramTable) (data : Bytes),
      ofRows .zero "Exchange" 4 [⟨[1, 0, 0, 0], "settle", [⟨"legs",
        .vec (.struct [⟨"firm", .option .bool, none⟩]), none⟩], []⟩] = .ok t ∧
      data = [1, 0, 0, 0, 2, 0, 0, 0, 0, 9] ∧
      t.decodeWithin maxDisplayDepth data 0 = .ok (.error (.invalidOptionTag 9 5)) ∧
      data.at? (t.size + 5) = some 9 := by
  obtain ⟨row, hrow⟩ : ∃ row : InstructionRow, row = ⟨[1, 0, 0, 0], "settle",
      [⟨"legs", .vec (.struct [⟨"firm", .option .bool, none⟩]), none⟩], []⟩ := ⟨_, rfl⟩
  obtain ⟨data, hdata⟩ : ∃ data : Bytes, data = [1, 0, 0, 0, 2, 0, 0, 0, 0, 9] := ⟨_, rfl⟩
  obtain ⟨t, htable, hrows, hsize⟩ : ∃ t, ofRows .zero "Exchange" 4 [row] = .ok t ∧
      t.rows = [row] ∧ t.size = 4 := by
    subst hrow
    exact ⟨_, rfl, rfl, rfl⟩
  have hsizes : ∀ row ∈ t.rows, ∀ field ∈ row.fields, field.type.Everywhere SizeNonneg := by
    rw [hrows, hrow]
    simp [Everywhere, EverywhereInFields, SizeNonneg]
  have hdecode : t.decodeWithin maxDisplayDepth data 0 = .ok (.error (.invalidOptionTag 9 5)) := by
    have hmem : row ∈ t.rows := hrows ▸ List.mem_singleton_self row
    refine decodeWithin_of_refused hmem ?_ ?_ (.optionTag 9 5) (by decide +kernel)
    · rw [hsize, hdata, hrow]
      rfl
    · rw [hsize, hdata, hrow]
      rfl
  obtain ⟨hlocates, -⟩ := locates_of_decodeWithin hsizes hdecode
  obtain ⟨place, hplace, htag⟩ := hlocates.refused 9 5 (.optionTag 9 5)
  obtain rfl : place = 5 := by omega
  exact ⟨t, data, hrow ▸ htable, hdata, hdecode, htag⟩

/-- A tag of which the error names the place where the discriminator stands. -/
theorem decodeWithin_refused_tag :
    ∃ t : ProgramTable,
      ofRows .zero "Exchange" 1 [⟨[7], "swap", [⟨"firm", .option .bool, none⟩], []⟩] = .ok t ∧
      (∀ row ∈ t.rows, ∀ field ∈ row.fields, field.type.Everywhere SizeNonneg) ∧
      t.decodeWithin maxDisplayDepth [7, 5] 0 = .ok (.error (.invalidOptionTag 5 0)) ∧
      Bytes.at? [7, 5] 0 = some 7 := by
  obtain ⟨row, hrow⟩ : ∃ row : InstructionRow,
      row = ⟨[7], "swap", [⟨"firm", .option .bool, none⟩], []⟩ := ⟨_, rfl⟩
  obtain ⟨t, htable, hrows, hsize⟩ : ∃ t, ofRows .zero "Exchange" 1 [row] = .ok t ∧
      t.rows = [row] ∧ t.size = 1 := by
    subst hrow
    exact ⟨_, rfl, rfl, rfl⟩
  refine ⟨t, hrow ▸ htable, ?_, ?_, rfl⟩
  · rw [hrows, hrow]
    simp [Everywhere, SizeNonneg]
  · have hmem : row ∈ t.rows := hrows ▸ List.mem_singleton_self row
    refine decodeWithin_of_refused hmem ?_ ?_ (.optionTag 5 0) (by decide +kernel)
    · rw [hsize, hrow]
      rfl
    · rw [hsize, hrow]
      rfl

end ProgramTable

end SolanaTx
