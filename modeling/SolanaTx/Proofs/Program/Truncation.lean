import SolanaTx.Proofs.Program.Decoding

/-!
# Payloads that are cut off

A payload that is decoded has bytes that decide all of it, the discriminator and those of its
fields. What comes behind them makes no difference, and with one of them missing the payload is
truncated.
-/

namespace SolanaTx

open Fallible Layout

/-! ## Schemas -/

namespace Layout

variable {data other : Bytes} {schema : List Field}

theorem decodeFields_congr (h : readSchema other schema 0 = readSchema data schema 0) :
    decodeFields other schema = decodeFields data schema := by
  rw [decodeFields, h]
  rfl

theorem schemaDepth_congr (h : readSchema other schema 0 = readSchema data schema 0) :
    schemaDepth other schema = schemaDepth data schema := by
  rw [schemaDepth, h]
  rfl

theorem schemaDepth_of_error {fault : Fault} (h : readSchema data schema 0 = .error fault) :
    schemaDepth data schema = 0 := by
  rw [schemaDepth, h]

end Layout

namespace ProgramTable

variable {t : ProgramTable} {data : Bytes} {accounts limit : Nat} {row : InstructionRow}

/-! ## The bytes that decide -/

/-- Bytes with the same discriminator and the same fields are decoded alike. -/
theorem decodeWithin_of_readSchema_eq {other : Bytes} {decoded : DecodedInstruction}
    (hsize : t.size ≤ other.length) (hdiscriminator : other.take t.size = data.take t.size)
    (hrow : t.find? (data.take t.size) = some row)
    (hread : readSchema (other.drop t.size) row.fields 0 =
      readSchema (data.drop t.size) row.fields 0)
    (h : t.decodeWithin limit data accounts = .ok (.ok decoded)) :
    t.decodeWithin limit other accounts = .ok (.ok decoded) := by
  have hrow' : t.find? (other.take t.size) = some row := by rw [hdiscriminator, hrow]
  obtain ⟨hdecode, hdepth⟩ := decodeWithin_eq_ok_iff.mp h
  rw [displayDepth_of_find? hrow] at hdepth
  cases answers_of_decode hdecode with
  | decoded _ hsame hfields =>
      obtain rfl := Option.some.inj (hrow ▸ hsame)
      refine decodeWithin_eq_ok_iff.mpr ⟨?_, ?_⟩
      · exact decode_of_decodeFields hsize hrow' (by rw [decodeFields_congr hread, hfields])
      · rw [displayDepth_of_find? hrow', schemaDepth_congr hread]
        exact hdepth

/-- A payload that breaks off in its fields is truncated. -/
theorem decodeWithin_of_truncated {needed available place : Nat} (hsize : t.size ≤ data.length)
    (hrow : t.find? (data.take t.size) = some row)
    (hread : readSchema (data.drop t.size) row.fields 0 =
      .error (.inPayload (.truncated needed available place)))
    (hwritable : ∀ offset : Nat, offset ≤ place + t.size →
      (DecodeError.truncated needed available offset).isWritable = true) :
    t.decodeWithin limit data accounts =
      .ok (.error (.truncated needed available (place + t.size : Nat))) := by
  rw [Fault.inPayload_of_isWritable (hwritable place (Nat.le_add_right _ _))] at hread
  refine decodeWithin_eq_ok_iff.mpr ⟨?_, ?_⟩
  · exact decode_of_payload hsize hrow hread (hwritable _ (Nat.le_refl _))
  · rw [displayDepth_of_find? hrow, schemaDepth_of_error hread]
    exact Nat.zero_le _

/-- A payload that is decoded is decided by its first bytes: with the same of them every payload is
decoded alike, and with fewer of them it is truncated. Only payloads so long that their length has
no numeral are left out, since nothing can be said about what they lack. -/
theorem exists_deciding_length {p : Bytes} {decoded : DecodedInstruction}
    (hsizes : ∀ row ∈ t.rows, ∀ field ∈ row.fields, field.type.Everywhere SizeNonneg)
    (hlength : Decimal.isWritable p.length = true)
    (h : t.decodeWithin limit p accounts = .ok (.ok decoded)) :
    ∃ n ≤ p.length,
      (∀ q : Bytes, q.take n = p.take n → t.decodeWithin limit q accounts = .ok (.ok decoded)) ∧
      ∀ m < n, ∃ needed available offset : Int, t.decodeWithin limit (p.take m) accounts =
        .ok (.error (.truncated needed available offset)) := by
  obtain ⟨hsize, row, fields, consumed, hrow, hfields⟩ :=
    exists_row_of_decode_eq_ok (decodeWithin_eq_ok_iff.mp h).1
  obtain ⟨⟨values, consumed⟩, hread, -⟩ := bind_eq_ok.mp hfields
  have hrowSizes := hsizes row (length_of_find? hrow).1
  obtain ⟨stop, rfl, hsettles⟩ := (steady_readSchema hrowSizes (Nat.zero_le _)).ok hread
  have hstop := hsettles.stop_le
  rw [List.length_drop] at hstop
  refine ⟨t.size + stop, by omega, ?_, ?_⟩
  · intro q hq
    have hqlength := length_le_of_take_eq (by omega) hq
    refine decodeWithin_of_readSchema_eq (by omega) (take_eq_of_le (Nat.le_add_right _ _) hq) hrow
      ?_ h
    have hqfields := congrArg (List.drop t.size) hq
    rw [List.drop_take, List.drop_take, Nat.add_sub_cancel_left] at hqfields
    exact (hsettles.agrees _ hqfields).trans hread.symm
  · intro m hm
    have hmlength : (p.take m).length = m := List.length_take_of_le (by omega)
    -- the payload breaks off in its discriminator, or in the fields behind it
    by_cases hdiscriminator : m < t.size
    · have hlt : (p.take m).length < t.size := by omega
      refine ⟨t.size, m, 0, decodeWithin_eq_ok_iff.mpr ⟨?_, ?_⟩⟩
      · rw [decode_of_length_lt hlt, hmlength]
      · rw [displayDepth_of_length_lt hlt]
        exact Nat.zero_le _
    · have hrow' : t.find? ((p.take m).take t.size) = some row := by
        rw [List.take_take, Nat.min_eq_left (by omega), hrow]
      obtain ⟨needed, available, place, hcut, hplace, hneeded⟩ :=
        truncated_of_take (steady_readSchema hrowSizes (Nat.zero_le _)) hread
          (show m - t.size < stop by omega) (by rw [List.length_drop]; omega)
      rw [List.length_drop] at hneeded
      rw [← List.drop_take] at hcut
      refine ⟨needed, available, _, decodeWithin_of_truncated (by omega) hrow' hcut ?_⟩
      intro offset hoffset
      have hwritable : ∀ n : Nat, n ≤ p.length → Decimal.isWritable n = true :=
        fun n hn => Decimal.isWritable_of_le hlength (by omega)
      exact DecodeError.isWritable_truncated (hwritable _ (by omega)) (hwritable _ (by omega))
        (hwritable _ (by omega))

/-- A variant with a number, a list of structs with an option in them and a byte too much. -/
theorem exists_deciding_length_place_order :
    ∃ (t : ProgramTable) (p : Bytes) (decoded : DecodedInstruction) (n : Nat),
      ofRows .zero "Exchange" 1 [⟨[6], "cancel_all", [], []⟩,
        ⟨[7], "place_order", [⟨"side", .enum [⟨"Bid", none⟩, ⟨"Ask", some .u16⟩], none⟩,
          ⟨"legs", .vec (.struct [⟨"size", .int true .w16, none⟩, ⟨"firm", .option .bool, none⟩]),
            none⟩], []⟩] = .ok t ∧
      p = [7, 1, 0xF4, 1, 1, 0, 0, 0, 0xFE, 0xFF, 1, 1, 0xAA] ∧
      t.decodeWithin maxDisplayDepth p 2 = .ok (.ok decoded) ∧ n ≤ p.length ∧
      (∀ q : Bytes, q.take n = p.take n →
        t.decodeWithin maxDisplayDepth q 2 = .ok (.ok decoded)) ∧
      ∀ m < n, ∃ needed available offset : Int, t.decodeWithin maxDisplayDepth (p.take m) 2 =
        .ok (.error (.truncated needed available offset)) := by
  obtain ⟨rows, hrows⟩ : ∃ rows : List InstructionRow, rows = [⟨[6], "cancel_all", [], []⟩,
      ⟨[7], "place_order", [⟨"side", .enum [⟨"Bid", none⟩, ⟨"Ask", some .u16⟩], none⟩,
        ⟨"legs", .vec (.struct [⟨"size", .int true .w16, none⟩, ⟨"firm", .option .bool, none⟩]),
          none⟩], []⟩] := ⟨_, rfl⟩
  obtain ⟨p, hp⟩ : ∃ p : Bytes, p = [7, 1, 0xF4, 1, 1, 0, 0, 0, 0xFE, 0xFF, 1, 1, 0xAA] := ⟨_, rfl⟩
  obtain ⟨t, htable, hdecoded⟩ : ∃ t, ofRows .zero "Exchange" 1 rows = .ok t ∧
      ((t.decodeWithin maxDisplayDepth p 2).toOption.bind Except.toOption).isSome = true := by
    subst hrows hp
    exact ⟨_, rfl, by decide +kernel⟩
  obtain ⟨decoded, hdecode⟩ : ∃ decoded,
      t.decodeWithin maxDisplayDepth p 2 = .ok (.ok decoded) := by
    rcases hout : t.decodeWithin maxDisplayDepth p 2 with fault | e | decoded
    · simp [hout, Except.toOption] at hdecoded
    · simp [hout, Except.toOption] at hdecoded
    · exact ⟨decoded, rfl⟩
  have hsizes : ∀ row ∈ t.rows, ∀ field ∈ row.fields, field.type.Everywhere SizeNonneg := by
    rw [(eq_of_ofRows_eq_ok htable).2, hrows]
    simp [Everywhere, EverywhereInFields, EverywhereInVariants, SizeNonneg, u16]
  have hlength : Decimal.isWritable p.length = true := by
    subst hp
    decide +kernel
  obtain ⟨n, hn, hagree, hcut⟩ := exists_deciding_length hsizes hlength hdecode
  exact ⟨t, p, decoded, n, hrows ▸ htable, hp, hdecode, hn, hagree, hcut⟩

end ProgramTable

end SolanaTx
