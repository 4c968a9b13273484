import SolanaTx.Proofs.Program.Truncation

/-!
# What a truncated payload lacks

The error of a truncated payload says how many bytes are needed at a place and how many there are.
With too few bytes added the payload breaks off at the same place, where as many are needed.
-/

namespace SolanaTx.ProgramTable

open Fallible Layout

variable {t : ProgramTable} {data : Bytes} {accounts limit : Nat}

theorem decodeWithin_of_length_lt (h : data.length < t.size) :
    t.decodeWithin limit data accounts = .ok (.error (.truncated t.size data.length 0)) := by
  refine decodeWithin_eq_ok_iff.mpr ⟨decode_of_length_lt h, ?_⟩
  simp [displayDepth_of_length_lt h]

/-- An error of reading becomes the outcome only where its numbers can be written. -/
theorem isWritable_shift_of_decode {row : InstructionRow} {e : DecodeError} {outcome : Outcome}
    (hsize : t.size ≤ data.length) (hrow : t.find? (data.take t.size) = some row)
    (hread : readSchema (data.drop t.size) row.fields 0 = .error (.payload e))
    (h : t.decode data accounts = .ok outcome) : (e.shift t.size).isWritable = true := by
  by_contra hnot
  rw [decode, if_neg (Nat.not_lt.mpr hsize), hrow] at h
  simp [decodeFields, hread, bind, Except.bind, hnot] at h

/-- Fields that fall short fall short with too few bytes added, as long as the numbers can be
written. -/
theorem decodeWithin_append_of_fallsShort {row : InstructionRow} {most : Int}
    {needed available place : Nat} (hsize : t.size ≤ data.length)
    (hrow : t.find? (data.take t.size) = some row)
    (hshort : FallsShort (fun data o => readSchema data row.fields o) most (data.drop t.size) 0
      needed available place)
    (hwritable : (DecodeError.truncated needed available (place + t.size : Nat)).isWritable = true)
    {more : Bytes} (hmore : available + more.length < needed) :
    t.decodeWithin limit (data ++ more) accounts =
      .ok (.error (.truncated needed (available + more.length : Nat) (place + t.size : Nat))) := by
  simp only [DecodeError.isWritable, List.all_cons, List.all_nil, Bool.and_true,
    Bool.and_eq_true] at hwritable
  obtain ⟨hneeded, -, hoffset⟩ := hwritable
  have hrow' : t.find? ((data ++ more).take t.size) = some row := by
    rw [List.take_append_of_le_length hsize, hrow]
  have hread := hshort.lasts more (by exact_mod_cast hmore)
  rw [← List.drop_append_of_le_length hsize] at hread
  refine decodeWithin_of_truncated ?_ hrow' hread ?_
  · simp; omega
  · intro offset hle
    apply DecodeError.isWritable_truncated hneeded
    · exact Decimal.isWritable_of_le hneeded (by omega)
    · exact Decimal.isWritable_of_le hoffset (by omega)

/-- A truncated payload has less than is needed where it breaks off, and nothing behind what it has
there. With fewer bytes added than it lacks it breaks off at the same place, where as many are
needed. -/
theorem lacks_of_decodeWithin {needed available offset : Int}
    (hsizes : ∀ row ∈ t.rows, ∀ field ∈ row.fields, field.type.Everywhere SizeNonneg)
    (h : t.decodeWithin limit data accounts = .ok (.error (.truncated needed available offset))) :
    available < needed ∧ 0 ≤ available ∧ 0 ≤ offset ∧ offset + available = data.length ∧
      ∀ more : Bytes, more.length < needed - available →
        t.decodeWithin limit (data ++ more) accounts =
          .ok (.error (.truncated needed (available + more.length) offset)) := by
  have hdecode := (decodeWithin_eq_ok_iff.mp h).1
  generalize hoffset : DecodeError.truncated needed available offset = e at hdecode
  cases answers_of_decode hdecode with
  | short hlt =>
      obtain ⟨rfl, rfl, rfl⟩ := DecodeError.truncated.inj hoffset
      refine ⟨by omega, by omega, by omega, by omega, ?_⟩
      intro more hmore
      rw [decodeWithin_of_length_lt (by simp; omega)]
      simp
  | unmatched => cases hoffset
  | @unread row e hsize hrow hread =>
      have hwritable := isWritable_shift_of_decode hsize hrow hread hdecode
      -- an objection is not about missing bytes, so that the fields must fall short
      rcases (steady_readSchema (hsizes row (length_of_find? hrow).1) (Nat.zero_le _)).error hread
        with ⟨needed', available', place, hfault, hshort⟩ | ⟨hkind | ⟨e', hfault, hobjection⟩, -⟩
      · obtain rfl := (Fault.inPayload_eq_payload_iff.mp hfault).2
        obtain ⟨rfl, rfl, rfl⟩ := DecodeError.truncated.inj hoffset
        have hlt := hshort.lt_needed
        have hparts := hshort.length_eq
        rw [List.length_drop] at hparts
        obtain ⟨n, rfl⟩ := Int.eq_ofNat_of_zero_le (show 0 ≤ needed by omega)
        refine ⟨hlt, by omega, by omega, by omega, ?_⟩
        intro more hmore
        have hmore : available' + more.length < n := by omega
        simpa using decodeWithin_append_of_fallsShort hsize hrow hshort hwritable hmore
      · cases hkind
      · obtain rfl := (Fault.inPayload_eq_payload_iff.mp hfault).2
        cases hobjection <;> cases hoffset

/-- A list of which the count asks for more than there is, and two bytes behind it. -/
theorem lacks_of_decodeWithin_settle :
    ∃ (t : ProgramTable) (data : Bytes),
      ofRows .zero "Exchange" 4 [⟨[1, 0, 0, 0], "settle", [⟨"legs",
        .vec (.struct [⟨"size", .u32, none⟩]), none⟩], []⟩] = .ok t ∧
      data = [1, 0, 0, 0, 3, 0, 0, 0, 5] ∧
      t.decodeWithin maxDisplayDepth data 0 = .ok (.error (.truncated 12 1 8)) ∧
      t.decodeWithin maxDisplayDepth (data ++ [6, 7]) 0 = .ok (.error (.truncated 12 3 8)) := by
  obtain ⟨row, hrow⟩ : ∃ row : InstructionRow, row = ⟨[1, 0, 0, 0], "settle",
      [⟨"legs", .vec (.struct [⟨"size", .u32, none⟩]), none⟩], []⟩ := ⟨_, rfl⟩
  obtain ⟨data, hdata⟩ : ∃ data : Bytes, data = [1, 0, 0, 0, 3, 0, 0, 0, 5] := ⟨_, rfl⟩
  obtain ⟨t, htable, hrows, hsize⟩ : ∃ t, ofRows .zero "Exchange" 4 [row] = .ok t ∧
      t.rows = [row] ∧ t.size = 4 := by
    subst hrow
    exact ⟨_, rfl, rfl, rfl⟩
  have hsizes : ∀ row ∈ t.rows, ∀ field ∈ row.fields, field.type.Everywhere SizeNonneg := by
    rw [hrows, hrow]
    simp [Everywhere, EverywhereInFields, SizeNonneg, u32]
  have hdecode : t.decodeWithin maxDisplayDepth data 0 = .ok (.error (.truncated 12 1 8)) := by
    have hfound : t.find? (data.take t.size) = some row := by
      rw [find?, hrows, hsize, hdata, hrow]
      rfl
    have hread : readSchema (data.drop t.size) row.fields 0 =
        .error (.inPayload (.truncated (12 : Nat) (1 : Nat) (4 : Nat))) := by
      rw [hsize, hdata, hrow]
      rfl
    have hwritable : Decimal.isWritable (12 : Nat) = true := by decide +kernel
    have hplace : (8 : Int) = (4 + t.size : Nat) := by simp [hsize]
    rw [hplace]
    refine decodeWithin_of_truncated (by simp [hsize, hdata]) hfound hread ?_
    intro offset hle
    apply DecodeError.isWritable_truncated hwritable
    · exact Decimal.isWritable_of_le hwritable (by decide)
    · exact Decimal.isWritable_of_le hwritable (by omega)
  obtain ⟨-, -, -, -, hmore⟩ := lacks_of_decodeWithin hsizes hdecode
  exact ⟨t, data, hrow ▸ htable, hdata, hdecode, hmore [6, 7] (by decide)⟩

end SolanaTx.ProgramTable
