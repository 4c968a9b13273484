import Mathlib.Data.List.Basic
import SolanaTx.Bytes.LittleEndian
import SolanaTx.Bytes.Utf8

/-!
# What is written in bytes is read back

Signed numbers come back where they fit the width, and texts where they have a form
in UTF-8.
-/

namespace SolanaTx

namespace Bytes

/-! ## Whole numbers -/

theorem length_ofInt (width : Nat) (n : Int) : (ofInt width n).length = width :=
  length_ofNat width _

theorem capacity_pos (width : Nat) : 0 < capacity width :=
  Nat.pow_pos (by decide)

theorem toNat_ofInt (width : Nat) (n : Int) :
    (toNat (ofInt width n) : Int) = n % capacity width := by
  have hpos : 0 < (capacity width : Int) := Int.natCast_pos.mpr (capacity_pos width)
  have hnonneg := Int.emod_nonneg n (Int.ne_of_gt hpos)
  have hlt := Int.emod_lt_of_pos n hpos
  rw [ofInt, toNat_ofNat, Nat.mod_eq_of_lt (by omega)]
  omega

/-- An unsigned number that fits is read back. -/
theorem toNat_ofInt_of_lt {width : Nat} {n : Int} (hnonneg : 0 ≤ n) (hlt : n < capacity width) :
    (toNat (ofInt width n) : Int) = n := by
  rw [toNat_ofInt, Int.emod_eq_of_lt hnonneg hlt]

/-- A number in two's complement is read back. -/
theorem toInt_ofInt {width : Nat} {n : Int} (hle : -(capacity width : Int) ≤ 2 * n)
    (hlt : 2 * n < capacity width) : toInt (ofInt width n) = n := by
  have hvalue := toNat_ofInt width n
  rw [toInt, length_ofInt]
  by_cases hsign : 0 ≤ n
  · rw [Int.emod_eq_of_lt hsign (by omega)] at hvalue
    rw [if_pos (by omega), hvalue]
  · have hwrapped : n % (capacity width : Int) = n + capacity width := by
      rw [← Int.add_emod_right, Int.emod_eq_of_lt (by omega) (by omega)]
    rw [hwrapped] at hvalue
    rw [if_neg (by omega), hvalue, Int.add_sub_cancel]

/-! ## Texts -/

theorem toList_loop (data : ByteArray) (i : Nat) (done : List UInt8) :
    ByteArray.toList.loop data i done = done.reverse ++ data.data.toList.drop i := by
  fun_induction ByteArray.toList.loop data i done with
  | case1 i done hlt ih =>
      have hi : i < data.data.toList.length := by simpa using hlt
      have hget : data.get! i = data.data.toList[i] := by
        have harray : data.get! i = data.data[i]! := rfl
        rw [harray, getElem!_pos data.data i hlt, Array.getElem_toList]
      rw [ih, List.reverse_cons, List.append_assoc, List.singleton_append, hget,
        ← List.drop_eq_getElem_cons hi]
  | case2 i done hge =>
      have hi : data.data.toList.length ≤ i := by simpa using Nat.le_of_not_lt hge
      rw [List.drop_eq_nil_of_le hi, List.append_nil]

theorem mk_toList (data : ByteArray) : (⟨data.toList.toArray⟩ : ByteArray) = data := by
  rw [ByteArray.toList, toList_loop]
  rfl

end Bytes

namespace Text

theorem eq_ofChars_of_chars? {t : Text} {cs : List Char} (h : t.chars? = some cs) :
    t = ofChars cs := by
  induction t generalizing cs with
  | nil =>
      obtain rfl : [] = cs := Option.some.inj h
      rfl
  | cons c rest ih =>
      rw [chars?, List.mapM_cons, ← chars?] at h
      cases c with
      | half n => cases h
      | char c =>
          cases hrest : chars? rest with
          | none => simp [hrest, CodePoint.char?] at h
          | some tail =>
              have hcs : c :: tail = cs := by simpa [hrest, CodePoint.char?] using h
              rw [← hcs, ih hrest]
              rfl

end Text

/-- A text is read back from its form in UTF-8. -/
theorem Bytes.toText?_of_ofText? {t : Text} {data : Bytes} (h : ofText? t = some data) :
    data.toText? = some t := by
  obtain ⟨cs, hcs, rfl⟩ := Option.map_eq_some_iff.mp h
  have hstring : String.fromUTF8? (String.ofList cs).toUTF8 = some (String.ofList cs) :=
    dif_pos (String.ofList cs).isValidUTF8
  rw [toText?, toChars?, mk_toList, hstring, Option.map_some, Option.map_some, String.toList_ofList,
    Text.eq_ofChars_of_chars? hcs]

end SolanaTx
