import Mathlib.Data.List.GetD
import SolanaTx.Bytes.Base64
import SolanaTx.Text.Blank

/-!
# Base 64 is read back

Four digits write three bytes, and padding ends the text of any other number of them. The text of
bytes is read as these bytes, whether other characters are refused or passed over.
-/

namespace SolanaTx.Bytes

theorem base64Value?_base64Digit {n : Nat} (hn : n < 64) :
    base64Value? (base64Digit n) = some n := by
  have hall : ∀ n : Fin 64, base64Value? (base64Digit n) = some n.val := by decide +kernel
  exact hall ⟨n, hn⟩

theorem base64Digit_mem_alphabet (n : Nat) : base64Digit n ∈ base64Alphabet := by
  unfold base64Digit
  by_cases hn : n < base64Alphabet.length
  · rw [List.getD_eq_getElem _ _ hn]
    exact List.getElem_mem hn
  · rw [List.getD_eq_default _ _ (Nat.le_of_not_lt hn)]
    decide

theorem base64Digit_ne_pad (n : Nat) : base64Digit n ≠ '=' := by
  have hpad : '=' ∉ base64Alphabet := by decide
  exact ne_of_mem_of_not_mem (base64Digit_mem_alphabet n) hpad

/-- A digit is read where there was no padding before it. -/
theorem readBase64?_base64Digit {n : Nat} (hn : n < 64) (strict : Bool) (group : List Nat)
    (pads : Nat) (read : Bytes) (rest : List Char) :
    readBase64? strict ⟨group, pads, false, read⟩ (base64Digit n :: rest) =
      readBase64? strict (Base64State.push ⟨group, pads, false, read⟩ n) rest := by
  rw [readBase64?]
  · simp [base64Value?_base64Digit hn]
  · exact base64Digit_ne_pad n

/-- The digits over which bytes are spread are put together again. -/
theorem readBase64?_base64Digits (strict : Bool) (read data : Bytes) :
    readBase64? strict ⟨[], 0, false, read⟩ (base64Digits data) = some (read.reverse ++ data) := by
  fun_induction base64Digits data generalizing read with
  | case1 => simp [readBase64?]
  | case2 a =>
      have ha := a.toNat_lt
      have hfirst : a.toNat / 4 * 4 + a.toNat % 4 * 16 / 16 = a.toNat := by omega
      simp (disch := omega) only [readBase64?_base64Digit, Base64State.push, hfirst,
        UInt8.ofNat_toNat]
      simp [readBase64?]
  | case3 a b =>
      have ha := a.toNat_lt
      have hb := b.toNat_lt
      have hfirst : a.toNat / 4 * 4 + (a.toNat % 4 * 16 + b.toNat / 16) / 16 = a.toNat := by omega
      have hsecond : (a.toNat % 4 * 16 + b.toNat / 16) % 16 * 16 + b.toNat % 16 * 4 / 4 =
          b.toNat := by omega
      simp (disch := omega) only [readBase64?_base64Digit, Base64State.push, hfirst, hsecond,
        UInt8.ofNat_toNat]
      simp [readBase64?]
  | case4 a b c rest ih =>
      have ha := a.toNat_lt
      have hb := b.toNat_lt
      have hc := c.toNat_lt
      have hfirst : a.toNat / 4 * 4 + (a.toNat % 4 * 16 + b.toNat / 16) / 16 = a.toNat := by omega
      have hsecond : (a.toNat % 4 * 16 + b.toNat / 16) % 16 * 16 +
          (b.toNat % 16 * 4 + c.toNat / 64) / 4 = b.toNat := by omega
      have hthird : (b.toNat % 16 * 4 + c.toNat / 64) % 4 * 64 + c.toNat % 64 = c.toNat := by omega
      simp (disch := omega) only [readBase64?_base64Digit, Base64State.push, hfirst, hsecond,
        hthird, UInt8.ofNat_toNat]
      simp [ih]

/-- Only digits and padding write bytes. -/
theorem forall_mem_base64Digits (data : Bytes) :
    ∀ c ∈ base64Digits data, c ∈ '=' :: base64Alphabet := by
  fun_induction base64Digits data with
  | case1 => simp
  | case2 a => simp [base64Digit_mem_alphabet]
  | case3 a b => simp [base64Digit_mem_alphabet]
  | case4 a b c rest ih => simpa [base64Digit_mem_alphabet] using ih

/-- Bytes that do not come in threes are padded. -/
theorem pad_mem_base64Digits {data : Bytes} (h : data.length % 3 ≠ 0) :
    '=' ∈ base64Digits data := by
  fun_induction base64Digits data with
  | case1 => simp at h
  | case2 a => simp
  | case3 a b => simp
  | case4 a b c rest ih =>
      simp only [List.length_cons] at h
      simp [ih (by omega)]

/-- No character of a text in base 64 is a blank. -/
theorem isBlank_of_mem_toBase64 {data : Bytes} {c : CodePoint} (hc : c ∈ toBase64 data) :
    Text.isBlank c = false := by
  obtain ⟨digit, hdigit, rfl⟩ := List.mem_map.mp hc
  have hall : ('=' :: base64Alphabet).all fun digit => !Text.isBlank (.char digit) := by decide
  simpa using List.all_eq_true.mp hall digit (forall_mem_base64Digits data digit hdigit)

/-- Bytes are read back from their text. -/
theorem ofBase64?_toBase64 (strict : Bool) (data : Bytes) :
    ofBase64? strict (toBase64 data) = some data := by
  have hascii : (base64Digits data).any (fun c => 0x7F < c.toNat) = false := by
    have hall : ('=' :: base64Alphabet).all fun digit => !(0x7F < digit.toNat : Bool) := by decide
    rw [List.any_eq_false]
    intro digit hdigit
    simpa using List.all_eq_true.mp hall digit (forall_mem_base64Digits data digit hdigit)
  have hhead : ((base64Digits data).head? == some '=') = false := by
    fun_cases base64Digits data
    all_goals simp [base64Digit_ne_pad]
  rw [ofBase64?, toBase64, Text.chars?_ofChars]
  simp [hascii, hhead, readBase64?_base64Digits]

end SolanaTx.Bytes
