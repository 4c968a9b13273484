import Mathlib.Data.List.Basic
import SolanaTx.Decimal

/-!
# Numerals

The numeral of a whole number is a row of digits that is worth that number, with no zero in front
that says nothing.
-/

namespace SolanaTx.Decimal

/-- What a row of digits is worth. -/
def worth (ds : List Char) : Nat :=
  Nat.ofDigitChars 10 ds 0

/-- Whether characters are digits. -/
def AreDigits (ds : List Char) : Prop :=
  ∀ c ∈ ds, c.isDigit = true

/-- Whether characters are a numeral: one or more digits, the first of which is no zero but in the
numeral of zero itself. -/
structure IsNumeral (ds : List Char) : Prop where
  ne_nil : ds ≠ []
  areDigits : AreDigits ds
  lead : ds.head? = some '0' → ds = ['0']

theorem not_mem_of_areDigits {ds : List Char} (h : AreDigits ds) {c : Char}
    (hc : c.isDigit = false) : c ∉ ds :=
  fun hmem => by simp [h c hmem] at hc

theorem IsNumeral.head?_append_ne {ds : List Char} (h : IsNumeral ds) (rest : List Char) {c : Char}
    (hc : c.isDigit = false) : (ds ++ rest).head? ≠ some c := by
  rw [List.head?_append_of_ne_nil _ h.ne_nil]
  intro hhead
  exact not_mem_of_areDigits h.areDigits hc (List.mem_of_mem_head? hhead)

/-! ## Numerals of numbers -/

@[simp] theorem worth_numeral (n : Nat) : worth (numeral n) = n :=
  Nat.ofDigitChars_ten_toDigits

theorem areDigits_numeral (n : Nat) : AreDigits (numeral n) :=
  fun _ => Nat.isDigit_of_mem_toDigits (by decide) (by decide)

theorem numeral_ne_nil (n : Nat) : numeral n ≠ [] :=
  Nat.toDigits_ne_nil

theorem length_numeral_le_iff {n k : Nat} (hk : 0 < k) :
    (numeral n).length ≤ k ↔ n < scale k :=
  Nat.length_toDigits_le_iff (by decide) hk

/-- From ten on, a numeral begins as the numeral of the number of tens. -/
theorem head?_numeral_of_ten_le {n : Nat} (h : 10 ≤ n) :
    (numeral n).head? = (numeral (n / 10)).head? := by
  have hparts : numeral n = numeral (n / 10) ++ [(n % 10).digitChar] :=
    Nat.toDigits_of_base_le (by decide) h
  rw [hparts, List.head?_append_of_ne_nil _ (numeral_ne_nil (n / 10))]

theorem eq_zero_of_head?_numeral {n : Nat} (h : (numeral n).head? = some '0') : n = 0 := by
  induction n using Nat.strongRecOn with
  | ind n ih =>
      by_cases hn : n < 10
      · rw [numeral, Nat.toDigits_of_lt_base hn] at h
        simpa using h
      · have hn : 10 ≤ n := by omega
        have htens := ih (n / 10) (by omega) (head?_numeral_of_ten_le hn ▸ h)
        omega

theorem isNumeral_numeral (n : Nat) : IsNumeral (numeral n) where
  ne_nil := numeral_ne_nil n
  areDigits := areDigits_numeral n
  lead h := by
    rw [eq_zero_of_head?_numeral h]
    rfl

@[simp] theorem sign_natCast (n : Nat) : sign n = [] :=
  if_neg (by omega)

/-! ## Zeros in front -/

@[simp] theorem worth_padZeros (width : Nat) (ds : List Char) :
    worth (padZeros width ds) = worth ds := by
  simp [worth, padZeros, Nat.ofDigitChars_append, Nat.ofDigitChars_replicate_zero]

theorem areDigits_padZeros {ds : List Char} (h : AreDigits ds) (width : Nat) :
    AreDigits (padZeros width ds) := by
  intro c hc
  rcases List.mem_append.mp hc with hc | hc
  · rw [List.eq_of_mem_replicate hc]
    decide
  · exact h c hc

/-- A number with few digits fills a width. -/
theorem length_padZeros_numeral {n width : Nat} (hwidth : 0 < width) (hn : n < scale width) :
    (padZeros width (numeral n)).length = width := by
  rw [length_padZeros]
  exact Nat.max_eq_left ((length_numeral_le_iff hwidth).mpr hn)

end SolanaTx.Decimal
