import Mathlib.Algebra.Field.Rat
import Mathlib.Algebra.Order.Field.Rat
import Mathlib.Data.Rat.Cast.Order
import Mathlib.Tactic.FieldSimp
import Mathlib.Tactic.Positivity
import Mathlib.Tactic.Ring
import SolanaTx.Proofs.Decimal.Numeral
import SolanaTx.Proofs.Decimal.Written

/-!
# Numbers with places

A whole number of units of the last place is written exactly, where the numerals in front of the
point and behind it can be written: the text that shows it denotes that many units, so no two
numbers look alike.
-/

namespace SolanaTx.Decimal

/-! ## Reading -/

/-- The number that a row of digits writes; no number is written by no digit. -/
def natural? (ds : List Char) : Option Nat :=
  if ds ≠ [] ∧ ds.all Char.isDigit then some (worth ds) else none

/-- The number that digits write, with a point between them or without one. -/
def unsigned? (cs : List Char) : Option ℚ :=
  match cs.splitOn '.' with
  | [whole] => (natural? whole).map fun n : Nat => (n : ℚ)
  | [whole, places] => do
      let n ← natural? whole
      let units ← natural? places
      some ((n : ℚ) + (units : ℚ) / 10 ^ places.length)
  | _ => none

/-- The rational number that a decimal notation denotes, with a sign in front if it lies below
zero. -/
def rational? : List Char → Option ℚ
  | '-' :: cs => (unsigned? cs).map (- ·)
  | cs => unsigned? cs

theorem natural?_of_areDigits {ds : List Char} (hne : ds ≠ []) (h : AreDigits ds) :
    natural? ds = some (worth ds) :=
  if_pos ⟨hne, List.all_eq_true.mpr h⟩

theorem unsigned?_of_isNumeral {whole : List Char} (h : IsNumeral whole) :
    unsigned? whole = some (worth whole) := by
  have hsplit : whole.splitOn '.' = [whole] :=
    List.splitOn_eq_singleton (not_mem_of_areDigits h.areDigits (by decide))
  rw [unsigned?, hsplit]
  simp [natural?_of_areDigits h.ne_nil h.areDigits]

theorem unsigned?_of_point {whole places : List Char} (h : IsNumeral whole) (hne : places ≠ [])
    (hplaces : AreDigits places) :
    unsigned? (whole ++ '.' :: places) =
      some ((worth whole : ℚ) + (worth places : ℚ) / 10 ^ places.length) := by
  have hpoint : ∀ ds, AreDigits ds → ds.splitOn '.' = [ds] := fun ds hds =>
    List.splitOn_eq_singleton (not_mem_of_areDigits hds (by decide))
  have hsplit : (whole ++ '.' :: places).splitOn '.' = whole.splitOn '.' ++ places.splitOn '.' :=
    List.splitOnP_append_cons whole places (beq_self_eq_true _)
  rw [unsigned?, hsplit, hpoint whole h.areDigits, hpoint places hplaces]
  simp [natural?_of_areDigits, h.ne_nil, h.areDigits, hne, hplaces]

/-- A sign turns the number around. -/
theorem rational?_signed {cs : List Char} {x : ℚ} (n : Int) (hne : cs.head? ≠ some '-')
    (h : unsigned? cs = some x) :
    rational? (sign n ++ cs) = some (if n < 0 then -x else x) := by
  unfold sign
  split
  · simp [rational?, h]
  · unfold rational?
    split <;> simp_all

/-! ## Numbers with places -/

/-- Whether the parts of a number in front of its places and behind can be written. -/
def PartsWritable (n : Int) (places : Nat) : Prop :=
  isWritable (n.natAbs / scale places : Nat) = true ∧
    isWritable (n.natAbs % scale places : Nat) = true

/-- The parts of a number have no more digits than the number, so they can be written if it can. -/
theorem partsWritable_of_isWritable {n : Int} (h : isWritable n = true) (places : Nat) :
    PartsWritable n places := by
  simp only [PartsWritable, isWritable, decide_eq_true_eq, Int.natAbs_natCast] at h ⊢
  exact ⟨(Nat.div_le_self _ _).trans_lt h, (Nat.mod_le _ _).trans_lt h⟩

/-- Without places there is but one part, which is the number. -/
theorem partsWritable_zero_iff {n : Int} : PartsWritable n 0 ↔ isWritable n = true := by
  refine ⟨fun h => ?_, fun h => partsWritable_of_isWritable h 0⟩
  have hwhole : n.natAbs / scale 0 = n.natAbs := Nat.div_one _
  rw [PartsWritable, hwhole] at h
  exact h.1

theorem fixedPoint_eq_ok_iff {n places : Int} {t : Text} :
    fixedPoint n places = .ok t ↔ PartsWritable n places.toNat ∧
      t = .ofChars (sign n ++ pointed n.natAbs places.toNat) := by
  unfold fixedPoint
  split
  · next h =>
    rw [written_eq_ok_iff, Int.toNat_of_nonpos h, partsWritable_zero_iff]
    rfl
  · rw [PartsWritable, ← Bool.and_eq_true]
    dsimp only
    split
    · next h => rw [Except.ok.injEq, and_iff_right h, eq_comm]
    · next h => exact iff_of_false (fun hok => by cases hok) fun hok => h hok.1

theorem fixedPoint_of_not_partsWritable {n places : Int} (h : ¬PartsWritable n places.toNat) :
    fixedPoint n places = .error .badValue := by
  unfold fixedPoint
  split
  · next hplaces =>
    rw [Int.toNat_of_nonpos hplaces, partsWritable_zero_iff] at h
    rw [written, if_neg h]
  · rw [PartsWritable, ← Bool.and_eq_true] at h
    exact if_neg h

theorem pointed_of_pos {n places : Nat} (h : 0 < places) : pointed n places =
    numeral (n / 10 ^ places) ++ '.' :: padZeros places (numeral (n % 10 ^ places)) :=
  if_neg (by omega)

theorem length_places {n places : Nat} (h : 0 < places) :
    (padZeros places (numeral (n % 10 ^ places))).length = places :=
  length_padZeros_numeral h (Nat.mod_lt n (Nat.pow_pos (by decide)))

theorem head?_pointed_ne (n places : Nat) : (pointed n places).head? ≠ some '-' := by
  rcases Nat.eq_zero_or_pos places with rfl | h
  · simpa [pointed] using (isNumeral_numeral n).head?_append_ne [] (by decide)
  · rw [pointed_of_pos h]
    exact (isNumeral_numeral _).head?_append_ne _ (by decide)

theorem unsigned?_pointed (n places : Nat) :
    unsigned? (pointed n places) = some ((n : ℚ) / 10 ^ places) := by
  rcases Nat.eq_zero_or_pos places with rfl | h
  · simpa [pointed] using unsigned?_of_isNumeral (isNumeral_numeral n)
  · have hne : padZeros places (numeral (n % 10 ^ places)) ≠ [] := by
      rw [← List.length_pos_iff, length_places h]
      exact h
    rw [pointed_of_pos h, unsigned?_of_point (isNumeral_numeral _) hne
      (areDigits_padZeros (areDigits_numeral _) places), length_places h, worth_padZeros,
      worth_numeral, worth_numeral]
    -- the whole part and the places together are the number again
    have hparts : ((n / 10 ^ places * 10 ^ places + n % 10 ^ places : Nat) : ℚ) = n := by
      rw [Nat.div_add_mod']
    push_cast at hparts
    field_simp
    rw [hparts]

/-- What is written denotes the number of units. -/
theorem rational?_pointed (n : Int) (places : Nat) :
    rational? (sign n ++ pointed n.natAbs places) = some ((n : ℚ) / 10 ^ places) := by
  rw [rational?_signed n (head?_pointed_ne _ places) (unsigned?_pointed n.natAbs places)]
  rw [Nat.cast_natAbs]
  split
  · next h => rw [abs_of_neg h, Int.cast_neg, neg_div, neg_neg]
  · next h => rw [abs_of_nonneg (not_lt.mp h)]

/-! ## Exactness -/

/-- Whether characters are a numeral with a sign in front exactly where the number lies below
zero. -/
def IsSigned (negative : Prop) (cs : List Char) : Prop :=
  ∃ front whole, cs = front ++ whole ∧
    (negative ∧ front = ['-'] ∨ ¬negative ∧ front = []) ∧ IsNumeral whole

/-- Whether characters are such a numeral with a point and a number of further digits behind it. -/
def IsPointed (negative : Prop) (places : Nat) (cs : List Char) : Prop :=
  ∃ whole fraction, cs = whole ++ '.' :: fraction ∧ IsSigned negative whole ∧
    fraction.length = places ∧ AreDigits fraction

theorem isSigned_sign (n : Int) {whole : List Char} (h : IsNumeral whole) :
    IsSigned (n < 0) (sign n ++ whole) := by
  refine ⟨sign n, whole, rfl, ?_, h⟩
  unfold sign
  split <;> simp_all

theorem isPointed_pointed (n : Int) {places : Nat} (h : 0 < places) :
    IsPointed (n < 0) places (sign n ++ pointed n.natAbs places) := by
  rw [pointed_of_pos h, ← List.append_assoc]
  exact ⟨_, _, rfl, isSigned_sign n (isNumeral_numeral _), length_places h,
    areDigits_padZeros (areDigits_numeral _) places⟩

theorem ofChars_injective : Function.Injective Text.ofChars := by
  intro cs ds h
  simpa [Text.chars?_ofChars] using congrArg Text.chars? h

/-- A number of units of the last place has a text where its parts can be written, as those of a
number that itself can be written. The text is exact: a sign below zero, a numeral, a point and all
places, which together denote that many units. Without places it is the plain number. So two numbers
with the same places never look alike. -/
theorem fixedPoint_exact (n places : Int) :
    (PartsWritable n places.toNat →
      (0 < places → ∃ cs x, fixedPoint n places = .ok (.ofChars cs) ∧
        IsPointed (n < 0) places.toNat cs ∧ rational? cs = some x ∧ x * 10 ^ places.toNat = n) ∧
      (places ≤ 0 → ∃ cs, fixedPoint n places = .ok (.ofChars cs) ∧
        IsSigned (n < 0) cs ∧ rational? cs = some (n : ℚ))) ∧
    (¬PartsWritable n places.toNat → fixedPoint n places = .error .badValue) ∧
    (isWritable n = true → PartsWritable n places.toNat) ∧
    ∀ m t, fixedPoint n places = .ok t → fixedPoint m places = .ok t → m = n := by
  refine ⟨fun hparts => ⟨fun h => ?_, fun h => ?_⟩, fixedPoint_of_not_partsWritable,
    fun h => partsWritable_of_isWritable h _, fun m t hn hm => ?_⟩
  · refine ⟨_, _, fixedPoint_eq_ok_iff.mpr ⟨hparts, rfl⟩, isPointed_pointed n (by omega),
      rational?_pointed n _, ?_⟩
    field_simp
  · have hplaces : places.toNat = 0 := Int.toNat_of_nonpos h
    refine ⟨_, fixedPoint_eq_ok_iff.mpr ⟨hparts, rfl⟩, ?_, ?_⟩
    · simpa [hplaces, pointed] using isSigned_sign n (isNumeral_numeral n.natAbs)
    · simp [rational?_pointed, hplaces]
  · obtain ⟨-, rfl⟩ := fixedPoint_eq_ok_iff.mp hn
    obtain ⟨-, hsame⟩ := fixedPoint_eq_ok_iff.mp hm
    have hread := congrArg rational? (ofChars_injective hsame)
    rw [rational?_pointed, rational?_pointed, Option.some.injEq] at hread
    have hscale : (10 ^ places.toNat : ℚ) ≠ 0 := by positivity
    exact_mod_cast ((div_left_inj' hscale).mp hread).symm

theorem fixedPoint_exact_below_one :
    (0 : Int) < 2 ∧ PartsWritable (-5) 2 ∧ fixedPoint (-5) 2 = .ok "-0.05" ∧
    (∃ cs x, fixedPoint (-5) 2 = .ok (.ofChars cs) ∧ IsPointed ((-5 : Int) < 0) 2 cs ∧
      rational? cs = some x ∧ x * 10 ^ 2 = -5) ∧
    ∀ m, fixedPoint m 2 = .ok "-0.05" → m = -5 := by
  obtain ⟨hexact, -, hparts, hunique⟩ := fixedPoint_exact (-5) 2
  have hparts : PartsWritable (-5) 2 := hparts (by decide +kernel)
  have htext : fixedPoint (-5) 2 = .ok "-0.05" :=
    fixedPoint_eq_ok_iff.mpr ⟨hparts, by decide +kernel⟩
  exact ⟨by decide, hparts, htext, by simpa using (hexact hparts).1 (by decide),
    fun m hm => hunique m _ htext hm⟩

/-- A part with a digit too many, in front of the point or behind it, leaves a number without a
text. -/
theorem fixedPoint_overlong :
    fixedPoint (10 ^ 4300) 0 = .error .badValue ∧ fixedPoint (10 ^ 4301) 1 = .error .badValue ∧
      fixedPoint (10 ^ 4300) 4301 = .error .badValue := by
  refine ⟨fixedPoint_of_not_partsWritable fun h => ?_, fixedPoint_of_not_partsWritable fun h => ?_,
    fixedPoint_of_not_partsWritable fun h => ?_⟩
  · exact absurd h.1 (by decide +kernel)
  · exact absurd h.1 (by decide +kernel)
  · exact absurd h.2 (by decide +kernel)

end SolanaTx.Decimal
