import Mathlib.Algebra.Order.Ring.Abs
import Mathlib.Tactic.Linarith
import SolanaTx.Proofs.Decimal.FixedPoint
import SolanaTx.Report.Amount

/-!
# Amounts are rounded once

An amount with no more digits than are kept is a quotient that is exact before it is rounded to
its places. So it is the whole number of units that is nearest to the exact one, the even one
where two are as near.
-/

namespace SolanaTx

namespace Decimal

/-! ## Rounding to the nearest -/

/-- Whether a whole number is nearest to a rational one, and even where it is one of two. -/
structure IsNearestEven (x : ℚ) (m : Int) : Prop where
  near : |x - m| ≤ 1 / 2
  even : |x - m| = 1 / 2 → Even m

theorem IsNearestEven.le {x : ℚ} {m n : Int} (hm : IsNearestEven x m) (hn : IsNearestEven x n) :
    n ≤ m := by
  by_contra! h
  have hmx := abs_le.mp hm.near
  have hnx := abs_le.mp hn.near
  have hstep : (m : ℚ) + 1 ≤ n := by exact_mod_cast h
  -- both are half a unit away, and they follow each other
  have hhalf : x - m = 1 / 2 := by linarith
  have hhalf' : x - n = -(1 / 2) := by linarith
  have hnext : n = m + 1 := by
    have : (n : ℚ) = m + 1 := by linarith
    exact_mod_cast this
  have hmeven := hm.even (by rw [hhalf, abs_of_pos (by norm_num)])
  have hneven := hn.even (by rw [hhalf', abs_neg, abs_of_pos (by norm_num)])
  rw [hnext, Int.even_add_one] at hneven
  exact hneven hmeven

theorem IsNearestEven.eq {x : ℚ} {m n : Int} (hm : IsNearestEven x m) (hn : IsNearestEven x n) :
    m = n :=
  le_antisymm (hn.le hm) (hm.le hn)

theorem isNearestEven_intCast (n : Int) : IsNearestEven n n := by
  constructor <;> norm_num

/-- A quotient halfway between two whole numbers goes to the even one. -/
theorem even_divRound {num den : Nat} (hden : 0 < den)
    (h : 2 * num = 2 * (divRound num den * den) + den ∨
      2 * num + den = 2 * (divRound num den * den)) : Even (divRound num den) := by
  have hmod := Nat.mod_lt num hden
  have hdiv := Nat.div_add_mod' num den
  rw [Nat.even_iff]
  unfold divRound at h ⊢
  simp only at h ⊢
  split at h
  · next hlow =>
    rw [if_pos hlow]
    simp only [Bool.or_eq_true, decide_eq_true_eq, Bool.and_eq_true, beq_iff_eq] at hlow
    omega
  · next hhigh =>
    rw [if_neg hhigh]
    simp only [Bool.or_eq_true, decide_eq_true_eq, Bool.and_eq_true, beq_iff_eq, not_or] at hhigh
    rw [Nat.add_mul] at h
    omega

theorem isNearestEven_divRound (num : Nat) {den : Nat} (hden : 0 < den) :
    IsNearestEven ((num : ℚ) / den) (divRound num den) := by
  have hpos : (0 : ℚ) < den := by exact_mod_cast hden
  have hdist : (num : ℚ) / den - (divRound num den : Int) =
      (num - divRound num den * den) / den := by
    field_simp
    simp
  constructor
  case near =>
    obtain ⟨hlow, hhigh⟩ := divRound_near num den hden
    have hlow : (2 * num : ℚ) ≤ 2 * (divRound num den * den) + den := by exact_mod_cast hlow
    have hhigh : (2 * (divRound num den * den) : ℚ) ≤ 2 * num + den := by exact_mod_cast hhigh
    rw [hdist, abs_le, le_div_iff₀ hpos, div_le_iff₀ hpos]
    constructor <;> linarith
  case even =>
    intro h
    rw [hdist, abs_eq (by norm_num), div_eq_iff hpos.ne', div_eq_iff hpos.ne'] at h
    have heven : Even (divRound num den) := by
      apply even_divRound hden
      rcases h with h | h
      · left
        have h : (2 * num : ℚ) = 2 * (divRound num den * den) + den := by linarith
        exact_mod_cast h
      · right
        have h : (2 * num + den : ℚ) = 2 * (divRound num den * den) := by linarith
        exact_mod_cast h
    exact_mod_cast heven

/-- A number with few digits keeps all of them. -/
theorem keepDigits_of_lt {count n : Nat} (hcount : 0 < count) (h : n < 10 ^ count) :
    keepDigits count n = n := by
  have hdropped : (numeral n).length - count = 0 :=
    Nat.sub_eq_zero_of_le ((length_numeral_le_iff hcount).mpr h)
  simp [keepDigits, hdropped, divRound, scale, Nat.mod_one]

end Decimal

namespace Amount

open Decimal

/-- The exact number of units of the last place in an amount of lamports. -/
def exactUnits (lamports : Int) (places : Nat) : ℚ :=
  (lamports : ℚ) * 10 ^ places / 10 ^ 9

theorem exactUnits_natCast (n places : Nat) :
    exactUnits n places = ((n * scale places : Nat) : ℚ) / (lamportsPerSol : Nat) := by
  norm_num [exactUnits, scale, lamportsPerSol]

theorem isNearestEven_exactUnits_nine (lamports : Int) :
    IsNearestEven (exactUnits lamports 9) lamports := by
  have hexact : exactUnits lamports 9 = lamports := by
    simp [exactUnits]
  rw [hexact]
  exact isNearestEven_intCast lamports

/-! ## Amounts with few digits -/

section FewDigits

variable {n : Nat} (hn : n < 10 ^ 28)

include hn

theorem length_exactLamports_le : (numeral (exactLamports n)).length ≤ 28 := by
  rw [exactLamports, significantDigits, keepDigits_of_lt (by decide) hn,
    length_numeral_le_iff (by decide)]
  exact hn

/-- All but the last few numbers of places are admitted. -/
theorem admitsPlaces_of_le {places : Nat} (h : (places : Int) + 18 ≤ greatestPlaces) :
    admitsPlaces n places = true := by
  have hlength := length_exactLamports_le hn
  rw [admitsPlaces, decide_eq_true_eq]
  unfold maxUnits greatestPlaces at *
  omega

/-- Where its places are admitted, an amount is written as the units nearest to it. -/
theorem exists_solText {places : Nat} (h : admitsPlaces n places = true) :
    ∃ m, IsNearestEven (exactUnits n places) m ∧
      solText n places = .ok (.ofChars (sign m ++ pointed m.natAbs places)) := by
  have hkept : exactLamports n = n := keepDigits_of_lt (by decide) hn
  have hlength : ¬maxLength < (numeral (exactLamports n)).length :=
    Nat.not_lt.mpr ((length_exactLamports_le hn).trans (by decide))
  refine ⟨divRound (n * scale places) lamportsPerSol, ?_, ?_⟩
  · rw [exactUnits_natCast]
    exact isNearestEven_divRound _ (by decide)
  · rw [solText, Int.natAbs_natCast, if_neg hlength, if_pos h, hkept]
    simp

theorem solText_of_not_admitsPlaces {places : Int} (h : admitsPlaces n places = false) :
    solText n places = .error .badValue := by
  have hlength : ¬maxLength < (numeral (exactLamports n)).length :=
    Nat.not_lt.mpr ((length_exactLamports_le hn).trans (by decide))
  rw [solText, Int.natAbs_natCast, if_neg hlength, if_neg (by simp [h])]

end FewDigits

/-- An amount with at most as many digits as are kept is rounded once: it is written as the units
that are nearest to the exact ones, the even ones of two, for all places that are admitted. That is
also what is written of so many units, unless one of their parts is too long for that. With the nine
places of a lamport it is the number of lamports itself. -/
theorem solText_rounds {lamports places : Int} (hlamports : 0 ≤ lamports)
    (hbound : lamports < 10 ^ 28) (hplaces : 0 ≤ places) :
    (∃ m, IsNearestEven (exactUnits lamports places.toNat) m) ∧
    (∀ m, IsNearestEven (exactUnits lamports places.toNat) m →
      (admitsPlaces lamports.natAbs places = true → ∃ cs,
        cs = sign m ++ pointed m.natAbs places.toNat ∧
        rational? cs = some ((m : ℚ) / 10 ^ places.toNat) ∧
        solText lamports places = .ok (.ofChars cs) ∧
        (fixedPoint m places = .ok (.ofChars cs) ↔ PartsWritable m places.toNat)) ∧
      (admitsPlaces lamports.natAbs places = false →
        solText lamports places = .error .badValue)) ∧
    (places + 18 ≤ greatestPlaces → admitsPlaces lamports.natAbs places = true) ∧
    ∃ t, solText lamports 9 = .ok t ∧ fixedPoint lamports 9 = .ok t := by
  obtain ⟨n, rfl⟩ := Int.eq_ofNat_of_zero_le hlamports
  obtain ⟨p, rfl⟩ := Int.eq_ofNat_of_zero_le hplaces
  have hn : n < 10 ^ 28 := by exact_mod_cast hbound
  rw [Int.toNat_natCast, Int.natAbs_natCast]
  refine ⟨⟨_, exactUnits_natCast n p ▸ isNearestEven_divRound _ (by decide)⟩,
    fun m hm => ⟨fun h => ?_, solText_of_not_admitsPlaces hn⟩, admitsPlaces_of_le hn, ?_⟩
  · obtain ⟨m', hm', htext⟩ := exists_solText hn h
    obtain rfl := hm.eq hm'
    refine ⟨_, rfl, rational?_pointed m p, htext, ?_⟩
    rw [fixedPoint_eq_ok_iff, Int.toNat_natCast, and_iff_left rfl]
  · obtain ⟨m, hm, htext⟩ := @exists_solText n hn 9 (admitsPlaces_of_le hn (by decide))
    obtain rfl := hm.eq (isNearestEven_exactUnits_nine n)
    have hwritable : isWritable n = true := by
      rw [isWritable, decide_eq_true_eq, Int.natAbs_natCast]
      exact hn.trans (by decide +kernel)
    exact ⟨_, htext, fixedPoint_eq_ok_iff.mpr ⟨partsWritable_of_isWritable hwritable 9, rfl⟩⟩

theorem solText_rounds_half :
    (0 : Int) ≤ 2500 ∧ (2500 : Int) < 10 ^ 28 ∧ (0 : Int) ≤ 6 ∧
    IsNearestEven (exactUnits 2500 6) 2 ∧ PartsWritable 2 6 ∧
    solText 2500 6 = .ok "0.000002" ∧ fixedPoint 2 6 = .ok "0.000002" ∧
    ∃ t, solText 2500 9 = .ok t ∧ fixedPoint 2500 9 = .ok t := by
  obtain ⟨-, hrounds, hadmits, hnine⟩ :=
    @solText_rounds 2500 6 (by decide) (by decide) (by decide)
  have htie : IsNearestEven (exactUnits 2500 6) 2 := by
    constructor <;> norm_num [exactUnits, abs_of_pos]
  have hparts : PartsWritable 2 6 := partsWritable_of_isWritable (by decide +kernel) 6
  obtain ⟨cs, rfl, -, htext, hfixed⟩ := (hrounds 2 htie).1 (hadmits (by decide))
  exact ⟨by decide, by decide, by decide, htie, hparts, htext, hfixed.mpr hparts, hnine⟩

/-- More places than can be asked for are no places at all. At 4301 places an amount can still be
written and the units it is rounded to cannot. -/
theorem solText_beyond_places :
    solText 1 1000000000000000000 = .error .badValue ∧
    IsNearestEven (exactUnits 100000000 4301) (10 ^ 4300) ∧
      (∃ t, solText 100000000 4301 = .ok t) ∧
      fixedPoint (10 ^ 4300) 4301 = .error .badValue := by
  refine ⟨solText_of_not_admitsPlaces (n := 1) (by decide) (by decide +kernel), ?_, ?_, ?_⟩
  · have hexact : exactUnits 100000000 4301 = ((10 ^ 4300 : Int) : ℚ) := by
      have hlamports : ((100000000 : Int) : ℚ) = 10 ^ 8 := by norm_num
      rw [exactUnits, hlamports, div_eq_iff (by positivity), Int.cast_pow, Int.cast_ofNat,
        ← pow_add, ← pow_add]
    rw [hexact]
    exact isNearestEven_intCast _
  · obtain ⟨m, -, htext⟩ := @exists_solText 100000000 (by decide) 4301
      (admitsPlaces_of_le (by decide) (by decide))
    exact ⟨_, htext⟩
  · exact fixedPoint_of_not_partsWritable fun h => absurd h.2 (by decide +kernel)

end Amount

end SolanaTx
