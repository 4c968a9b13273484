import SolanaTx.Proofs.Decimal.Numeral
import SolanaTx.Proofs.Text.Word

/-!
# Numerals in groups

Commas stand between groups of three digits, counted from the right. Without the commas the
numeral is read back as its number.
-/

namespace SolanaTx

namespace Decimal

/-! ## Groups of three digits -/

/-- Whether characters are some digits with a comma in front of each group of three, counted from
the right. -/
inductive InGroups : List Char → List Char → Prop
  | few {ds : List Char} (hne : ds ≠ []) (hfew : ds.length ≤ 3) : InGroups ds ds
  | group {cs ds last : List Char} (h : InGroups cs ds) (hlast : last.length = 3) :
      InGroups (cs ++ ',' :: last) (ds ++ last)

theorem inGroups_commas {ds : List Char} (h : ds ≠ []) :
    InGroups (commas ds).reverse ds.reverse := by
  fun_induction commas ds with
  | case1 a b c d rest ih =>
      -- the first group of the reversed digits is the last one of the numeral
      have hgroups := (ih (List.cons_ne_nil d rest)).group (show [c, b, a].length = 3 from rfl)
      simpa using hgroups
  | case2 ds hfew =>
      refine .few (by simpa using h) ?_
      rw [List.length_reverse]
      by_contra! hmany
      match ds, hmany with
      | a :: b :: c :: d :: rest, _ => exact hfew a b c d rest rfl

theorem inGroups_groupedNumeral (n : Nat) : InGroups (groupedNumeral n) (numeral n) := by
  have hne : (numeral n).reverse ≠ [] := by simpa using numeral_ne_nil n
  simpa [groupedNumeral] using inGroups_commas hne

theorem filter_ne_of_not_mem {cs : List Char} (h : ',' ∉ cs) : cs.filter (· ≠ ',') = cs :=
  List.filter_eq_self.mpr fun _ hc => decide_eq_true (ne_of_mem_of_not_mem hc h)

/-- The digits are what is left without the commas. -/
theorem InGroups.filter_eq {cs ds : List Char} (h : InGroups cs ds) (hds : ',' ∉ ds) :
    cs.filter (· ≠ ',') = ds := by
  induction h with
  | few => exact filter_ne_of_not_mem hds
  | group h hlast ih =>
      rw [List.mem_append, not_or] at hds
      rw [List.filter_append, ih hds.1, List.filter_cons_of_neg (by simp),
        filter_ne_of_not_mem hds.2]

theorem InGroups.mem {cs ds : List Char} (h : InGroups cs ds) {c : Char} (hc : c ∈ cs) :
    c = ',' ∨ c ∈ ds := by
  induction h with
  | few => exact .inr hc
  | group h hlast ih =>
      simp only [List.mem_append, List.mem_cons] at hc ⊢
      tauto

theorem not_mem_groupedNumeral {n : Nat} {c : Char} (hc : c.isDigit = false) (hcomma : c ≠ ',') :
    c ∉ groupedNumeral n := by
  intro hmem
  rcases (inGroups_groupedNumeral n).mem hmem with h | h
  · exact hcomma h
  · exact not_mem_of_areDigits (areDigits_numeral n) hc h

end Decimal

/-! ## Reading -/

namespace Text

theorem joinGroups_of_not_mem {cs : Text} (h : CodePoint.char '_' ∉ cs) :
    joinGroups cs = some cs := by
  fun_induction joinGroups cs <;> simp_all

theorem dropWhile_isNumberPadding {t : Text} (h : ∀ c ∈ t, isBlank c = false) :
    t.dropWhile isNumberPadding = t := by
  cases t with
  | nil => rfl
  | cons c rest =>
      have hc : isNumberPadding c = false := by
        simp [isNumberPadding, h c List.mem_cons_self]
      exact List.dropWhile_cons_of_neg (by simp [hc])

/-- A text without blanks has no padding on either side. -/
theorem unpadded_eq {t : Text} (h : ∀ c ∈ t, isBlank c = false) :
    ((t.dropWhile isNumberPadding).reverse.dropWhile isNumberPadding).reverse = t := by
  rw [dropWhile_isNumberPadding h, dropWhile_isNumberPadding (by simpa using h),
    List.reverse_reverse]

theorem isBlank_of_isDigit {c : Char} (h : c.isDigit = true) : isBlank (.char c) = false := by
  have hrange : 48 ≤ c.toNat ∧ c.toNat ≤ 57 := Char.isDigit_iff_toNat.mp h
  have hall : ∀ d : Fin 10, isBlank (.char (Char.ofNat (48 + d))) = false := by decide
  simpa [Nat.add_sub_of_le hrange.1] using hall ⟨c.toNat - 48, by omega⟩

theorem isBlank_of_mem_ofNat {n : Nat} {c : CodePoint} (hc : c ∈ Decimal.ofNat n) :
    isBlank c = false := by
  obtain ⟨d, hd, rfl⟩ := List.mem_map.mp hc
  exact isBlank_of_isDigit (Decimal.areDigits_numeral n d hd)

/-- The digits behind the sign are read as the number that they write. -/
theorem unsigned_ofNat {n : Nat} (h : n < Decimal.scale Decimal.maxDigits) :
    (joinGroups (Decimal.ofNat n) >>= fun ds =>
      if ds.length ≤ Decimal.maxDigits then digits? ds else none) = some n := by
  have hgroups : CodePoint.char '_' ∉ Decimal.ofNat n := by
    simpa [Decimal.ofNat, ofChars] using
      Decimal.not_mem_of_areDigits (Decimal.areDigits_numeral n) rfl
  have hlength : (Decimal.ofNat n).length ≤ Decimal.maxDigits := by
    rw [Decimal.ofNat, ofChars, List.length_map]
    exact (Decimal.length_numeral_le_iff (by decide)).mpr h
  simp [joinGroups_of_not_mem hgroups, hlength, digits?_ofNat]

/-- A number that can be written is read back from its sign and its numeral. -/
theorem toInt?_signed {n : Int} (h : Decimal.isWritable n) :
    toInt? (.char (if n < 0 then '-' else '+') :: Decimal.ofNat n.natAbs) = some n := by
  have hread := unsigned_ofNat (of_decide_eq_true h)
  have hblank : ∀ sign ∈ ['-', '+'], ∀ c ∈ CodePoint.char sign :: Decimal.ofNat n.natAbs,
      isBlank c = false := by
    simp only [List.forall_mem_cons]
    exact ⟨⟨by decide, fun _ => isBlank_of_mem_ofNat⟩,
      ⟨by decide, fun _ => isBlank_of_mem_ofNat⟩, List.forall_mem_nil _⟩
  split
  · next hneg =>
    have hvalue : -(n.natAbs : Int) = n := by omega
    simp only [toInt?, unpadded_eq (hblank '-' (by simp)), hread]
    exact congrArg some hvalue
  · next hpos =>
    have hvalue : (n.natAbs : Int) = n := by omega
    simp only [toInt?, unpadded_eq (hblank '+' (by simp)), hread]
    exact congrArg some hvalue

end Text

end SolanaTx
