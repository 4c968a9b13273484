import Mathlib.Data.List.Basic
import Mathlib.Data.List.TakeWhile
import SolanaTx.Text.Digit

/-!
# Words and numerals

A word has no blank in it, so it ends where the first blank stands. The numeral of a
whole number is a row of digits that is read back as that number.
-/

namespace SolanaTx.Text

/-- A row of one or more characters without a blank. -/
def IsWord (t : Text) : Prop :=
  t ≠ [] ∧ ∀ c ∈ t, isBlank c = false

/-- A row of one or more decimal digits. -/
def IsNumeral (t : Text) : Prop :=
  t ≠ [] ∧ ∀ c ∈ t, (digit? c).isSome

theorem takeWhile_word {word : Text} (hword : IsWord word) {c : CodePoint} (hc : isBlank c)
    (rest : Text) : (word ++ c :: rest).takeWhile (fun c => !isBlank c) = word := by
  have hall : ∀ c ∈ word, !isBlank c := by
    intro c hc
    simp [hword.2 c hc]
  rw [List.takeWhile_append_of_pos hall, List.takeWhile_cons_of_neg (by simp [hc]),
    List.append_nil]

/-- A text is the word at its start and what follows from the first blank on. -/
theorem eq_takeWhile_append_drop (p : CodePoint → Bool) (t : Text) :
    t = t.takeWhile p ++ t.drop (t.takeWhile p).length := by
  have hsplit := List.takeWhile_append_dropWhile (p := p) (l := t)
  have hdrop := congrArg (List.drop (t.takeWhile p).length) hsplit
  rw [List.drop_left] at hdrop
  rw [← hdrop, hsplit]

theorem trimEnd_concat (t : Text) {c : CodePoint} (hc : isBlank c = false) :
    trimEnd (t ++ [c]) = t ++ [c] := by
  rw [trimEnd, List.reverse_append, List.reverse_singleton, List.singleton_append,
    List.dropWhile_cons_of_neg (by simp [hc]), List.reverse_cons, List.reverse_reverse]

theorem trimEnd_eq_self {t : Text} (h : ∀ c ∈ t, isBlank c = false) : trimEnd t = t := by
  rcases List.eq_nil_or_concat' t with rfl | ⟨front, c, rfl⟩
  · rfl
  · exact trimEnd_concat front (h c (List.mem_append_right front (List.mem_singleton_self c)))

theorem trimEnd_append (t u : Text) :
    trimEnd (t ++ u) = if trimEnd u = [] then trimEnd t else t ++ trimEnd u := by
  have hempty : trimEnd u = [] ↔ ∀ c ∈ u, isBlank c := by
    simp [trimEnd, List.dropWhile_eq_nil_iff]
  split
  · next hblank => exact trimEnd_append_blanks t u (hempty.mp hblank)
  · next hne =>
    have hrest : u.reverse.dropWhile isBlank ≠ [] := by
      simpa [trimEnd] using hne
    rw [trimEnd, List.reverse_append, List.dropWhile_append,
      if_neg (by simpa using hrest), List.reverse_append, List.reverse_reverse]
    rfl

/-! ## Numerals of whole numbers -/

theorem digit?_digitChar {d : Nat} (hd : d < 10) : digit? (.char d.digitChar) = some d := by
  have hall : ∀ d : Fin 10, digit? (.char d.val.digitChar) = some d.val := by decide
  exact hall ⟨d, hd⟩

/-- The digits of a number, in their order, are read as the digits that write it. -/
theorem exists_digits_ofNat (n : Nat) :
    ∃ ds, (Decimal.ofNat n).mapM digit? = some ds ∧
      ds.foldl (fun n d => 10 * n + d) 0 = n := by
  induction n using Nat.strongRecOn with
  | ind n ih =>
      by_cases hn : n < 10
      · refine ⟨[n], ?_, by simp⟩
        rw [Decimal.ofNat, Decimal.numeral, Nat.toDigits_of_lt_base hn]
        simp [ofChars, digit?_digitChar hn]
      · obtain ⟨ds, hds, hvalue⟩ := ih (n / 10) (by omega)
        refine ⟨ds ++ [n % 10], ?_, ?_⟩
        · rw [Decimal.ofNat, Decimal.numeral] at hds ⊢
          rw [Nat.toDigits_of_base_le (by decide) (by omega), ofChars, List.map_append,
            List.mapM_append, ← ofChars, hds]
          simp [digit?_digitChar (Nat.mod_lt n (by decide))]
        · rw [List.foldl_append, hvalue, List.foldl_cons, List.foldl_nil]
          omega

theorem digits?_ofNat (n : Nat) : digits? (Decimal.ofNat n) = some n := by
  obtain ⟨ds, hds, hvalue⟩ := exists_digits_ofNat n
  have hne : (Decimal.ofNat n).isEmpty = false := by
    simp [Decimal.ofNat, Decimal.numeral, ofChars, Nat.toDigits_ne_nil]
  rw [digits?, hne, hds, if_neg Bool.false_ne_true, Option.map_some, hvalue]

theorem forall_isSome_of_mapM {α β : Type} {f : α → Option β} {as : List α} {bs : List β}
    (h : as.mapM f = some bs) : ∀ a ∈ as, (f a).isSome := by
  induction as generalizing bs with
  | nil => simp
  | cons a rest ih =>
      rw [List.mapM_cons] at h
      cases ha : f a with
      | none => simp [ha] at h
      | some b =>
          cases hrest : rest.mapM f with
          | none => simp [ha, hrest] at h
          | some bs => exact List.forall_mem_cons.mpr ⟨by rw [ha]; rfl, ih hrest⟩

theorem exists_mapM_of_forall_isSome {α β : Type} {f : α → Option β} {as : List α}
    (h : ∀ a ∈ as, (f a).isSome) : ∃ bs, as.mapM f = some bs := by
  induction as with
  | nil => exact ⟨[], rfl⟩
  | cons a rest ih =>
      rw [List.forall_mem_cons] at h
      obtain ⟨b, hb⟩ := Option.isSome_iff_exists.mp h.1
      obtain ⟨bs, hbs⟩ := ih h.2
      exact ⟨b :: bs, by rw [List.mapM_cons, hb, hbs]; rfl⟩

/-- A numeral writes a number. -/
theorem IsNumeral.exists_digits? {t : Text} (ht : IsNumeral t) : ∃ n, digits? t = some n := by
  obtain ⟨ds, hds⟩ := exists_mapM_of_forall_isSome ht.2
  have hne : t.isEmpty = false := by simpa using ht.1
  exact ⟨_, by rw [digits?, hne, hds]; rfl⟩

theorem isNumeral_ofNat (n : Nat) : IsNumeral (Decimal.ofNat n) := by
  obtain ⟨ds, hds, -⟩ := exists_digits_ofNat n
  refine ⟨?_, forall_isSome_of_mapM hds⟩
  simp [Decimal.ofNat, Decimal.numeral, ofChars, Nat.toDigits_ne_nil]

/-- A numeral gets longer with its number. -/
theorem length_ofNat_mono {m n : Nat} (h : m ≤ n) :
    (Decimal.ofNat m).length ≤ (Decimal.ofNat n).length := by
  have hlength : ∀ k, (Decimal.ofNat k).length = (Nat.toDigits 10 k).length := by
    intro k
    rw [Decimal.ofNat, Decimal.numeral, ofChars, List.length_map]
  rw [hlength, hlength, Nat.length_toDigits_le_iff (by decide) Nat.length_toDigits_pos]
  have hn := (Nat.length_toDigits_le_iff (b := 10) (n := n) (by decide)
    Nat.length_toDigits_pos).mp (Nat.le_refl _)
  omega

theorem ofNat_injective {m n : Nat} (h : Decimal.ofNat m = Decimal.ofNat n) : m = n := by
  have hread := congrArg digits? h
  rw [digits?_ofNat, digits?_ofNat] at hread
  exact Option.some.inj hread

/-! ## Numerals with points between them -/

theorem join_concat (separator : Text) {parts : List Text} (hparts : parts ≠ []) (last : Text) :
    join separator (parts ++ [last]) = join separator parts ++ (separator ++ last) := by
  induction parts with
  | nil => exact absurd rfl hparts
  | cons part rest ih =>
      cases rest with
      | nil => simp [join, List.intercalate_cons_cons]
      | cons next rest =>
          have hrest := ih (List.cons_ne_nil next rest)
          rw [join, join] at hrest
          rw [join, join, List.cons_append, List.cons_append, List.intercalate_cons_cons,
            ← List.cons_append, hrest, List.intercalate_cons_cons]
          simp only [List.append_assoc]

/-- Numbers are read back from their numerals with points between them. -/
theorem eq_of_join_numerals {ms ns : List Nat} (hms : ms ≠ []) (hns : ns ≠ [])
    (h : join "." (ms.map Decimal.ofNat) = join "." (ns.map Decimal.ofNat)) : ms = ns := by
  have hpoint : ∀ ks : List Nat, ∀ numeral ∈ ks.map Decimal.ofNat,
      CodePoint.char '.' ∉ numeral := by
    intro ks numeral hnumeral hmem
    obtain ⟨k, -, rfl⟩ := List.mem_map.mp hnumeral
    exact absurd ((isNumeral_ofNat k).2 _ hmem) (by decide)
  have hsplit : ∀ ks : List Nat, ks ≠ [] →
      (join "." (ks.map Decimal.ofNat)).splitOn (.char '.') = ks.map Decimal.ofNat :=
    fun ks hks => List.splitOn_intercalate _ (hpoint ks) (by simpa using hks)
  have hnumerals : ms.map Decimal.ofNat = ns.map Decimal.ofNat := by
    rw [← hsplit ms hms, h, hsplit ns hns]
  exact List.map_injective_iff.mpr (fun _ _ => ofNat_injective) hnumerals

end SolanaTx.Text
