import Mathlib.Data.List.Basic
import Mathlib.Data.List.Chain
import SolanaTx.Naming
import SolanaTx.Program.Discriminator

/-!
# Names in any spelling

The words of a name are found again however it is spelled, so that its discriminator and the name
shown do not depend on the spelling. An ASCII text without capital letters has no further words.
-/

namespace SolanaTx.Naming

open Text

/-! ## ASCII letters -/

/-- Whether a text has ASCII characters only. -/
def IsAscii (t : Text) : Prop :=
  ∀ c ∈ t, c.toNat < 0x80

theorem forall_ascii {p : CodePoint → Prop} (h : ∀ n : Fin 0x80, p (.char (Char.ofNat n)))
    {c : CodePoint} (hc : c.toNat < 0x80) : p c := by
  cases c with
  | char c => simpa using h ⟨c.toNat, hc⟩
  | half n =>
      simp only [CodePoint.toNat] at hc
      omega

/-- The small form of an ASCII character. -/
def smallLetter (c : CodePoint) : CodePoint :=
  if isAsciiUpper c then .ofNat (c.toNat + 0x20) else c

theorem lowerChar_of_ascii {c : CodePoint} (hc : c.toNat < 0x80) :
    lowerChar c = [smallLetter c] :=
  forall_ascii (p := fun c => lowerChar c = [smallLetter c]) (by decide +kernel) hc

theorem toNat_smallLetter_lt {c : CodePoint} (hc : c.toNat < 0x80) :
    (smallLetter c).toNat < 0x80 :=
  forall_ascii (p := fun c => (smallLetter c).toNat < 0x80) (by decide +kernel) hc

theorem isAsciiUpper_smallLetter {c : CodePoint} (hc : c.toNat < 0x80) :
    isAsciiUpper (smallLetter c) = false :=
  forall_ascii (p := fun c => isAsciiUpper (smallLetter c) = false) (by decide +kernel) hc

theorem smallLetter_of_not_upper {c : CodePoint} (hc : isAsciiUpper c = false) :
    smallLetter c = c := by
  simp [smallLetter, hc]

theorem map_smallLetter_of_forall {t : Text} (ht : ∀ c ∈ t, isAsciiUpper c = false) :
    t.map smallLetter = t :=
  (List.map_congr_left fun c hc => smallLetter_of_not_upper (ht c hc)).trans (List.map_id t)

theorem lowerAfter_of_ascii {t : Text} (ht : IsAscii t) (before : Text) :
    lowerAfter before t = t.map smallLetter := by
  induction t generalizing before with
  | nil => rfl
  | cons c rest ih =>
      obtain ⟨hc, hrest⟩ := List.forall_mem_cons.mp ht
      have hsigma : c ≠ .char 'Σ' := by
        rintro rfl
        exact absurd hc (by decide)
      simp [lowerAfter, hsigma, lowerChar_of_ascii hc, ih hrest]

theorem lower_of_ascii {t : Text} (ht : IsAscii t) : lower t = t.map smallLetter :=
  lowerAfter_of_ascii ht []

/-! ## Parting words -/

/-- Whether a character is one that names have inside a word. -/
def isSmall (c : CodePoint) : Bool :=
  isAsciiLower c || isAsciiDigit c

theorem isAsciiUpper_of_isSmall {c : CodePoint} (hc : isSmall c) : isAsciiUpper c = false := by
  simp only [isSmall, isAsciiLower, isAsciiDigit, Bool.or_eq_true, Bool.and_eq_true,
    decide_eq_true_eq] at hc
  simp only [isAsciiUpper, Bool.and_eq_false_iff, decide_eq_false_iff_not]
  simp only [Char.reduceToNat] at *
  omega

theorem toNat_lt_of_isSmall {c : CodePoint} (hc : isSmall c) : c.toNat < 0x80 := by
  simp only [isSmall, isAsciiLower, isAsciiDigit, Bool.or_eq_true, Bool.and_eq_true,
    decide_eq_true_eq] at hc
  simp only [Char.reduceToNat] at hc
  omega

theorem head?_partWords (inWord : Bool) (t : Text) : (partWords inWord t).head? = t.head? := by
  fun_cases partWords inWord t <;> rfl

theorem partCapitals_cons_cons (c d : CodePoint) (rest : Text) :
    partCapitals (c :: d :: rest) =
      if isSmall c && isAsciiUpper d then c :: .char '_' :: partCapitals (d :: rest)
      else c :: partCapitals (d :: rest) :=
  rfl

/-- Whether a character is parted from the next depends on the first of the next ones only. -/
theorem partCapitals_cons_congr {c : CodePoint} {t t' : Text} (hhead : t.head? = t'.head?)
    (h : partCapitals t = partCapitals t') : partCapitals (c :: t) = partCapitals (c :: t') := by
  cases t with
  | nil =>
      obtain rfl : t' = [] := by simpa [eq_comm] using hhead
      rfl
  | cons d rest =>
      cases t' with
      | nil => simp at hhead
      | cons d' rest' =>
          obtain rfl : d = d' := by simpa using hhead
          rw [partCapitals_cons_cons, partCapitals_cons_cons, h]

/-- Where each capital letter follows a small letter or a digit, the capitals that start words are
among those that are parted anyway. -/
theorem partCapitals_partWords {t : Text}
    (ht : t.IsChain fun c d => isAsciiUpper d → isSmall c) (inWord : Bool) :
    partCapitals (partWords inWord t) = partCapitals t := by
  fun_induction partWords inWord t with
  | case1 inWord c upper small rest h ih =>
      exact partCapitals_cons_congr (head?_partWords _ _) (ih ht.tail)
  | case2 inWord c upper small rest h hstart ih =>
      simp only [Bool.and_eq_true] at hstart
      obtain ⟨⟨-, hupper⟩, -⟩ := hstart
      have hsmall : isSmall c := (List.isChain_cons_cons.mp ht).1 hupper
      have hcap : partCapitals (upper :: partWords true (small :: rest)) =
          partCapitals (upper :: small :: rest) :=
        partCapitals_cons_congr (head?_partWords _ _) (ih ht.tail.tail)
      have hline : isSmall (.char '_') = false := by decide
      have hline' : isAsciiUpper (.char '_') = false := by decide
      simp [partCapitals_cons_cons, hsmall, hupper, hcap, hline, hline']
  | case3 inWord c upper small rest h hstart ih =>
      exact partCapitals_cons_congr (head?_partWords _ _) (ih ht.tail)
  | case4 => rfl

theorem isChain_of_forall {t : Text} (ht : ∀ d ∈ t, isAsciiUpper d = false) (c : CodePoint) :
    (c :: t).IsChain fun c d => isAsciiUpper d → isSmall c := by
  induction t generalizing c with
  | nil => exact .singleton c
  | cons d rest ih =>
      obtain ⟨hd, hrest⟩ := List.forall_mem_cons.mp ht
      exact List.isChain_cons_cons.mpr ⟨by simp [hd], ih hrest d⟩

/-- A word ends where a capital letter follows. -/
theorem partCapitals_append {smalls rest : Text} (hne : smalls ≠ [])
    (hsmalls : ∀ d ∈ smalls, isSmall d) (hrest : ∀ d ∈ rest.head?, isAsciiUpper d) :
    partCapitals (smalls ++ rest) =
      smalls ++ if rest = [] then [] else .char '_' :: partCapitals rest := by
  induction smalls with
  | nil => exact absurd rfl hne
  | cons c smalls ih =>
      obtain ⟨hc, hsmalls⟩ := List.forall_mem_cons.mp hsmalls
      cases smalls with
      | nil =>
          cases rest with
          | nil => rfl
          | cons d rest =>
              have hd : isAsciiUpper d := hrest d rfl
              simp [partCapitals_cons_cons, hc, hd]
      | cons d smalls =>
          have hd : isAsciiUpper d = false :=
            isAsciiUpper_of_isSmall (hsmalls d List.mem_cons_self)
          have hparted := ih (List.cons_ne_nil d smalls) hsmalls
          simp only [List.cons_append] at hparted ⊢
          rw [partCapitals_cons_cons, hd, hparted]
          simp

/-! ## Words -/

/-- A word of a name: two small letters, and then small letters and digits. -/
structure Word where
  first : Char
  second : Char
  rest : List Char
  isLower_first : first.isLower
  isLower_second : second.isLower
  forall_rest : ∀ c ∈ rest, c.isLower ∨ c.isDigit

theorem isLower_iff {c : Char} : c.isLower ↔ isAsciiLower (.char c) := by
  show (decide (c.val ≥ 'a'.val) && decide (c.val ≤ 'z'.val)) = true ↔ _
  simp only [isAsciiLower, Bool.and_eq_true, decide_eq_true_eq, UInt32.le_iff_toNat_le, ge_iff_le]
  rfl

theorem isDigit_iff {c : Char} : c.isDigit ↔ isAsciiDigit (.char c) := by
  show (decide (c.val ≥ '0'.val) && decide (c.val ≤ '9'.val)) = true ↔ _
  simp only [isAsciiDigit, Bool.and_eq_true, decide_eq_true_eq, UInt32.le_iff_toNat_le, ge_iff_le]
  rfl

theorem isSmall_char {c : Char} (hc : c.isLower ∨ c.isDigit) : isSmall (.char c) := by
  rw [isSmall, Bool.or_eq_true, ← isLower_iff, ← isDigit_iff]
  exact hc

/-- What holds of the small letters holds of the first letter of a word. -/
theorem forall_isLower {p : Char → Prop}
    (h : ∀ n : Fin 0x80, (Char.ofNat n).isLower → p (Char.ofNat n)) {c : Char} (hc : c.isLower) :
    p c := by
  have hlt : c.toNat < 0x80 := toNat_lt_of_isSmall (isSmall_char (.inl hc))
  simpa using h ⟨c.toNat, hlt⟩ (by simpa using hc)

section Letters

variable {c : Char} (hc : c.isLower)
include hc

theorem toNat_toUpper_lt : CodePoint.toNat (.char c.toUpper) < 0x80 :=
  forall_isLower (p := fun c => CodePoint.toNat (.char c.toUpper) < 0x80) (by decide +kernel) hc

theorem isAsciiUpper_toUpper : isAsciiUpper (.char c.toUpper) :=
  forall_isLower (p := fun c => isAsciiUpper (.char c.toUpper)) (by decide +kernel) hc

theorem smallLetter_toUpper : smallLetter (.char c.toUpper) = .char c :=
  forall_isLower (p := fun c => smallLetter (.char c.toUpper) = .char c) (by decide +kernel) hc

theorem isCapital_toUpper : isCapital (.char c.toUpper) :=
  forall_isLower (p := fun c => isCapital (.char c.toUpper)) (by decide +kernel) hc

theorem isCapital_eq_false : isCapital (.char c) = false :=
  forall_isLower (p := fun c => isCapital (.char c) = false) (by decide +kernel) hc

theorem upperChar_eq : upperChar (.char c) = [.char c.toUpper] :=
  forall_isLower (p := fun c => upperChar (.char c) = [.char c.toUpper]) (by decide +kernel) hc

end Letters

namespace Word

variable (w : Word)

/-- The characters behind the first. -/
def tail : Text :=
  ofChars (w.second :: w.rest)

def small : Text :=
  .char w.first :: w.tail

def capital : Text :=
  .char w.first.toUpper :: w.tail

theorem tail_ne_nil : w.tail ≠ [] :=
  List.cons_ne_nil _ _

theorem isSmall_of_mem_tail : ∀ c ∈ w.tail, isSmall c := by
  rw [tail, ofChars, List.forall_mem_map, List.forall_mem_cons]
  exact ⟨isSmall_char (.inl w.isLower_second), fun c hc => isSmall_char (w.forall_rest c hc)⟩

theorem not_upper_of_mem_tail : ∀ c ∈ w.tail, isAsciiUpper c = false :=
  fun c hc => isAsciiUpper_of_isSmall (w.isSmall_of_mem_tail c hc)

theorem isSmall_of_mem_small : ∀ c ∈ w.small, isSmall c :=
  List.forall_mem_cons.mpr ⟨isSmall_char (.inl w.isLower_first), w.isSmall_of_mem_tail⟩

theorem capitalize_small : capitalize w.small = w.capital := by
  rw [small, capitalize, upperChar_eq w.isLower_first]
  rfl

theorem map_smallLetter_capital : w.capital.map smallLetter = w.small := by
  rw [capital, List.map_cons, smallLetter_toUpper w.isLower_first,
    map_smallLetter_of_forall w.not_upper_of_mem_tail, small]

theorem isAscii_tail : IsAscii w.tail :=
  fun c hc => toNat_lt_of_isSmall (w.isSmall_of_mem_tail c hc)

theorem isAscii_capital : IsAscii w.capital :=
  List.forall_mem_cons.mpr ⟨toNat_toUpper_lt w.isLower_first, w.isAscii_tail⟩

end Word

/-- The words with underscores between them. -/
def snakeSpelling (words : List Word) : Text :=
  join "_" (words.map Word.small)

/-- The words one behind the other, each with a capital letter. -/
def pascalSpelling (words : List Word) : Text :=
  words.flatMap Word.capital

/-- The words one behind the other, each but the first with a capital letter. -/
def camelSpelling : List Word → Text
  | [] => []
  | w :: words => w.small ++ pascalSpelling words

theorem pascalSpelling_cons (w : Word) (words : List Word) :
    pascalSpelling (w :: words) = .char w.first.toUpper :: w.tail ++ pascalSpelling words :=
  rfl

/-- In a row of words, all but the first with a capital letter, capitals follow small letters and
digits. -/
theorem isChain_words (w : Word) (c : CodePoint) (words : List Word) :
    (c :: w.tail ++ pascalSpelling words).IsChain fun c d => isAsciiUpper d → isSmall c := by
  induction words generalizing w c with
  | nil => simpa [pascalSpelling] using isChain_of_forall w.not_upper_of_mem_tail c
  | cons v words ih =>
      refine List.isChain_append.mpr ⟨isChain_of_forall w.not_upper_of_mem_tail c, ih v _, ?_⟩
      intro last hlast _ _ _
      rw [List.getLast?_cons_of_ne_nil w.tail_ne_nil] at hlast
      exact w.isSmall_of_mem_tail last (List.mem_of_getLast? hlast)

theorem partCapitals_word (w : Word) (c : CodePoint) (words : List Word) :
    partCapitals (c :: w.tail ++ pascalSpelling words) = c :: w.tail ++
      if pascalSpelling words = [] then []
      else .char '_' :: partCapitals (pascalSpelling words) := by
  have hhead : ∀ d ∈ (pascalSpelling words).head?, isAsciiUpper d := by
    cases words with
    | nil => simp [pascalSpelling]
    | cons v words =>
        rw [pascalSpelling_cons]
        simpa using isAsciiUpper_toUpper v.isLower_first
  have hsecond : isAsciiUpper (.char w.second) = false :=
    w.not_upper_of_mem_tail _ List.mem_cons_self
  have htail := partCapitals_append w.tail_ne_nil w.isSmall_of_mem_tail hhead
  simp only [Word.tail, ofChars, List.map_cons, List.cons_append] at htail ⊢
  rw [partCapitals_cons_cons, hsecond, htail]
  simp

/-- Such a row is parted into its words. -/
theorem partCapitals_words (w : Word) (c : CodePoint) (words : List Word) :
    partCapitals (c :: w.tail ++ pascalSpelling words) =
      join "_" ((c :: w.tail) :: words.map Word.capital) := by
  rw [partCapitals_word]
  induction words generalizing w c with
  | nil => simp [pascalSpelling, join]
  | cons v words ih =>
      have hne : pascalSpelling (v :: words) ≠ [] := by simp [pascalSpelling_cons]
      rw [if_neg hne, pascalSpelling_cons, partCapitals_word, ih v, List.map_cons]
      simp only [join]
      rw [List.intercalate_cons_cons, List.append_assoc]
      rfl

theorem forall_mem_join {p : CodePoint → Prop} {separator : Text} {parts : List Text}
    (hseparator : ∀ c ∈ separator, p c) (hparts : ∀ part ∈ parts, ∀ c ∈ part, p c) :
    ∀ c ∈ join separator parts, p c := by
  induction parts with
  | nil => simp [join]
  | cons part rest ih =>
      obtain ⟨hpart, hrest⟩ := List.forall_mem_cons.mp hparts
      cases rest with
      | nil => simpa [join] using hpart
      | cons next rest =>
          rw [join, List.intercalate_cons_cons, List.append_assoc]
          simp only [List.forall_mem_append]
          exact ⟨hpart, hseparator, ih hrest⟩

theorem map_join (f : CodePoint → CodePoint) (separator : Text) (parts : List Text) :
    (join separator parts).map f = join (separator.map f) (parts.map (List.map f)) := by
  induction parts with
  | nil => simp [join]
  | cons part rest ih =>
      cases rest with
      | nil => simp [join]
      | cons next rest =>
          simp only [join, List.map_cons] at ih ⊢
          rw [List.intercalate_cons_cons, List.intercalate_cons_cons]
          simp [ih]

/-- The words of such a row in small letters are those of its name in snake case. -/
theorem snakeCase_words (w : Word) {c : CodePoint} (hc : c.toNat < 0x80) (words : List Word) :
    snakeCase (c :: w.tail ++ pascalSpelling words) =
      join "_" ((smallLetter c :: w.tail) :: words.map Word.small) := by
  have hascii : IsAscii (join "_" ((c :: w.tail) :: words.map Word.capital)) := by
    apply forall_mem_join (p := fun c => c.toNat < 0x80) (by decide)
    rw [List.forall_mem_cons, List.forall_mem_cons, List.forall_mem_map]
    exact ⟨⟨hc, w.isAscii_tail⟩, fun v _ => v.isAscii_capital⟩
  have hwords : words.map (List.map smallLetter ∘ Word.capital) = words.map Word.small :=
    List.map_congr_left fun v _ => v.map_smallLetter_capital
  rw [snakeCase, partCapitals_partWords (isChain_words w c words), partCapitals_words,
    lower_of_ascii hascii, map_join]
  simp only [List.map_cons, List.map_map, map_smallLetter_of_forall w.not_upper_of_mem_tail, hwords]
  rfl

theorem snakeCase_camelSpelling (w : Word) (words : List Word) :
    snakeCase (camelSpelling (w :: words)) = snakeSpelling (w :: words) := by
  have hfirst : isSmall (.char w.first) := isSmall_char (.inl w.isLower_first)
  rw [camelSpelling, Word.small, snakeCase_words w (toNat_lt_of_isSmall hfirst),
    smallLetter_of_not_upper (isAsciiUpper_of_isSmall hfirst)]
  rfl

theorem snakeCase_pascalSpelling (w : Word) (words : List Word) :
    snakeCase (pascalSpelling (w :: words)) = snakeSpelling (w :: words) := by
  rw [pascalSpelling_cons, snakeCase_words w (toNat_toUpper_lt w.isLower_first),
    smallLetter_toUpper w.isLower_first]
  rfl

/-! ## Texts without capital letters -/

theorem partWords_of_forall {t : Text} (ht : ∀ c ∈ t, isAsciiUpper c = false) (inWord : Bool) :
    partWords inWord t = t := by
  fun_induction partWords inWord t with
  | case1 inWord c upper small rest h ih => rw [ih (List.forall_mem_cons.mp ht).2]
  | case2 inWord c upper small rest h hstart ih => simp_all
  | case3 inWord c upper small rest h hstart ih => rw [ih (List.forall_mem_cons.mp ht).2]
  | case4 => rfl

theorem partCapitals_of_forall {t : Text} (ht : ∀ c ∈ t, isAsciiUpper c = false) :
    partCapitals t = t := by
  fun_induction partCapitals t with
  | case1 c upper rest h ih => simp_all
  | case2 c upper rest h ih => rw [ih (List.forall_mem_cons.mp ht).2]
  | case3 => rfl

theorem snakeCase_of_forall {t : Text} (hascii : IsAscii t)
    (ht : ∀ c ∈ t, isAsciiUpper c = false) : snakeCase t = t := by
  rw [snakeCase, partWords_of_forall ht, partCapitals_of_forall ht, lower_of_ascii hascii,
    map_smallLetter_of_forall ht]

/-- Parting puts in nothing but underscores. -/
theorem forall_mem_partWords {p : CodePoint → Prop} (hline : p (.char '_')) {t : Text}
    (ht : ∀ c ∈ t, p c) (inWord : Bool) : ∀ c ∈ partWords inWord t, p c := by
  fun_induction partWords inWord t with
  | case1 inWord c upper small rest h ih =>
      obtain ⟨hc, hrest⟩ := List.forall_mem_cons.mp ht
      exact List.forall_mem_cons.mpr ⟨hc, ih hrest⟩
  | case2 inWord c upper small rest h hstart ih =>
      simp only [List.forall_mem_cons] at ht ih ⊢
      exact ⟨ht.1, hline, ht.2.1, ih ht.2.2⟩
  | case3 inWord c upper small rest h hstart ih =>
      obtain ⟨hc, hrest⟩ := List.forall_mem_cons.mp ht
      exact List.forall_mem_cons.mpr ⟨hc, ih hrest⟩
  | case4 => exact ht

theorem forall_mem_partCapitals {p : CodePoint → Prop} (hline : p (.char '_')) {t : Text}
    (ht : ∀ c ∈ t, p c) : ∀ c ∈ partCapitals t, p c := by
  fun_induction partCapitals t with
  | case1 c upper rest h ih =>
      obtain ⟨hc, hrest⟩ := List.forall_mem_cons.mp ht
      simp only [List.forall_mem_cons]
      exact ⟨hc, hline, ih hrest⟩
  | case2 c upper rest h ih =>
      obtain ⟨hc, hrest⟩ := List.forall_mem_cons.mp ht
      exact List.forall_mem_cons.mpr ⟨hc, ih hrest⟩
  | case3 => exact ht

theorem isAscii_parted {t : Text} (ht : IsAscii t) : IsAscii (partCapitals (partWords false t)) :=
  forall_mem_partCapitals (by decide) (forall_mem_partWords (by decide) ht false)

theorem snakeCase_snakeCase {t : Text} (ht : IsAscii t) :
    snakeCase (snakeCase t) = snakeCase t := by
  have hparted := isAscii_parted ht
  apply snakeCase_of_forall
  all_goals
    rw [snakeCase, lower_of_ascii hparted]
  · rw [IsAscii, List.forall_mem_map]
    exact fun c hc => toNat_smallLetter_lt (hparted c hc)
  · rw [List.forall_mem_map]
    exact fun c hc => isAsciiUpper_smallLetter (hparted c hc)

theorem snakeCase_snakeSpelling (words : List Word) :
    snakeCase (snakeSpelling words) = snakeSpelling words := by
  apply snakeCase_of_forall
  · apply forall_mem_join (p := fun c => c.toNat < 0x80) (by decide)
    rw [List.forall_mem_map]
    exact fun w _ c hc => toNat_lt_of_isSmall (w.isSmall_of_mem_small c hc)
  · apply forall_mem_join (p := fun c => isAsciiUpper c = false) (by decide)
    rw [List.forall_mem_map]
    exact fun w _ c hc => isAsciiUpper_of_isSmall (w.isSmall_of_mem_small c hc)

/-! ## Names that are shown -/

theorem splitUnderscores_eq (t : Text) : splitUnderscores t = t.splitOn (.char '_') := by
  induction t with
  | nil => rfl
  | cons c rest ih =>
      rw [List.splitOn, List.splitOnP_cons_eq_if_modifyHead, ← List.splitOn, ← ih,
        splitUnderscores]
      simp only [beq_iff_eq]
      split
      · rfl
      · cases hparts : splitUnderscores rest with
        | nil => exact absurd (ih.symm.trans hparts) (List.splitOn_ne_nil _ _)
        | cons part parts => rfl

/-- Each word between underscores gets a capital letter. -/
theorem capitalParts_snakeSpelling {words : List Word} (hwords : words ≠ []) :
    capitalParts (snakeSpelling words) = words.map Word.capital := by
  have hline : ∀ part ∈ words.map Word.small, CodePoint.char '_' ∉ part := by
    rw [List.forall_mem_map]
    intro w _ hmem
    exact absurd (w.isSmall_of_mem_small _ hmem) (by decide)
  have hsplit : splitUnderscores (snakeSpelling words) = words.map Word.small := by
    rw [splitUnderscores_eq]
    exact List.splitOn_intercalate _ hline (by simpa using hwords)
  have hparts : (words.map Word.small).filter (fun part => !part.isEmpty) =
      words.map Word.small := by
    simp [List.filter_eq_self, Word.small]
  rw [capitalParts, hsplit, hparts, List.map_map]
  exact List.map_congr_left fun w _ => w.capitalize_small

/-- A name that starts with a small letter is spelled anew. -/
theorem pascalCase_of_snakeCase {name : Text} {words : List Word} (hwords : words ≠ [])
    (hname : (name.take 1).any isCapital = false) (hsnake : snakeCase name = snakeSpelling words) :
    pascalCase name = pascalSpelling words := by
  rw [pascalCase, hname, Bool.and_false, if_neg Bool.false_ne_true, hsnake,
    capitalParts_snakeSpelling hwords]
  rfl

theorem pascalCase_pascalSpelling (w : Word) (words : List Word) :
    pascalCase (pascalSpelling (w :: words)) = pascalSpelling (w :: words) := by
  have hline : CodePoint.char '_' ∉ pascalSpelling (w :: words) := by
    intro hmem
    obtain ⟨v, -, hv⟩ := List.mem_flatMap.mp hmem
    rcases List.mem_cons.mp hv with hfirst | htail
    · have hupper := isAsciiUpper_toUpper v.isLower_first
      rw [← hfirst] at hupper
      exact absurd hupper (by decide)
    · exact absurd (v.isSmall_of_mem_tail _ htail) (by decide)
  have hfirst : ((pascalSpelling (w :: words)).take 1).any isCapital = true := by
    simp [pascalSpelling_cons, isCapital_toUpper w.isLower_first]
  rw [pascalCase, if_pos]
  simp [hline, hfirst]

theorem pascalCase_snakeSpelling (w : Word) (words : List Word) :
    pascalCase (snakeSpelling (w :: words)) = pascalSpelling (w :: words) := by
  have hfirst : ((snakeSpelling (w :: words)).take 1).any isCapital = false := by
    cases words <;> simp [snakeSpelling, join, Word.small, List.intercalate_cons_cons,
      isCapital_eq_false w.isLower_first]
  exact pascalCase_of_snakeCase (List.cons_ne_nil w words) hfirst (snakeCase_snakeSpelling _)

theorem pascalCase_camelSpelling (w : Word) (words : List Word) :
    pascalCase (camelSpelling (w :: words)) = pascalSpelling (w :: words) := by
  have hfirst : ((camelSpelling (w :: words)).take 1).any isCapital = false := by
    simp [camelSpelling, Word.small, isCapital_eq_false w.isLower_first]
  exact pascalCase_of_snakeCase (List.cons_ne_nil w words) hfirst (snakeCase_camelSpelling w words)

/-- However a name is spelled, its words are found, so that its discriminator in any scope is that
of the snake case and the name shown is that in Pascal case. An ASCII text without capital letters
is in snake case already, and so is what becomes of any ASCII text. -/
theorem spelling_irrelevant :
    (∀ words : List Word, words ≠ [] →
      ∀ name ∈ [snakeSpelling words, camelSpelling words, pascalSpelling words],
        snakeCase name = join "_" (words.map Word.small) ∧
        (∀ scope, Discriminator.ofName name scope =
          Discriminator.ofName (snakeSpelling words) scope) ∧
        pascalCase name = pascalSpelling words) ∧
    (∀ t, IsAscii t → (∀ c ∈ t, isAsciiUpper c = false) → snakeCase t = t) ∧
    ∀ t, IsAscii t → snakeCase (snakeCase t) = snakeCase t := by
  refine ⟨?_, fun t => snakeCase_of_forall, fun t => snakeCase_snakeCase⟩
  intro words hwords name hname
  obtain ⟨w, rest, rfl⟩ := List.exists_cons_of_ne_nil hwords
  have hsnake : snakeCase name = snakeSpelling (w :: rest) ∧
      pascalCase name = pascalSpelling (w :: rest) := by
    simp only [List.mem_cons, List.not_mem_nil, or_false] at hname
    rcases hname with rfl | rfl | rfl
    · exact ⟨snakeCase_snakeSpelling _, pascalCase_snakeSpelling w rest⟩
    · exact ⟨snakeCase_camelSpelling w rest, pascalCase_camelSpelling w rest⟩
    · exact ⟨snakeCase_pascalSpelling w rest, pascalCase_pascalSpelling w rest⟩
  refine ⟨hsnake.1, fun scope => ?_, hsnake.2⟩
  rw [Discriminator.ofName, Discriminator.ofName, hsnake.1, snakeCase_snakeSpelling]

theorem spelling_irrelevant_update_score :
    snakeCase "updateScore2" = "update_score2" ∧ pascalCase "updateScore2" = "UpdateScore2" ∧
      snakeCase (snakeCase "HTTPServer") = snakeCase "HTTPServer" := by
  let update : Word := ⟨'u', 'p', "date".toList, by decide, by decide, by simp⟩
  let score : Word := ⟨'s', 'c', "ore2".toList, by decide, by decide, by simp⟩
  have hname : Text.ofString "updateScore2" ∈ [snakeSpelling [update, score],
      camelSpelling [update, score], pascalSpelling [update, score]] := by decide
  obtain ⟨hnames, -, hagain⟩ := spelling_irrelevant
  obtain ⟨hsnake, -, hpascal⟩ := hnames _ (List.cons_ne_nil update [score]) _ hname
  refine ⟨hsnake.trans (by decide), hpascal.trans (by decide), hagain _ ?_⟩
  unfold IsAscii
  decide

end SolanaTx.Naming
