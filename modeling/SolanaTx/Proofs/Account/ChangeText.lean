import Mathlib.Algebra.Ring.Int.Defs
import SolanaTx.Account.Delta
import SolanaTx.Proofs.Decimal.Grouping
import SolanaTx.Pubkey.Known

/-!
# Changes as they are shown

A change is shown with its sign, in groups of three digits, with a tag for an account that is new
or closed. Both the change and the kind of the delta can be told from the text.
-/

namespace SolanaTx

/-! ## Amounts -/

namespace Decimal

/-- Whether characters show a change: a zero alone, or else a sign and the numeral of the amount in
groups of three digits. -/
def ShowsChange (n : Int) (cs : List Char) : Prop :=
  (n = 0 ∧ cs = ['0']) ∨
    (n ≠ 0 ∧ ∃ digits grouped, cs = (if n < 0 then '-' else '+') :: grouped ∧
      InGroups grouped digits ∧ IsNumeral digits ∧ worth digits = n.natAbs)

/-- The characters that show a change. -/
def changeDigits (n : Int) : List Char :=
  if n = 0 then ['0'] else (if n < 0 then '-' else '+') :: groupedNumeral n.natAbs

theorem showsChange_changeDigits (n : Int) : ShowsChange n (changeDigits n) := by
  unfold changeDigits
  split
  · next h => exact .inl ⟨h, rfl⟩
  · next h =>
    exact .inr ⟨h, _, _, rfl, inGroups_groupedNumeral _, isNumeral_numeral _, worth_numeral _⟩

theorem not_mem_changeDigits {n : Int} {c : Char} (hc : c.isDigit = false)
    (hmarks : c ∉ ['-', '+', ',']) : c ∉ changeDigits n := by
  simp only [List.mem_cons, List.not_mem_nil, or_false, not_or] at hmarks
  obtain ⟨hminus, hplus, hcomma⟩ := hmarks
  have hdigits := @not_mem_groupedNumeral n.natAbs c hc hcomma
  have hzero : c ≠ '0' := by
    rintro rfl
    simp at hc
  unfold changeDigits
  split_ifs <;> simp [hzero, hminus, hplus, hdigits]

theorem filter_changeDigits (n : Int) : (changeDigits n).filter (· ≠ ',') =
    if n = 0 then ['0'] else (if n < 0 then '-' else '+') :: numeral n.natAbs := by
  have hdigits := (inGroups_groupedNumeral n.natAbs).filter_eq
    (not_mem_of_areDigits (areDigits_numeral _) (by decide))
  unfold changeDigits
  split_ifs <;> simp_all

end Decimal

namespace AccountDelta

open Decimal

/-! ## Texts -/

variable (d : AccountDelta)

theorem tag_eq_tag_iff {d d' : AccountDelta} : d'.tag = d.tag ↔ d'.kindText = d.kindText := by
  obtain ⟨key, _ | _ | _⟩ := d <;> obtain ⟨key', _ | _ | _⟩ := d' <;> simp +decide [tag, kindText]

theorem changeText_eq_ok_iff {d : AccountDelta} {t : Text} : d.changeText = .ok t ↔
    isWritable d.change ∧ t = .ofChars (changeDigits d.change) ++ d.tag := by
  have hamount : (if d.change = 0 then ("0" : Text) else signedGrouped d.change) =
      .ofChars (changeDigits d.change) := by
    unfold changeDigits signedGrouped
    split <;> rfl
  unfold changeText
  rw [hamount]
  split
  · next h => rw [Except.ok.injEq, and_iff_right h, eq_comm]
  · next h => exact iff_of_false (by simp) fun hwritten => h hwritten.1

theorem exists_changeText_iff {d : AccountDelta} :
    (∃ t, d.changeText = .ok t) ↔ isWritable d.change := by
  simp [changeText_eq_ok_iff]

/-- Whether a text shows the change of a delta, and behind it the tag of its kind. -/
def IsShownBy (t : Text) : Prop :=
  ∃ amount tag, t = .ofChars amount ++ tag ∧ ShowsChange d.change amount ∧
    (tag = " (new)" ↔ d.kindText = "created") ∧ (tag = " (closed)" ↔ d.kindText = "closed") ∧
    (tag = "" ↔ d.kindText = "changed")

/-- The change that a text shows: what stands in front of the tag, without the commas. -/
def readChange? (t : Text) : Option Int :=
  Text.toInt? ((t.takeWhile (· ≠ .char ' ')).filter (· ≠ .char ','))

/-- The tag of a text that shows a change, from its blank on. -/
def readTag (t : Text) : Text :=
  t.dropWhile (· ≠ .char ' ')

theorem isShownBy_written : d.IsShownBy (.ofChars (changeDigits d.change) ++ d.tag) := by
  refine ⟨_, _, rfl, showsChange_changeDigits _, ?_, ?_, ?_⟩ <;>
    obtain ⟨key, _ | _ | _⟩ := d <;> simp +decide [tag, kindText]

theorem not_blank_changeDigits :
    ∀ c ∈ Text.ofChars (changeDigits d.change), decide (c ≠ .char ' ') = true := by
  intro c hc
  obtain ⟨digit, hdigit, rfl⟩ := List.mem_map.mp hc
  simpa using ne_of_mem_of_not_mem hdigit (not_mem_changeDigits (by decide) (by decide))

theorem takeWhile_written : (Text.ofChars (changeDigits d.change) ++ d.tag).takeWhile
    (· ≠ .char ' ') = Text.ofChars (changeDigits d.change) := by
  have htag : d.tag.takeWhile (· ≠ .char ' ') = [] := by
    obtain ⟨key, _ | _ | _⟩ := d <;> rfl
  rw [List.takeWhile_append_of_pos d.not_blank_changeDigits, htag, List.append_nil]

theorem readTag_written : readTag (.ofChars (changeDigits d.change) ++ d.tag) = d.tag := by
  have htag : d.tag.dropWhile (· ≠ .char ' ') = d.tag := by
    obtain ⟨key, _ | _ | _⟩ := d <;> rfl
  rw [readTag, List.dropWhile_append_of_pos d.not_blank_changeDigits, htag]

theorem readChange?_written {d : AccountDelta} (h : isWritable d.change) :
    readChange? (.ofChars (changeDigits d.change) ++ d.tag) = some d.change := by
  have hfilter : (Text.ofChars (changeDigits d.change)).filter (· ≠ .char ',') =
      Text.ofChars ((changeDigits d.change).filter (· ≠ ',')) := by
    simp [Text.ofChars, List.filter_map, Function.comp_def]
  rw [readChange?, takeWhile_written, hfilter, filter_changeDigits]
  split
  · next hzero =>
    rw [hzero]
    decide
  · exact Text.toInt?_signed h

theorem readChange?_changeText {d : AccountDelta} {t : Text} (h : d.changeText = .ok t) :
    readChange? t = some d.change := by
  obtain ⟨hwritable, rfl⟩ := changeText_eq_ok_iff.mp h
  exact readChange?_written hwritable

/-- A change that can be written is shown with its sign, grouped, and with the tag of the kind of
its delta. It is read back from the text, and no delta of another change or kind has that text. A
change with too many digits has none. -/
theorem changeText_faithful (d : AccountDelta) :
    (isWritable d.change = true → ∃ t, d.changeText = .ok t ∧ d.IsShownBy t ∧
      readChange? t = some d.change ∧
      ∀ d' : AccountDelta, d'.changeText = .ok t ↔
        d'.change = d.change ∧ d'.kindText = d.kindText) ∧
    (isWritable d.change = false → d.changeText = .error .badValue) := by
  constructor
  · intro h
    refine ⟨_, changeText_eq_ok_iff.mpr ⟨h, rfl⟩, d.isShownBy_written, readChange?_written h,
      fun d' => ?_⟩
    rw [changeText_eq_ok_iff]
    constructor
    · rintro ⟨h', htext⟩
      have hchange := congrArg readChange? htext
      have htag := congrArg readTag htext
      rw [readChange?_written h, readChange?_written h', Option.some.injEq] at hchange
      rw [readTag_written, readTag_written, tag_eq_tag_iff] at htag
      exact ⟨hchange.symm, htag.symm⟩
    · rintro ⟨hchange, hkind⟩
      rw [hchange, tag_eq_tag_iff.mpr hkind]
      exact ⟨h, rfl⟩
  · intro h
    rw [changeText, if_neg (by simp [h])]

theorem changeText_faithful_created :
    let d : AccountDelta := ⟨.memoProgram, .created ⟨.memoProgram, none, 1234567, none⟩⟩
    isWritable d.change = true ∧ d.changeText = .ok "+1,234,567 (new)" ∧
      readChange? "+1,234,567 (new)" = some 1234567 ∧
      ∀ d' : AccountDelta, d'.changeText = .ok "+1,234,567 (new)" →
        d'.change = 1234567 ∧ d'.kindText = "created" := by
  intro d
  have hwritable : isWritable d.change = true := by decide +kernel
  obtain ⟨t, ht, -, hread, hunique⟩ := d.changeText_faithful.1 hwritable
  obtain rfl : t = "+1,234,567 (new)" :=
    (changeText_eq_ok_iff.mp ht).2.trans (by decide +kernel)
  exact ⟨hwritable, ht, hread, fun d' => (hunique d').mp⟩

/-- The change between two numbers that can be written may itself have a digit too many. -/
theorem changeText_overlong :
    let most : Int := 10 ^ 4300 - 1
    let d : AccountDelta := ⟨.memoProgram,
      .changed ⟨.memoProgram, none, -most, none⟩ ⟨.memoProgram, none, most, none⟩⟩
    isWritable (-most) = true ∧ isWritable most = true ∧ d.changeText = .error .badValue := by
  intro most d
  have hunwritable : isWritable d.change = false := by decide +kernel
  refine ⟨by decide +kernel, by decide +kernel, ?_⟩
  rw [changeText, if_neg (by simp [hunwritable])]

end AccountDelta

end SolanaTx
