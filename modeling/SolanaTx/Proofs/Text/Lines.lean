import Mathlib.Data.List.Basic
import SolanaTx.Bytes.Hex
import SolanaTx.Proofs.Bytes.Base58
import SolanaTx.Proofs.Decimal.Grouping

/-!
# Lines of texts

Line feeds part a text into lines. Numerals and words have none, so a text that is put
together from such parts is one line.
-/

namespace SolanaTx

namespace Text

/-- The lines of a text, between its line feeds. -/
def lines (t : Text) : List Text :=
  t.splitOn (CodePoint.char '\n')

/-- Whether a text has no line feed. -/
def OneLine (t : Text) : Prop :=
  CodePoint.char '\n' ∉ t

instance : DecidablePred OneLine := fun t =>
  inferInstanceAs (Decidable (CodePoint.char '\n' ∉ t))

theorem lines_of_oneLine {t : Text} (h : t.OneLine) : lines t = [t] :=
  List.splitOn_eq_singleton h

theorem lines_append_break (s t : Text) :
    lines (s ++ CodePoint.char '\n' :: t) = lines s ++ lines t :=
  List.splitOnP_append_cons s t (beq_self_eq_true _)

/-- Texts that are put under each other have their lines one behind the other. -/
theorem lines_join {ts : List Text} (hts : ts ≠ []) : lines (join "\n" ts) = ts.flatMap lines := by
  induction ts with
  | nil => exact absurd rfl hts
  | cons t rest ih =>
      cases rest with
      | nil => simp [join]
      | cons u rest =>
          have hjoin : join "\n" (t :: u :: rest) =
              t ++ CodePoint.char '\n' :: join "\n" (u :: rest) := by
            rw [join, List.intercalate_cons_cons, List.append_assoc]
            rfl
          rw [hjoin, lines_append_break, ih (List.cons_ne_nil u rest)]
          exact List.flatMap_cons.symm

theorem lines_ne_nil (t : Text) : lines t ≠ [] :=
  List.splitOn_ne_nil _ t

theorem lines_cons {c : CodePoint} (hc : c ≠ CodePoint.char '\n') (t : Text) :
    lines (c :: t) = (lines t).modifyHead (c :: ·) := by
  rw [lines, lines, List.splitOn_cons_eq_if_modifyHead, if_neg (by simpa using hc)]

/-! ## Texts of one line -/

@[simp] theorem oneLine_nil : OneLine [] :=
  List.not_mem_nil

@[simp] theorem oneLine_append_iff {s t : Text} : OneLine (s ++ t) ↔ s.OneLine ∧ t.OneLine := by
  simp [OneLine]

theorem oneLine_append {s t : Text} (hs : s.OneLine) (ht : t.OneLine) : OneLine (s ++ t) :=
  oneLine_append_iff.mpr ⟨hs, ht⟩

theorem oneLine_between {before t after : Text} (hbefore : before.OneLine) (ht : t.OneLine)
    (hafter : after.OneLine) : OneLine (before ++ t ++ after) :=
  oneLine_append (oneLine_append hbefore ht) hafter

theorem oneLine_of_forall {t : Text} {p : CodePoint → Prop} (ht : ∀ c ∈ t, p c)
    (hp : ¬ p (CodePoint.char '\n')) : t.OneLine :=
  fun hmem => hp (ht _ hmem)

theorem oneLine_replicate {c : CodePoint} (hc : c ≠ CodePoint.char '\n') (n : Nat) :
    OneLine (List.replicate n c) :=
  fun hmem => hc (List.eq_of_mem_replicate hmem).symm

theorem oneLine_ofChars_iff {cs : List Char} : OneLine (ofChars cs) ↔ '\n' ∉ cs := by
  simp [OneLine, ofChars]

theorem oneLine_join {separator : Text} {parts : List Text} (hseparator : separator.OneLine)
    (hparts : ∀ part ∈ parts, part.OneLine) : OneLine (join separator parts) := by
  induction parts with
  | nil => exact oneLine_nil
  | cons part rest ih =>
      rw [List.forall_mem_cons] at hparts
      cases rest with
      | nil => simpa [join] using hparts.1
      | cons next rest =>
          rw [join, List.intercalate_cons_cons]
          exact oneLine_between hparts.1 hseparator (ih hparts.2)

theorem oneLine_trimEnd {t : Text} (h : t.OneLine) : (trimEnd t).OneLine := by
  obtain ⟨blanks, ht, -⟩ := exists_trimEnd_append t
  rw [ht] at h
  exact (oneLine_append_iff.mp h).1

theorem oneLine_of_isWord {t : Text} (h : IsWord t) : t.OneLine :=
  oneLine_of_forall h.2 (by decide)

theorem oneLine_of_isNumeral {t : Text} (h : IsNumeral t) : t.OneLine :=
  oneLine_of_forall h.2 (by decide)

end Text

/-! ## Numbers -/

namespace Decimal

open Text

theorem oneLine_ofNat (n : Nat) : (ofNat n).OneLine :=
  oneLine_of_isNumeral (isNumeral_ofNat n)

theorem not_mem_numeral (n : Nat) : '\n' ∉ numeral n :=
  oneLine_ofChars_iff.mp (oneLine_ofNat n)

theorem not_mem_sign (n : Int) : '\n' ∉ sign n := by
  unfold sign
  split <;> decide

theorem oneLine_ofInt (n : Int) : (ofInt n).OneLine := by
  rw [ofInt, oneLine_ofChars_iff, List.mem_append, not_or]
  exact ⟨not_mem_sign n, not_mem_numeral n.natAbs⟩

theorem oneLine_grouped (n : Int) : (grouped n).OneLine := by
  rw [grouped, oneLine_ofChars_iff, List.mem_append, not_or]
  exact ⟨not_mem_sign n, not_mem_groupedNumeral (by decide) (by decide)⟩

theorem not_mem_pointed (n places : Nat) : '\n' ∉ pointed n places := by
  unfold pointed
  split
  · exact not_mem_numeral n
  · simp [padZeros, not_mem_numeral]

end Decimal

theorem Pubkey.oneLine_text (key : Pubkey) : key.text.OneLine :=
  Text.oneLine_of_isWord key.isWord_text

theorem Bytes.oneLine_toHex (data : Bytes) : data.toHex.OneLine := by
  rw [toHex, Text.oneLine_ofChars_iff]
  have hdigit : ∀ n < 16, hexDigit n ≠ '\n' := by decide
  induction data with
  | nil => exact List.not_mem_nil
  | cons b rest ih =>
      have hb := b.toNat_lt
      rw [hexDigits, List.mem_cons, List.mem_cons, not_or, not_or]
      exact ⟨(hdigit _ (by omega)).symm, (hdigit _ (by omega)).symm, ih⟩

end SolanaTx
