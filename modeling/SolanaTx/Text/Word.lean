import SolanaTx.Text.Basic

/-!
# Words at the start of a text
-/

namespace SolanaTx.Text

/-- What follows a word that stands at the start of a text. -/
def after? : Text → Text → Option Text
  | [], cs => some cs
  | _ :: _, [] => none
  | w :: word, c :: cs => if w = c then after? word cs else none

theorem after?_eq_some_iff {word cs rest : Text} :
    after? word cs = some rest ↔ cs = word ++ rest := by
  induction word generalizing cs with
  | nil => simp [after?, eq_comm]
  | cons w word ih =>
    cases cs with
    | nil => simp [after?]
    | cons c cs =>
      by_cases h : w = c
      · simp [after?, h, ih]
      · simp [after?, h, Ne.symm h]

end SolanaTx.Text
