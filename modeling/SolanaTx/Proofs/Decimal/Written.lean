import SolanaTx.Decimal.Written
import SolanaTx.Proofs.Fallible

/-!
# Numbers that can be written

A number has a text where it can be written, and nothing else can go wrong.
-/

namespace SolanaTx.Decimal

open Fallible

theorem written_eq_ok_iff {text : Int → Text} {n : Int} {t : Text} :
    written text n = .ok t ↔ isWritable n = true ∧ t = text n := by
  unfold written
  split
  · next h => rw [Except.ok.injEq, and_iff_right h, eq_comm]
  · next h => exact iff_of_false (fun hok => by cases hok) fun hok => h hok.1

theorem exists_written_iff {text : Int → Text} {n : Int} :
    (∃ t, written text n = .ok t) ↔ isWritable n = true := by
  simp only [written_eq_ok_iff, exists_and_left, exists_eq, and_true]

theorem failsOnly_written (text : Int → Text) (n : Int) :
    FailsOnly (· = .badValue) (written text n) := by
  unfold written
  split
  · exact failsOnly_ok _
  · exact failsOnly_error rfl

theorem failsOnly_fixedPoint (n places : Int) :
    FailsOnly (· = .badValue) (fixedPoint n places) := by
  unfold fixedPoint
  split
  · exact failsOnly_written _ _
  · dsimp only
    split
    · exact failsOnly_ok _
    · exact failsOnly_error rfl

end SolanaTx.Decimal
