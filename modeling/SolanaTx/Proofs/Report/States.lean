import SolanaTx.Proofs.Account.ChangeText
import SolanaTx.Proofs.Decimal.Written
import SolanaTx.Report.Render

/-!
# States of accounts

The row of an account ends in its state: the owner, the data length, the lamports and the change.
There is one where all these numbers can be written, and four dashes only where nothing is known of
the account.
-/

namespace SolanaTx

open Fallible

namespace AccountDelta

/-- Whether the numbers that are shown of an account can be written. -/
structure IsWritable (d : AccountDelta) : Prop where
  dataLength : ∀ length, d.current.dataLength = some length → Decimal.isWritable length
  lamports : Decimal.isWritable d.lamports
  change : Decimal.isWritable d.change

theorem failsOnly_changeText (d : AccountDelta) : FailsOnly (· = .badValue) d.changeText := by
  unfold changeText
  split
  · exact failsOnly_ok _
  · exact failsOnly_error rfl

theorem changeText_ne_dash {d : AccountDelta} {text : Text} (h : d.changeText = .ok text) :
    text ≠ "-" := by
  rintro rfl
  -- a sign alone is not read as a number
  have hnone : readChange? "-" = none := by decide
  have hread := readChange?_changeText h
  rw [hnone] at hread
  cases hread

end AccountDelta

namespace Report

variable {style : Style} {d : AccountDelta} {cells : List Text}

theorem exists_lengthText_iff {length? : Option Int} :
    (∃ text, lengthText length? = .ok text) ↔
      ∀ length, length? = some length → Decimal.isWritable length := by
  cases length? with
  | none => simp [lengthText]
  | some length => simpa [lengthText] using Decimal.exists_written_iff

theorem failsOnly_lengthText (length? : Option Int) :
    FailsOnly (· = .badValue) (lengthText length?) := by
  cases length? with
  | none => exact failsOnly_ok _
  | some length => exact Decimal.failsOnly_written _ length

theorem stateCells_eq_ok_iff : stateCells style (some d) = .ok cells ↔
    Decimal.isWritable d.lamports = true ∧ ∃ length change,
      lengthText d.current.dataLength = .ok length ∧ d.changeText = .ok change ∧
        cells = [ownerName style d.current.owner, length, Decimal.grouped d.lamports, change] := by
  simp only [stateCells, bind_eq_ok, pure_eq_ok, Decimal.written_eq_ok_iff]
  constructor
  · rintro ⟨length, hlength, _, ⟨hlamports, rfl⟩, change, hchange, rfl⟩
    exact ⟨hlamports, length, change, hlength, hchange, rfl⟩
  · rintro ⟨hlamports, length, change, hlength, hchange, rfl⟩
    exact ⟨length, hlength, _, ⟨hlamports, rfl⟩, change, hchange, rfl⟩

theorem exists_stateCells_iff :
    (∃ cells, stateCells style (some d) = .ok cells) ↔ d.IsWritable := by
  simp only [stateCells_eq_ok_iff]
  constructor
  · rintro ⟨_, hlamports, length, change, hlength, hchange, -⟩
    exact ⟨exists_lengthText_iff.mp ⟨length, hlength⟩, hlamports,
      AccountDelta.exists_changeText_iff.mp ⟨change, hchange⟩⟩
  · intro h
    obtain ⟨length, hlength⟩ := exists_lengthText_iff.mpr h.dataLength
    obtain ⟨change, hchange⟩ := AccountDelta.exists_changeText_iff.mpr h.change
    exact ⟨_, h.lamports, length, change, hlength, hchange, rfl⟩

theorem stateCells_of_not_isWritable (style : Style) (h : ¬d.IsWritable) :
    stateCells style (some d) = .error .badValue := by
  have hfails : FailsOnly (· = .badValue) (stateCells style (some d)) :=
    (failsOnly_lengthText _).bind fun _ _ => (Decimal.failsOnly_written _ _).bind fun _ _ =>
      d.failsOnly_changeText.bind fun _ _ => failsOnly_pure _
  cases hcells : stateCells style (some d) with
  | error fault => rw [hfails fault hcells]
  | ok cells => exact absurd (exists_stateCells_iff.mp ⟨cells, hcells⟩) h

/-- What stands in place of the state of an account of which none is known. -/
def noState : List Text :=
  ["-", "-", "-", "-"]

theorem stateCells_eq_noState_iff {d? : Option AccountDelta} (h : stateCells style d? = .ok cells) :
    cells = noState ↔ d? = none := by
  cases d? with
  | none =>
      obtain rfl := Except.ok.inj h
      exact iff_of_true rfl rfl
  | some d =>
      obtain ⟨-, length, change, -, hchange, rfl⟩ := stateCells_eq_ok_iff.mp h
      refine iff_of_false ?_ (Option.some_ne_none d)
      simp [noState, AccountDelta.changeText_ne_dash hchange]

theorem length_stateCells {d? : Option AccountDelta} (h : stateCells style d? = .ok cells) :
    cells.length = 4 := by
  cases d? with
  | none =>
      obtain rfl := Except.ok.inj h
      rfl
  | some d =>
      obtain ⟨-, length, change, -, -, rfl⟩ := stateCells_eq_ok_iff.mp h
      rfl

end Report

end SolanaTx
