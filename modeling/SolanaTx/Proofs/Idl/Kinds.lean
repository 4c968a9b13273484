import SolanaTx.CommandLine
import SolanaTx.Proofs.Idl.Orderly

/-!
# Descriptions of the right kinds

What a description says may be wrong in many ways. Where its values are objects, lists, texts
and numbers as they have to be, and the types of arguments are in proper form, each fault says
no more than that the description is unusable.
-/

namespace SolanaTx.Idl

open Fallible

variable {idl metadata entry : Json} {ds : Declarations}

/-- Whether a fault says that a description is unusable. -/
def Unusable (fault : Fault) : Prop :=
  CommandLine.isUnusable fault = true

theorem failsOnly_need {j : Json} (hj : ∃ fields, j = .object fields) (field : Text) :
    FailsOnly Unusable (j.need field) := by
  obtain ⟨fields, rfl⟩ := hj
  rw [Json.need]
  split
  · exact failsOnly_ok _
  · exact failsOnly_error rfl

end SolanaTx.Idl
