import Mathlib.Data.List.Induction
import SolanaTx.Program.Registry
import SolanaTx.Proofs.Program.Decoding

/-!
# Why a payload is not decoded

The outcome of a payload tells which check it did not pass: there is no decoder for its program, it
is too short for a discriminator, no row has its discriminator, or the fields of the row cannot be
read. Decoders of another make answer for themselves, and an error of their own kind is an error
of the payload.
-/

namespace SolanaTx

open Fallible Layout

/-! ## Tables -/

namespace ProgramTable

variable {t : ProgramTable} {data : Bytes} {accounts : Nat} {outcome : Outcome}

end ProgramTable

/-! ## Decoders of another make -/

namespace Registry

/-! ## Registration -/

/-- The decoder of a program is the last one that was registered for it. -/
theorem get?_ofDecoders (ds : List Decoder) (program : Pubkey) :
    (ofDecoders ds).get? program = ds.reverse.find? fun d => program = d.program := by
  induction ds using List.reverseRecOn with
  | nil => rfl
  | append_singleton ds d ih =>
      have hregister : ofDecoders (ds ++ [d]) = (ofDecoders ds).register d := by
        rw [ofDecoders, List.foldl_append]
        rfl
      rw [hregister, register, PubkeyMap.get?_insert, List.reverse_append, List.reverse_singleton,
        List.singleton_append, List.find?_cons, ih]
      by_cases h : program = d.program
      · simp only [h, if_true, decide_true]
      · simp only [h, if_false, decide_false]

theorem mem_of_get?_ofDecoders {ds : List Decoder} {program : Pubkey} {d : Decoder}
    (h : (ofDecoders ds).get? program = some d) : d ∈ ds := by
  rw [get?_ofDecoders] at h
  exact List.mem_reverse.mp (List.mem_of_find?_eq_some h)

/-- A decoder is found for its own program. -/
theorem program_of_get?_ofDecoders {ds : List Decoder} {program : Pubkey} {d : Decoder}
    (h : (ofDecoders ds).get? program = some d) : d.program = program := by
  rw [get?_ofDecoders] at h
  simpa [eq_comm] using List.find?_some h

/-! ## Payloads of any program -/

variable {ds : List Decoder} {program : Pubkey} {data : Bytes} {accounts : Nat} {outcome : Outcome}

end Registry

end SolanaTx
