import SolanaTx.Program.Builtin
import SolanaTx.Proofs.Program.Classification
import SolanaTx.Transaction.ComputeLimit

/-!
# The compute limit and the decoder

An instruction sets the compute limit exactly where the decoders of the native programs take it for
one that does, and it sets as many units as they show. So the limit of a transaction can be told
from its decoded instructions.
-/

namespace SolanaTx

open Fallible Layout

/-! ## A number of four bytes -/

section

variable {name : Json} {data : Bytes}

theorem readSchema_u32 (a b c d : UInt8) (rest : Bytes) :
    readSchema (a :: b :: c :: d :: rest) [⟨name, .u32, none⟩] 0 =
      .ok ([.int (Bytes.toNat [a, b, c, d])], 4) := by
  have hdata : a :: b :: c :: d :: rest = [] ++ [a, b, c, d] ++ rest := rfl
  have htake : take (a :: b :: c :: d :: rest) 0 IntWidth.w32.bytes = .ok [a, b, c, d] :=
    take_eq hdata rfl
  simp only [readSchema, u32, Layout.read, htake]
  rfl

theorem decodeFields_u32 (a b c d : UInt8) (rest : Bytes) :
    decodeFields (a :: b :: c :: d :: rest) [⟨name, .u32, none⟩] =
      .ok ([⟨name, "u32", Decimal.ofNat (Bytes.toNat [a, b, c, d])⟩], 4) := by
  let units : Int := Bytes.toNat [a, b, c, d]
  have hwritten : displayInt units none = .ok (Decimal.ofNat (Bytes.toNat [a, b, c, d])) :=
    Decimal.written_eq_ok_iff.mpr
      ⟨isWritable_of_length_le (show [a, b, c, d].length ≤ 16 by simp) false, rfl⟩
  have hdisplay : u32.display (.int units) none =
      .ok (.text (Decimal.ofNat (Bytes.toNat [a, b, c, d]))) := by
    change (displayInt units none).map Json.text = _
    rw [hwritten]
    rfl
  have hvalue : DecodedField.ofValue ⟨name, .u32, none⟩ (.int units) =
      .ok ⟨name, "u32", Decimal.ofNat (Bytes.toNat [a, b, c, d])⟩ := by
    rw [DecodedField.ofValue, hdisplay]
    rfl
  rw [decodeFields, readSchema_u32, ok_bind]
  dsimp only
  rw [List.zip_cons_cons, List.zip_nil_left, List.mapM_cons, hvalue]
  rfl

/-- Fewer bytes make no such number. -/
theorem exists_of_decodeFields_u32 {shown : List DecodedField × Int}
    (h : decodeFields data [⟨name, .u32, none⟩] = .ok shown) :
    ∃ a b c d rest, data = a :: b :: c :: d :: rest := by
  rcases data with _ | ⟨a, _ | ⟨b, _ | ⟨c, _ | ⟨d, rest⟩⟩⟩⟩
  case cons.cons.cons.cons => exact ⟨a, b, c, d, rest, rfl⟩
  all_goals cases h

end

namespace ComputeLimit

/-- Whether the decoders of the native programs decode an instruction as one that sets the limit. -/
structure Sets (i : Instruction) (decoded : DecodedInstruction) : Prop where
  decode_eq :
    (Registry.withBuiltins []).decode i.program i.data i.accounts.length = .ok (.ok decoded)
  program_eq : decoded.program = "Compute Budget"
  name_eq : decoded.name = "SetComputeUnitLimit"

variable {i : Instruction} {decoded : DecodedInstruction} {units : Nat}

/-! ## The row of the decoder -/

/-- The row of the instruction that sets the limit. -/
def limitRow : InstructionRow :=
  numberedRow 1 2 "SetComputeUnitLimit" [⟨"units", .u32, none⟩] []

/-- How an instruction with that row is shown. -/
def shown (units accounts : Nat) : DecodedInstruction :=
  ⟨"Compute Budget", "SetComputeUnitLimit", [⟨"units", "u32", Decimal.ofNat units⟩],
    accountNames [] accounts⟩

theorem fieldValue?_shown (units accounts : Nat) :
    (shown units accounts).fieldValue? "units" = some (Decimal.ofNat units) := by
  rfl

theorem eq_limitRow_of_name_eq {row : InstructionRow} (hrow : row ∈ computeBudgetTable.rows)
    (hname : row.name = "SetComputeUnitLimit") : row = limitRow := by
  change row ∈ computeBudgetRows at hrow
  simp only [computeBudgetRows, List.mem_cons, List.not_mem_nil, or_false] at hrow
  rcases hrow with rfl | rfl | rfl | rfl | rfl
  · exact absurd hname (by decide)
  · exact absurd hname (by decide)
  · rfl
  · exact absurd hname (by decide)
  · exact absurd hname (by decide)

theorem eq_computeBudgetTable_of_label_eq {d : Decoder} (hd : d ∈ builtinDecoders)
    (hlabel : d.label = "Compute Budget") : d = .table computeBudgetTable := by
  simp only [builtinDecoders, List.mem_cons, List.not_mem_nil, or_false] at hd
  rcases hd with rfl | rfl | rfl | rfl
  · exact absurd hlabel (by decide)
  · rfl
  · exact absurd hlabel (by decide)
  · exact absurd hlabel (by decide)

/-! ## One instruction -/

theorem setBy?_eq_some_iff :
    setBy? i = some units ↔ i.program = .computeBudget ∧
      ∃ a b c d rest, i.data = 2 :: a :: b :: c :: d :: rest ∧
        Bytes.toNat [a, b, c, d] = units := by
  constructor
  · intro h
    unfold setBy? at h
    split at h
    · next hprogram =>
      split at h
      · next a b c d rest hdata => exact ⟨hprogram, a, b, c, d, rest, hdata, Option.some.inj h⟩
      · cases h
    · cases h
  · rintro ⟨hprogram, a, b, c, d, rest, hdata, rfl⟩
    rw [setBy?, if_pos hprogram, hdata]
    rfl

/-- The decoder shows the units of an instruction that sets the limit. -/
theorem decode_of_setBy?_eq_some (h : setBy? i = some units) :
    (Registry.withBuiltins []).decode i.program i.data i.accounts.length =
      .ok (.ok (shown units i.accounts.length)) := by
  obtain ⟨hprogram, a, b, c, d, rest, hdata, rfl⟩ := setBy?_eq_some_iff.mp h
  have hget : (Registry.withBuiltins []).get? .computeBudget = some (.table computeBudgetTable) :=
    rfl
  have hrow : computeBudgetTable.find? (i.data.take computeBudgetTable.size) = some limitRow := by
    rw [hdata]
    rfl
  have hdrop : i.data.drop computeBudgetTable.size = a :: b :: c :: d :: rest := by
    rw [hdata]
    rfl
  have hread : readSchema (a :: b :: c :: d :: rest) limitRow.fields 0 =
      .ok ([.int (Bytes.toNat [a, b, c, d])], 4) := readSchema_u32 a b c d rest
  rw [Registry.decode, hprogram, hget]
  refine ProgramTable.decodeWithin_eq_ok_iff.mpr ⟨?_, ?_⟩
  · have hsize : computeBudgetTable.size ≤ i.data.length := by simp [hdata, computeBudgetTable]
    apply ProgramTable.decode_of_decodeFields hsize hrow
    rw [hdrop]
    exact decodeFields_u32 a b c d rest
  · rw [ProgramTable.displayDepth_of_find? hrow, hdrop, schemaDepth, hread]
    exact (by decide : 1 ≤ maxDisplayDepth)

/-- What the decoder takes for an instruction that sets the limit is one. -/
theorem Sets.exists_setBy? (h : Sets i decoded) : ∃ units, setBy? i = some units := by
  have hdecode := h.decode_eq
  unfold Registry.decode at hdecode
  split at hdecode
  · cases hdecode
  · next d hget =>
    have hmem : d ∈ builtinDecoders := Registry.mem_of_get?_ofDecoders hget
    cases d with
    | foreign d => simp [builtinDecoders] at hmem
    | table t =>
        cases ProgramTable.answers_of_decode (ProgramTable.decodeWithin_eq_ok_iff.mp hdecode).1 with
        | @decoded row fields consumed hsize hrow hfields =>
            obtain rfl : t = computeBudgetTable :=
              Decoder.table.inj (eq_computeBudgetTable_of_label_eq hmem h.program_eq)
            obtain ⟨hrowMem, hdiscriminator, -⟩ := ProgramTable.length_of_find? hrow
            obtain rfl := eq_limitRow_of_name_eq hrowMem h.name_eq
            obtain ⟨a, b, c, d, rest, hdata⟩ := exists_of_decodeFields_u32 hfields
            refine ⟨_, setBy?_eq_some_iff.mpr ⟨?_, a, b, c, d, rest, ?_, rfl⟩⟩
            · exact (Registry.program_of_get?_ofDecoders hget).symm
            · rw [← List.take_append_drop computeBudgetTable.size i.data, hdata, ← hdiscriminator]
              rfl

/-- The two readers of an instruction that sets the limit accept the same ones, and read the same
number off them. -/
theorem sets_iff :
    Sets i decoded ↔ ∃ units, setBy? i = some units ∧ decoded = shown units i.accounts.length := by
  constructor
  · intro h
    obtain ⟨units, hunits⟩ := h.exists_setBy?
    have hdecode := h.decode_eq
    rw [decode_of_setBy?_eq_some hunits] at hdecode
    exact ⟨units, hunits, (Except.ok.inj (Except.ok.inj hdecode)).symm⟩
  · rintro ⟨units, hunits, rfl⟩
    exact ⟨decode_of_setBy?_eq_some hunits, rfl, rfl⟩

theorem setBy?_eq_none_iff : setBy? i = none ↔ ∀ decoded, ¬ Sets i decoded := by
  rw [Option.eq_none_iff_forall_ne_some]
  constructor
  · intro hnone decoded hsets
    obtain ⟨units, hunits⟩ := hsets.exists_setBy?
    exact hnone units hunits
  · intro hnone units hunits
    exact hnone _ (sets_iff.mpr ⟨units, hunits, rfl⟩)

/-! ## Whole transactions -/

/-- Where the decoder takes some instruction for one that sets the limit, the first of these counts,
with the units that are shown of it. Else there is a share for each instruction that is not about
the budget. The limit is never above the greatest. -/
theorem ofInstructions_agrees (is : List Instruction) :
    ((∃ i ∈ is, ∃ decoded, Sets i decoded) →
      ∃ before i after decoded units, is = before ++ i :: after ∧
        (∀ earlier ∈ before, ∀ decoded, ¬ Sets earlier decoded) ∧ Sets i decoded ∧
        decoded.fieldValue? "units" = some (Decimal.ofNat units) ∧
        ofInstructions is = min units 1400000) ∧
    ((∀ i ∈ is, ∀ decoded, ¬ Sets i decoded) →
      ofInstructions is = min (200000 * is.countP fun i => i.program ≠ .computeBudget) 1400000) ∧
    ofInstructions is ≤ 1400000 := by
  refine ⟨?_, ?_, ?_⟩
  · rintro ⟨i, hi, decoded, hsets⟩
    have hfound : is.findSome? setBy? ≠ none := by
      rw [ne_eq, List.findSome?_eq_none_iff]
      intro hnone
      exact setBy?_eq_none_iff.mp (hnone i hi) decoded hsets
    obtain ⟨units, hunits⟩ := Option.ne_none_iff_exists'.mp hfound
    obtain ⟨before, first, after, his, hfirst, hbefore⟩ := List.findSome?_eq_some_iff.mp hunits
    refine ⟨before, first, after, shown units first.accounts.length, units, his, ?_, ?_, ?_, ?_⟩
    · exact fun earlier hmem => setBy?_eq_none_iff.mp (hbefore earlier hmem)
    · exact sets_iff.mpr ⟨units, hfirst, rfl⟩
    · exact fieldValue?_shown units _
    · rw [ofInstructions, hunits]
      rfl
  · intro hnone
    have hfound : is.findSome? setBy? = none := by
      rw [List.findSome?_eq_none_iff]
      exact fun i hi => setBy?_eq_none_iff.mpr (hnone i hi)
    simp only [ofInstructions, hfound, List.countP_eq_length_filter, Nat.mul_comm 200000]
    rfl
  · unfold ofInstructions
    split <;> exact Nat.min_le_right _ _

/-- A limit that is cut off is passed over, and bytes behind a limit are left alone. -/
example : ofInstructions [⟨.computeBudget, [2, 1, 0, 0], []⟩, ⟨.systemProgram, [], []⟩,
    ⟨.computeBudget, [2, 0x2C, 1, 0, 0, 9], []⟩, ⟨.computeBudget, [2, 0, 0, 0, 0], []⟩] = 300 := by
  decide

end ComputeLimit

end SolanaTx
