import SolanaTx.Proofs.Invocation.Completion
import SolanaTx.Proofs.Invocation.Conservation
import SolanaTx.Proofs.Tree.Height

/-!
# Nested calls

Calls that are reported one inside the other make a tree as high as they are many. No bound
on their number is set where a forest is built, and decoding keeps its height.
-/

namespace SolanaTx

/-- Calls of the first instruction, each made by the one before; the first by a call at a depth. -/
def nestedCalls (instruction : Instruction) (depth count : Nat) : List InnerInstruction :=
  (List.range' depth count).map fun d => ⟨0, instruction, .level (d + 2 : Nat)⟩

variable (instruction : Instruction)

/-- Each nested call makes the last branch longer by one. -/
theorem reach_placeCalls_nestedCalls (count : Nat) {tree : Tree Invocation} {depth : Nat}
    (htree : tree.reach depth = depth) (nextId : Nat) :
    (Completion.placeCalls tree nextId (nestedCalls instruction depth count)).1.reach
      (depth + count) = depth + count := by
  induction count generalizing tree depth nextId with
  | zero => exact htree
  | succ count ih =>
      -- the caller of the next call is the node at the end of the last branch
      have hdepth : (StackHeight.level (depth + 2 : Nat)).callerDepth (nextId + 1) = depth := by
        simp [StackHeight.callerDepth]
      have hcalls : nestedCalls instruction depth (count + 1) =
          ⟨0, instruction, .level (depth + 2 : Nat)⟩ ::
            nestedCalls instruction (depth + 1) count := by
        rw [nestedCalls, List.range'_succ, List.map_cons]
        rfl
      rw [hcalls, Completion.placeCalls, hdepth, Branch.place, ← Nat.succ_add_eq_add_succ]
      exact ih (Tree.reach_attach htree _) (nextId + 1)

theorem callsOf_nestedCalls (count : Nat) :
    callsOf (nestedCalls instruction 0 count) 0 = nestedCalls instruction 0 count := by
  rw [callsOf, List.filter_eq_self, nestedCalls, List.forall_mem_map]
  intro d _
  rfl

/-- A transaction with nested calls has more levels than calls. -/
theorem lt_heightAll_nestedCalls (count : Nat) : count <
    Tree.heightAll (buildForest [instruction] (nestedCalls instruction 0 count) []).trees := by
  let root : Tree Invocation := .leaf { id := 0, instruction, depth := 0, top := 0 }
  have htrees : (buildForest [instruction] (nestedCalls instruction 0 count) []).trees =
      [(Completion.placeCalls root 1 (nestedCalls instruction 0 count)).1] := by
    rw [← congrArg (Completion.placeCalls root 1) (callsOf_nestedCalls instruction count)]
    rfl
  have hroot : root.reach 0 = 0 := rfl
  have hreach := reach_placeCalls_nestedCalls instruction count hroot 1
  rw [Nat.zero_add] at hreach
  rw [htrees]
  calc count
    _ = (Completion.placeCalls root 1 (nestedCalls instruction 0 count)).1.reach count :=
        hreach.symm
    _ < (Completion.placeCalls root 1 (nestedCalls instruction 0 count)).1.height :=
        Tree.reach_lt_height count _
    _ ≤ _ := Tree.height_le_heightAll (List.mem_singleton_self _)

/-- Such a transaction is decoded whatever the number of its calls. -/
theorem exists_decodeForest_nestedCalls (count : Nat) :
    ∃ f, decodeForest {} [instruction] (nestedCalls instruction 0 count) {} = .ok f ∧
      count < Tree.heightAll f.trees := by
  have hcall : ∀ call ∈ nestedCalls instruction 0 count,
      call.height.isUsable ∧ ¬ call.IsOrphan [instruction].length ∧
        Registry.Answers {} call.instruction := by
    rw [nestedCalls, List.forall_mem_map]
    exact fun d _ => ⟨rfl, by simp [InnerInstruction.IsOrphan],
      Registry.answers_empty instruction⟩
  obtain ⟨f, hf⟩ := exists_decode_without_orphans (fun call h => (hcall call h).1)
    (fun call h => (hcall call h).2.1) (by simp [Registry.answers_empty])
    (fun call h => (hcall call h).2.2) []
  refine ⟨f, decodeForest_eq_ok_iff.mpr ⟨rfl, hf⟩, ?_⟩
  rw [← Tree.heightAll_mapAll Node.invocation, Forest.mapAll_invocation_of_decode hf]
  exact lt_heightAll_nestedCalls instruction count

end SolanaTx
