import Mathlib.Data.List.Forall2
import SolanaTx.Invocation.Forest
import SolanaTx.Proofs.Tree.LastBranch

/-!
# Completing the forest

When the log is over, every instruction gets its tree: the branch that the log has
started, or a new root, with the calls that are left placed by height. The trees and
the warnings of a forest are those of its instructions, one after the other.
-/

namespace SolanaTx.Completion

/-- The tree of one instruction, and the next number behind it. -/
def treeOf (w : Walk) (inner : List InnerInstruction) (nextId : Nat) (instruction : Instruction)
    (top : Nat) : Tree Invocation × Nat :=
  match w.branches.find? (·.top = top) with
  | some branch => placeCalls branch.tree nextId branch.pending
  | none => placeCalls (.leaf { id := nextId, instruction, depth := 0, top }) (nextId + 1)
      (callsOf inner top)

/-- What is odd about one instruction when the log is over. -/
def notesOn (w : Walk) (top : Nat) : List Warning :=
  match w.branches.find? (·.top = top) with
  | some branch =>
      if w.sawInvoke && !branch.pending.isEmpty then
        [⟨.callsNotLogged branch.pending.length top, none⟩]
      else []
  | none => if w.sawInvoke then [⟨.notLogged top, none⟩] else []

theorem addTop_eq (w : Walk) (inner : List InnerInstruction) (c : Completion)
    (instruction : Instruction) (top : Nat) :
    c.addTop w inner instruction top =
      ⟨c.trees ++ [(treeOf w inner c.nextId instruction top).1],
        (treeOf w inner c.nextId instruction top).2, c.warnings ++ notesOn w top⟩ := by
  unfold addTop treeOf notesOn
  cases w.branches.find? (·.top = top) <;> rfl

theorem foldl_addTop (w : Walk) (inner : List InnerInstruction) (items : List (Instruction × Nat))
    (c : Completion) :
    (∃ trees, (items.foldl (fun c item => c.addTop w inner item.1 item.2) c).trees =
        c.trees ++ trees ∧
      List.Forall₂ (fun item tree => ∃ nextId, tree = (treeOf w inner nextId item.1 item.2).1)
        items trees) ∧
      (items.foldl (fun c item => c.addTop w inner item.1 item.2) c).warnings =
        c.warnings ++ items.flatMap fun item => notesOn w item.2 := by
  induction items generalizing c with
  | nil => exact ⟨⟨[], (List.append_nil _).symm, .nil⟩, (List.append_nil _).symm⟩
  | cons item rest ih =>
      obtain ⟨⟨trees, htrees, hbuilt⟩, hwarnings⟩ := ih (c.addTop w inner item.1 item.2)
      rw [List.foldl_cons, htrees, hwarnings, addTop_eq]
      refine ⟨⟨_ :: trees, by simp, .cons ⟨c.nextId, rfl⟩ hbuilt⟩, by simp⟩

/-- Placing calls by height keeps the root. -/
theorem value_placeCalls (calls : List InnerInstruction) (tree : Tree Invocation) (nextId : Nat) :
    (placeCalls tree nextId calls).1.value = tree.value := by
  induction calls generalizing tree nextId with
  | nil => rfl
  | cons call rest ih => rw [placeCalls, ih, Branch.place, Tree.value_attach]

/-- What was placed before is kept, in front of the calls placed by height. -/
theorem preorder_prefix_placeCalls (calls : List InnerInstruction) (tree : Tree Invocation)
    (nextId : Nat) : tree.preorder <+: (placeCalls tree nextId calls).1.preorder := by
  induction calls generalizing tree nextId with
  | nil => exact List.prefix_rfl
  | cons call rest ih =>
      refine List.IsPrefix.trans ?_ (ih _ _)
      rw [Branch.place, Tree.preorder_attach]
      exact List.prefix_append _ _

/-- A call placed by height carries the height. -/
theorem placedBy_placeCalls {calls : List InnerInstruction} {tree : Tree Invocation} {nextId : Nat}
    {v : Invocation} (hv : v ∈ (placeCalls tree nextId calls).1.preorder) :
    v ∈ tree.preorder ∨ ∃ call ∈ calls, v.placedBy = some call.height := by
  induction calls generalizing tree nextId with
  | nil => exact Or.inl hv
  | cons call rest ih =>
      rcases ih hv with hv | ⟨other, hother, hheight⟩
      · rw [Branch.place, Tree.preorder_attach] at hv
        rcases List.mem_append.mp hv with hv | hv
        · exact Or.inl hv
        · obtain rfl := List.mem_singleton.mp hv
          exact Or.inr ⟨call, List.mem_cons_self, rfl⟩
      · exact Or.inr ⟨other, List.mem_cons_of_mem call hother, hheight⟩

end SolanaTx.Completion

namespace SolanaTx

variable (instructions : List Instruction) (inner : List InnerInstruction)
  (markers : List (Option Marker))

/-- The trees of a forest are those of its instructions, one after the other. -/
theorem forall₂_trees_buildForest :
    List.Forall₂ (fun item tree => instructions[item.2]? = some item.1 ∧ ∃ nextId, tree =
        (Completion.treeOf (walkLog instructions inner markers) inner nextId item.1 item.2).1)
      instructions.zipIdx (buildForest instructions inner markers).trees := by
  obtain ⟨⟨trees, htrees, hbuilt⟩, -⟩ := Completion.foldl_addTop
    (walkLog instructions inner markers) inner instructions.zipIdx
    { nextId := (walkLog instructions inner markers).nextId,
      warnings := (walkLog instructions inner markers).warnings }
  obtain rfl : (buildForest instructions inner markers).trees = trees := htrees
  exact (List.forall₂_and_left _ _).mpr
    ⟨fun _ hitem => List.mem_zipIdx_iff_getElem?.mp hitem, hbuilt⟩

/-- A forest has one tree for each instruction. -/
theorem length_trees_buildForest :
    (buildForest instructions inner markers).trees.length = instructions.length := by
  have hlength := (forall₂_trees_buildForest instructions inner markers).length_eq
  rw [List.length_zipIdx] at hlength
  exact hlength.symm

theorem exists_treeOf_of_getElem? {i : Nat} {tree : Tree Invocation}
    (htree : (buildForest instructions inner markers).trees[i]? = some tree) :
    ∃ instruction nextId, instructions[i]? = some instruction ∧ tree =
      (Completion.treeOf (walkLog instructions inner markers) inner nextId instruction i).1 := by
  obtain ⟨hi, rfl⟩ := List.getElem?_eq_some_iff.mp htree
  have hlength := length_trees_buildForest instructions inner markers
  have hitem : i < instructions.zipIdx.length := by
    rw [List.length_zipIdx, ← hlength]
    exact hi
  obtain ⟨hinstruction, nextId, htree⟩ :=
    (forall₂_trees_buildForest instructions inner markers).get hitem hi
  simp only [List.get_eq_getElem, List.getElem_zipIdx, Nat.zero_add] at hinstruction htree
  exact ⟨_, nextId, hinstruction, htree⟩

/-- The warnings of a forest: those of the log, those on the instructions, and those on calls of
instructions that there are not. -/
theorem warnings_buildForest :
    (buildForest instructions inner markers).warnings =
      (walkLog instructions inner markers).warnings ++
        (instructions.zipIdx.flatMap fun item =>
          Completion.notesOn (walkLog instructions inner markers) item.2) ++
        (missingParents instructions.length inner).map fun p => ⟨.missingParent p, none⟩ :=
  congrArg (· ++ _) (Completion.foldl_addTop _ inner instructions.zipIdx _).2

end SolanaTx
