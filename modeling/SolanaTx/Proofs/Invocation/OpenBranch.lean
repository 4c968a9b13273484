import SolanaTx.Proofs.Invocation.Move
import SolanaTx.Proofs.Tree.LastBranch

/-!
# The open end of a branch

While an invocation runs, the latest tree is that invocation with its finished
callees, plugged into the frames of its callers. A call becomes a new open end, an
end marks the open invocation, and closing it makes it the last callee of its caller.
-/

namespace SolanaTx

open SolanaTx.Tree

/-- Whether all invocations of some trees have ended. -/
def AllEnded (ts : List (Tree Invocation)) : Prop :=
  ∀ v ∈ preorderAll ts, v.ending.isSome

theorem AllEnded.nil : AllEnded [] := by
  intro v hv
  cases hv

theorem AllEnded.append {ts us : List (Tree Invocation)} (ht : AllEnded ts) (hu : AllEnded us) :
    AllEnded (ts ++ us) := by
  intro v hv
  rw [preorderAll_append] at hv
  rcases List.mem_append.mp hv with hv | hv
  · exact ht v hv
  · exact hu v hv

theorem AllEnded.singleton {v : Invocation} {cs : List (Tree Invocation)} (hv : v.ending.isSome)
    (hcs : AllEnded cs) : AllEnded [node v cs] := by
  intro u hu
  rw [preorderAll, preorderAll, List.append_nil, preorder] at hu
  rcases List.mem_cons.mp hu with rfl | hu
  · exact hv
  · exact hcs u hu

/-- An end is taken by the open invocation, as all below it have ended. -/
theorem settle_plug {v : Invocation} {cs : List (Tree Invocation)} (hv : v.ending = none)
    (hcs : AllEnded cs) {above : List (Frame Invocation)} {count : Nat}
    (hcount : above.length < count) (ending : Ending) :
    (plug (node v cs) above).updateDeepest (Invocation.settle ending) count =
      some (plug (node { v with ending := some ending } cs) above) := by
  obtain ⟨k, rfl⟩ : ∃ k, count = above.length + (k + 1) := ⟨count - above.length - 1, by omega⟩
  apply updateDeepest_plug
  have hself : (v.settle ending).map (fun v' => node v' cs) =
      some (node { v with ending := some ending } cs) := by
    rw [Invocation.settle_of_none hv, Option.map_some]
  -- deeper on the last branch there is nothing, or a tree whose invocations have all ended
  rcases List.eq_nil_or_concat' cs with rfl | ⟨init, c, rfl⟩
  · rw [updateDeepest_succ_nil]
    exact hself
  · have hlast : c.updateDeepest (Invocation.settle ending) k = none := by
      apply updateDeepest_eq_none
      intro u hu
      apply Invocation.settle_of_isSome
      apply hcs
      rw [preorderAll_append]
      exact List.mem_append_right _ (by simpa [preorderAll] using hu)
    rw [updateDeepest_succ_concat_of_none v init hlast]
    exact hself

/-- A call hangs under the open invocation. -/
theorem place_plug (v : Invocation) (cs : List (Tree Invocation)) (above : List (Frame Invocation))
    (pending : List InnerInstruction) (id : Nat) (instruction : Instruction)
    (placedBy : Option StackHeight) :
    Branch.place ⟨plug (node v cs) above, pending⟩ id above.length instruction placedBy =
      plug (.leaf ⟨id, instruction, above.length + 1, (plug (node v cs) above).value.top,
        placedBy, none⟩) ((v, cs) :: above) := by
  have hreach : (plug (node v cs) above).reach above.length = above.length := reach_plug 0 _ above
  rw [Branch.place, hreach]
  exact attach_plug _ 0 (node v cs) above

namespace Walk

variable {w : Walk} {v : Invocation} {cs : List (Tree Invocation)}
  {above : List (Frame Invocation)} {pending : List InnerInstruction} {others : List Branch}

/-- The latest tree has an open end, and enough of its last branch counts as open. -/
structure Inside (w : Walk) (v : Invocation) (cs : List (Tree Invocation))
    (above : List (Frame Invocation)) (pending : List InnerInstruction)
    (others : List Branch) : Prop where
  branches : w.branches = ⟨plug (node v cs) above, pending⟩ :: others
  depth : above.length < w.openCount

/-- The call that a walk places under its open end. -/
def nextCall (w : Walk) (top : Nat) (above : List (Frame Invocation)) (call : InnerInstruction) :
    Invocation :=
  { id := w.nextId, instruction := call.instruction, depth := above.length + 1, top }

/-- A start one level below the open end makes the next reported call the open end. -/
theorem Inside.call {call : InnerInstruction} (h : w.Inside v cs above (call :: pending) others)
    (inner : List InnerInstruction) (logged : Text) (line : Nat) :
    (w.step inner line (some (.invoke logged (above.length + 2)))).Inside
        (w.nextCall (plug (node v cs) above).value.top above call) [] ((v, cs) :: above)
        pending others ∧
      (w.step inner line (some (.invoke logged (above.length + 2)))).waiting = w.waiting ∧
      (call.instruction.program.text = logged →
        (w.step inner line (some (.invoke logged (above.length + 2)))).warnings = w.warnings) := by
  -- as enough invocations count as open, no level is skipped
  have hdepth : ¬ above.length + 2 ≤ 1 := by omega
  have hopen : ¬ w.openCount = 0 := by
    have hlt := h.depth
    omega
  have hlevels : ¬ w.openCount < above.length + 2 - 1 := by
    have hlt := h.depth
    omega
  have hcount : min w.openCount (above.length + 2 - 1) = above.length + 1 := by
    have hlt := h.depth
    omega
  have hstep : w.step inner line (some (.invoke logged (above.length + 2))) =
      ({ w with
        sawInvoke := true
        branches := ⟨Branch.place ⟨plug (node v cs) above, call :: pending⟩ w.nextId
          above.length call.instruction none, pending⟩ :: others
        openCount := above.length + 2
        nextId := w.nextId + 1 } : Walk).checkProgram call.instruction logged line := by
    rw [step, if_neg hdepth, invokeCall]
    dsimp only
    rw [h.branches]
    dsimp only
    rw [if_neg hopen, if_neg hlevels, hcount]
    rfl
  rw [hstep]
  refine ⟨⟨?_, ?_⟩, ?_, ?_⟩
  · rw [branches_checkProgram, place_plug]
    rfl
  · rw [openCount_checkProgram, List.length_cons]
    exact Nat.lt_succ_self _
  · rw [waiting_checkProgram]
  · intro hlogged
    rw [checkProgram, if_pos hlogged]

/-- A start that finds no reported call changes no tree. -/
theorem step_invoke_exhausted {tree : Tree Invocation} (hw : w.branches = ⟨tree, []⟩ :: others)
    (inner : List InnerInstruction) (logged : Text) {depth : Nat} (hdepth : 2 ≤ depth)
    (line : Nat) :
    (w.step inner line (some (.invoke logged depth))).branches = w.branches ∧
      (w.step inner line (some (.invoke logged depth))).openCount =
        min w.openCount (depth - 1) ∧
      (w.step inner line (some (.invoke logged depth))).waiting = w.waiting := by
  have hstep : w.step inner line (some (.invoke logged depth)) =
      ({ w with sawInvoke := true } : Walk).invokeCall logged depth line := by
    rw [step, if_neg (by omega)]
  rw [hstep, invokeCall]
  dsimp only
  rw [hw]
  dsimp only
  split
  · next hopen => exact ⟨rfl, by rw [openCount_warn, hopen, Nat.zero_min], rfl⟩
  · split
    · exact ⟨rfl, rfl, rfl⟩
    · exact ⟨rfl, rfl, rfl⟩

/-- An end marks the open invocation. -/
theorem Inside.finish (h : w.Inside v cs above pending others) (hv : v.ending = none)
    (hcs : AllEnded cs) (ending : Ending) :
    (w.finish ending).Inside { v with ending := some ending } cs above pending others ∧
      (w.finish ending).waiting = w.waiting ∧ (w.finish ending).warnings = w.warnings := by
  rw [finish_cons ending h.branches, settle_plug hv hcs h.depth]
  exact ⟨⟨rfl, h.depth⟩, rfl, rfl⟩

/-- The open end is the last callee of its caller. -/
theorem Inside.close {caller : Invocation} {earlier : List (Tree Invocation)}
    (h : w.Inside v cs ((caller, earlier) :: above) pending others) :
    w.Inside caller (earlier ++ [node v cs]) above pending others := by
  have hlt := h.depth
  rw [List.length_cons] at hlt
  exact ⟨h.branches, by omega⟩

end Walk

end SolanaTx
