import Mathlib.Data.List.Basic
import Mathlib.Data.List.Perm.Basic
import Mathlib.Data.List.Range
import SolanaTx.Proofs.Invocation.Completion
import SolanaTx.Proofs.Invocation.OpenBranch

/-!
# Numbers of invocations

Invocations get their numbers in the order in which they are placed, first by the log
and then by height. The log takes up the instructions at the top in their order, each
at most once. So in a forest every number below the count of nodes is given once.
-/

namespace SolanaTx

variable {inner : List InnerInstruction}

/-- Items are found by a list of different keys that holds theirs in order. -/
theorem filterMap_find?_of_sublist {α : Type} (key : α → Nat) {items : List α} {keys : List Nat}
    (hkeys : (items.map key).Sublist keys) (hnodup : keys.Nodup) :
    (keys.filterMap fun k => items.find? fun item => key item = k) = items := by
  induction keys generalizing items with
  | nil =>
      obtain rfl : items = [] := by simpa using hkeys
      rfl
  | cons k rest ih =>
      obtain ⟨hk, hrest⟩ := List.nodup_cons.mp hnodup
      rcases List.sublist_cons_iff.mp hkeys with hkeys | ⟨_, hcons, hkeys⟩
      · have hnone : items.find? (fun item => key item = k) = none := by
          rw [List.find?_eq_none]
          intro item hitem hkey
          rw [decide_eq_true_eq] at hkey
          exact hk (hkey ▸ hkeys.subset (List.mem_map_of_mem hitem))
        rw [List.filterMap_cons, hnone, ih hkeys hrest]
      · obtain ⟨item, others, rfl, rfl, rfl⟩ := List.map_eq_cons_iff.mp hcons
        have hsome : (item :: others).find? (fun x => key x = key item) = some item :=
          List.find?_cons_of_pos (by simp)
        have hother : ∀ k' ∈ rest, (item :: others).find? (fun x => key x = k') =
            others.find? fun x => key x = k' := by
          intro k' hk'
          apply List.find?_cons_of_neg
          rw [decide_eq_true_eq]
          rintro rfl
          exact hk hk'
        rw [List.filterMap_cons, hsome, List.filterMap_congr hother, ih hkeys hrest]

namespace Walk

/-- The invocations that have a place, in the order of the log. -/
def inOrder (w : Walk) : List Invocation :=
  w.branches.reverse.flatMap fun b => b.tree.preorder

theorem inOrder_of_cons {w : Walk} {branch : Branch} {others : List Branch}
    (hw : w.branches = branch :: others) :
    w.inOrder = (others.reverse.flatMap fun b => b.tree.preorder) ++ branch.tree.preorder := by
  rw [inOrder, hw, List.reverse_cons, List.flatMap_append, List.flatMap_singleton]

theorem inOrder_of_root {w w' : Walk} {v : Invocation} {calls : List InnerInstruction}
    (hbranches : w'.branches = ⟨.leaf v, calls⟩ :: w.branches) : w'.inOrder = w.inOrder ++ [v] := by
  rw [inOrder_of_cons hbranches]
  rfl

/-- A call is placed behind all invocations before it. -/
theorem inOrder_of_place {w w' : Walk} {branch : Branch} {others : List Branch}
    (hw : w.branches = branch :: others) {id depth : Nat} {instruction : Instruction}
    {placedBy : Option StackHeight} {pending : List InnerInstruction}
    (hbranches : w'.branches = ⟨branch.place id depth instruction placedBy, pending⟩ :: others) :
    w'.inOrder = w.inOrder ++
      [⟨id, instruction, branch.tree.reach depth + 1, branch.top, placedBy, none⟩] := by
  rw [inOrder_of_cons hbranches, inOrder_of_cons hw, Branch.place, Tree.preorder_attach,
    List.append_assoc]

theorem inOrder_of_settle {β : Type} {g : Invocation → β}
    (hg : ∀ v ending, g { v with ending } = g v) {w w' : Walk} {branch : Branch}
    {others : List Branch} (hw : w.branches = branch :: others) {tree : Tree Invocation}
    {ending : Ending} {count : Nat}
    (htree : branch.tree.updateDeepest (Invocation.settle ending) count = some tree)
    (hbranches : w'.branches = { branch with tree } :: others) :
    w'.inOrder.map g = w.inOrder.map g := by
  rw [inOrder_of_cons hbranches, inOrder_of_cons hw, List.map_append, List.map_append,
    ← Tree.preorder_map, ← Tree.preorder_map, Invocation.map_of_settle hg htree]

/-- Whether the invocations of a walk are numbered in their order, and the instructions taken up
come in their order, before those that wait. -/
structure Numbered (count : Nat) (w : Walk) : Prop where
  ids : w.inOrder.map (·.id) = List.range w.nextId
  tops : (w.branches.reverse.map Branch.top ++ w.waiting.map Prod.fst).Sublist (List.range count)

theorem Numbered.start (instructions : List Instruction) :
    (Walk.start instructions).Numbered instructions.length where
  ids := rfl
  tops := by
    simp only [Walk.start, List.reverse_nil, List.map_nil, List.nil_append, List.map_map]
    rw [List.range_eq_range', ← List.zipIdx_map_snd 0 instructions]
    exact List.Sublist.refl _

theorem Numbered.move {count : Nat} {w w' : Walk} (hmove : Move inner w w')
    (h : w.Numbered count) : w'.Numbered count := by
  cases hmove with
  | still hbranches hwaiting hid =>
      constructor
      · rw [inOrder, hbranches, hid]
        exact h.ids
      · rw [hbranches, hwaiting]
        exact h.tops
  | root skipped rest top instruction hw hbranches hwaiting hid =>
      constructor
      · rw [inOrder_of_root hbranches, List.map_append, h.ids, hid, List.range_succ]
        rfl
      · have htops := h.tops
        rw [hw] at htops
        refine List.Sublist.trans ?_ htops
        rw [hbranches, hwaiting, List.reverse_cons, List.map_append, List.append_assoc,
          List.map_append, List.map_cons]
        apply List.Sublist.append_left
        exact List.sublist_append_right _ _
  | call branch others next pending depth hw hpending hbranches hwaiting hid =>
      constructor
      · rw [inOrder_of_place hw hbranches, List.map_append, h.ids, hid, List.range_succ]
        rfl
      · have htops := h.tops
        have htop : Branch.top ⟨branch.place w.nextId depth next.instruction none, pending⟩ =
            branch.top := branch.top_place w.nextId depth next.instruction none
        rw [hw, List.reverse_cons, List.map_append, List.map_singleton] at htops
        rw [hbranches, hwaiting, List.reverse_cons, List.map_append, List.map_singleton, htop]
        exact htops
  | settle branch others tree ending _ hw htree hbranches hwaiting hid =>
      constructor
      · rw [inOrder_of_settle (fun _ _ => rfl) hw htree hbranches, h.ids, hid]
      · have htops := h.tops
        rw [hw, List.reverse_cons, List.map_append, List.map_singleton] at htops
        rw [hbranches, hwaiting, List.reverse_cons, List.map_append, List.map_singleton,
          Branch.top_of_settle htree]
        exact htops

theorem Numbered.walkLog (instructions : List Instruction) (inner : List InnerInstruction)
    (markers : List (Option Marker)) :
    (walkLog instructions inner markers).Numbered instructions.length :=
  Walk.lines_invariant (fun _ _ hmove h => h.move hmove) (.start instructions) 0 markers

/-- The branches of a walk are those found for the instructions, one after the other. -/
theorem Numbered.filterMap_find? {count : Nat} {w : Walk} (h : w.Numbered count) :
    (List.range count).filterMap (fun top => w.branches.find? (·.top = top)) =
      w.branches.reverse := by
  have hkeys : (w.branches.map Branch.top).Sublist (List.range count).reverse := by
    have htops := ((List.sublist_append_left _ _).trans h.tops).reverse
    rwa [List.map_reverse, List.reverse_reverse] at htops
  have hfound := filterMap_find?_of_sublist Branch.top hkeys
    ((List.reverse_perm _).nodup_iff.mpr List.nodup_range)
  rw [List.filterMap_reverse, List.reverse_eq_iff] at hfound
  exact hfound

end Walk

namespace Completion

theorem nextId_placeCalls (calls : List InnerInstruction) (tree : Tree Invocation)
    (nextId : Nat) : (placeCalls tree nextId calls).2 = nextId + calls.length := by
  induction calls generalizing tree nextId with
  | nil => rfl
  | cons call rest ih => rw [placeCalls, ih, List.length_cons, Nat.add_assoc, Nat.add_comm 1]

/-- Calls placed by height get the next numbers. -/
theorem ids_placeCalls (calls : List InnerInstruction) (tree : Tree Invocation) (nextId : Nat) :
    (placeCalls tree nextId calls).1.preorder.map (·.id) =
      tree.preorder.map (·.id) ++ List.range' nextId calls.length := by
  induction calls generalizing tree nextId with
  | nil => simp [placeCalls]
  | cons call rest ih =>
      rw [placeCalls, ih, Branch.place, Tree.preorder_attach, List.map_append, List.length_cons,
        List.range'_succ, List.append_assoc]
      rfl

/-- The numbers that the log has given in the tree of one instruction. -/
def loggedIds (w : Walk) (top : Nat) : List Nat :=
  (w.branches.find? (·.top = top)).toList.flatMap fun b => b.tree.preorder.map (·.id)

/-- In the tree of one instruction the numbers behind those of the log follow each other. -/
theorem ids_treeOf (w : Walk) (inner : List InnerInstruction) (nextId : Nat)
    (instruction : Instruction) (top : Nat) :
    ∃ count, (treeOf w inner nextId instruction top).2 = nextId + count ∧
      (treeOf w inner nextId instruction top).1.preorder.map (·.id) =
        loggedIds w top ++ List.range' nextId count := by
  unfold treeOf loggedIds
  cases w.branches.find? (·.top = top) with
  | some branch =>
      refine ⟨branch.pending.length, nextId_placeCalls .., ?_⟩
      rw [ids_placeCalls, Option.toList_some, List.flatMap_singleton]
  | none =>
      refine ⟨(callsOf inner top).length + 1, ?_, ?_⟩
      · rw [nextId_placeCalls, Nat.add_assoc, Nat.add_comm 1]
      · rw [ids_placeCalls, List.range'_succ]
        rfl

/-- The instructions' trees hold the numbers of the log, and those that follow the last one. -/
theorem ids_foldl_addTop (w : Walk) (inner : List InnerInstruction)
    (items : List (Instruction × Nat)) (c : Completion) :
    ∃ count, (items.foldl (fun c item => c.addTop w inner item.1 item.2) c).nextId =
        c.nextId + count ∧
      ((Tree.preorderAll (items.foldl (fun c item => c.addTop w inner item.1 item.2) c).trees).map
        (·.id)).Perm ((Tree.preorderAll c.trees).map (·.id) ++
          (items.flatMap (fun item => loggedIds w item.2) ++ List.range' c.nextId count)) := by
  induction items generalizing c with
  | nil => exact ⟨0, rfl, by simp⟩
  | cons item rest ih =>
      obtain ⟨first, hnext, hids⟩ := ids_treeOf w inner c.nextId item.1 item.2
      obtain ⟨later, hlast, hperm⟩ := ih (c.addTop w inner item.1 item.2)
      rw [addTop_eq] at hlast hperm
      rw [List.foldl_cons, addTop_eq]
      refine ⟨first + later, by rw [hlast, hnext, Nat.add_assoc], hperm.trans ?_⟩
      rw [Tree.preorderAll_append, Tree.preorderAll, Tree.preorderAll, List.append_nil,
        List.map_append, hids, hnext, List.flatMap_cons, ← List.range'_append_1]
      simp only [List.append_assoc, List.perm_append_left_iff]
      rw [← List.append_assoc, ← List.append_assoc]
      exact List.perm_append_comm.append_right _

end Completion

/-- How many invocations the forest of a transaction has given a number. -/
def placedCount (instructions : List Instruction) (inner : List InnerInstruction)
    (markers : List (Option Marker)) : Nat :=
  let w := walkLog instructions inner markers
  (instructions.zipIdx.foldl (fun c item => c.addTop w inner item.1 item.2)
    ({ nextId := w.nextId, warnings := w.warnings } : Completion)).nextId

/-- In a forest each number that has been given occurs once. -/
theorem ids_buildForest (instructions : List Instruction) (inner : List InnerInstruction)
    (markers : List (Option Marker)) :
    ((buildForest instructions inner markers).walk.map (·.id)).Perm
      (List.range (placedCount instructions inner markers)) := by
  generalize hw : walkLog instructions inner markers = w
  have hnumbered : w.Numbered instructions.length := hw ▸ .walkLog instructions inner markers
  obtain ⟨count, hcount, hperm⟩ := Completion.ids_foldl_addTop w inner instructions.zipIdx
    { nextId := w.nextId, warnings := w.warnings }
  have hlogged : (instructions.zipIdx.flatMap fun item => Completion.loggedIds w item.2) =
      List.range w.nextId := by
    calc (instructions.zipIdx.flatMap fun item => Completion.loggedIds w item.2)
      _ = (List.range instructions.length).flatMap (Completion.loggedIds w) := by
          rw [List.range_eq_range', ← List.zipIdx_map_snd 0 instructions, List.flatMap_map]
      _ = w.branches.reverse.flatMap fun b => b.tree.preorder.map (·.id) := by
          rw [← hnumbered.filterMap_find?, List.filterMap_eq_flatMap_toList, List.flatMap_assoc]
          rfl
      _ = List.range w.nextId := by
          rw [← hnumbered.ids, Walk.inOrder, List.map_flatMap]
  have hplaced : placedCount instructions inner markers = w.nextId + count := by
    rw [placedCount, hw]
    exact hcount
  rw [hplaced, List.range_eq_range', ← List.range'_append_1, ← List.range_eq_range',
    Nat.zero_add, buildForest, hw, ← hlogged]
  exact hperm

end SolanaTx
