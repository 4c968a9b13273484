import Mathlib.Data.List.Count
import SolanaTx.Proofs.Invocation.Completion
import SolanaTx.Proofs.Invocation.Decoding
import SolanaTx.Proofs.Invocation.Move
import SolanaTx.Proofs.Invocation.Wording

/-!
# No instruction is lost

Whatever a log says, the tree of an instruction lists it and the calls reported for
it, in the order reported. The invariant of the walk is that the placed invocations
of a tree and its calls without a place, one behind the other, are that list.
-/

namespace SolanaTx

variable {instructions : List Instruction} {inner : List InnerInstruction}

/-- An instruction and the place of the one at the top that it belongs to. -/
def Invocation.entry (v : Invocation) : Nat × Instruction :=
  (v.top, v.instruction)

/-- The entries of the calls that an instruction at the top has made. -/
def callEntries (top : Nat) (calls : List InnerInstruction) : List (Nat × Instruction) :=
  calls.map fun call => (top, call.instruction)

/-- What the tree of an instruction is to list. -/
def entriesOf (inner : List InnerInstruction) (top : Nat) (instruction : Instruction) :
    List (Nat × Instruction) :=
  (top, instruction) :: callEntries top (callsOf inner top)

/-- The values placed in a branch and the calls without a place are the list of its instruction. -/
def Branch.Accounts (instructions : List Instruction) (inner : List InnerInstruction)
    (b : Branch) : Prop :=
  ∃ instruction, instructions[b.top]? = some instruction ∧
    b.tree.preorder.map Invocation.entry ++ callEntries b.top b.pending =
      entriesOf inner b.top instruction

structure Walk.Accounts (instructions : List Instruction) (inner : List InnerInstruction)
    (w : Walk) : Prop where
  waiting : ∀ item ∈ w.waiting, instructions[item.1]? = some item.2
  branches : ∀ b ∈ w.branches, b.Accounts instructions inner

theorem Branch.preorder_place (b : Branch) (id depth : Nat) (instruction : Instruction)
    (placedBy : Option StackHeight) :
    (b.place id depth instruction placedBy).preorder.map Invocation.entry =
      b.tree.preorder.map Invocation.entry ++ [(b.top, instruction)] := by
  simp [place, Tree.preorder_attach, Invocation.entry]

/-- Placing the next call keeps the account of a branch. -/
theorem Branch.Accounts.place {b : Branch} {next : InnerInstruction}
    {pending : List InnerInstruction} (h : b.Accounts instructions inner)
    (hpending : b.pending = next :: pending) (id depth : Nat) :
    Branch.Accounts instructions inner ⟨b.place id depth next.instruction none, pending⟩ := by
  obtain ⟨instruction, hinstruction, hlist⟩ := h
  have htop : Branch.top ⟨b.place id depth next.instruction none, pending⟩ = b.top :=
    b.top_place id depth next.instruction none
  refine ⟨instruction, htop ▸ hinstruction, ?_⟩
  rw [htop, b.preorder_place, ← hlist, hpending]
  simp [callEntries]

/-- Ending an invocation keeps the account of its branch. -/
theorem Branch.Accounts.settle {b : Branch} {tree : Tree Invocation} {ending : Ending}
    {count : Nat} (h : b.Accounts instructions inner)
    (htree : b.tree.updateDeepest (Invocation.settle ending) count = some tree) :
    Branch.Accounts instructions inner { b with tree } := by
  have hmap : tree.map Invocation.entry = b.tree.map Invocation.entry :=
    Invocation.map_of_settle (fun _ _ => rfl) htree
  have htop : Branch.top { b with tree } = b.top := Branch.top_of_settle htree
  obtain ⟨instruction, hinstruction, hlist⟩ := h
  refine ⟨instruction, htop ▸ hinstruction, ?_⟩
  rw [htop, ← hlist, ← Tree.preorder_map, ← Tree.preorder_map, hmap]

theorem Walk.Accounts.start (instructions : List Instruction) (inner : List InnerInstruction) :
    (Walk.start instructions).Accounts instructions inner where
  waiting := by
    intro item hitem
    obtain ⟨⟨instruction, top⟩, hmem, rfl⟩ := List.mem_map.mp hitem
    exact List.mem_zipIdx_iff_getElem?.mp hmem
  branches := by simp [Walk.start]

theorem Walk.Accounts.move {w w' : Walk} (hmove : Walk.Move inner w w')
    (h : w.Accounts instructions inner) : w'.Accounts instructions inner := by
  cases hmove with
  | still hbranches hwaiting _ => exact ⟨hwaiting ▸ h.waiting, hbranches ▸ h.branches⟩
  | root skipped rest top instruction hw hbranches hwaiting _ =>
      have hinstruction : instructions[top]? = some instruction :=
        h.waiting (top, instruction) (by simp [hw])
      constructor
      · intro item hitem
        rw [hwaiting] at hitem
        exact h.waiting item (by simp [hw, hitem])
      · rw [hbranches]
        apply List.forall_mem_cons.mpr ⟨?_, h.branches⟩
        exact ⟨instruction, hinstruction, rfl⟩
  | call branch others next pending depth hw hpending hbranches hwaiting _ =>
      have hbranch : branch.Accounts instructions inner := h.branches branch (by simp [hw])
      constructor
      · rw [hwaiting]
        exact h.waiting
      · rw [hbranches]
        apply List.forall_mem_cons.mpr ⟨hbranch.place hpending w.nextId depth, ?_⟩
        intro b hb
        exact h.branches b (by simp [hw, hb])
  | settle branch others tree ending count hw htree hbranches hwaiting _ =>
      have hbranch : branch.Accounts instructions inner := h.branches branch (by simp [hw])
      constructor
      · rw [hwaiting]
        exact h.waiting
      · rw [hbranches]
        apply List.forall_mem_cons.mpr ⟨hbranch.settle htree, ?_⟩
        intro b hb
        exact h.branches b (by simp [hw, hb])

theorem Walk.Accounts.walkLog (instructions : List Instruction) (inner : List InnerInstruction)
    (markers : List (Option Marker)) :
    (walkLog instructions inner markers).Accounts instructions inner :=
  Walk.lines_invariant (fun _ _ hmove h => h.move hmove) (.start instructions inner) 0 markers

namespace Completion

/-- Calls placed by height come behind all that was placed before, in their order. -/
theorem preorder_placeCalls (calls : List InnerInstruction) (tree : Tree Invocation)
    (nextId : Nat) :
    (placeCalls tree nextId calls).1.preorder.map Invocation.entry =
      tree.preorder.map Invocation.entry ++ callEntries tree.value.top calls := by
  induction calls generalizing tree nextId with
  | nil => simp [placeCalls, callEntries]
  | cons call rest ih =>
      have htop := Branch.top_place ⟨tree, rest⟩ nextId (call.height.callerDepth (nextId + 1))
        call.instruction (some call.height)
      rw [placeCalls, ih, htop, Branch.preorder_place, List.append_assoc]
      rfl

theorem preorder_treeOf {w : Walk} (hw : w.Accounts instructions inner) {instruction : Instruction}
    {top : Nat} (hinstruction : instructions[top]? = some instruction) (nextId : Nat) :
    (treeOf w inner nextId instruction top).1.preorder.map Invocation.entry =
      entriesOf inner top instruction := by
  unfold treeOf
  split
  · next branch hfind =>
    obtain ⟨instruction', hinstruction', hlist⟩ :=
      hw.branches branch (List.mem_of_find?_eq_some hfind)
    obtain rfl : branch.top = top := by simpa using List.find?_some hfind
    obtain rfl : instruction' = instruction :=
      Option.some.inj (hinstruction'.symm.trans hinstruction)
    exact (preorder_placeCalls ..).trans hlist
  · exact preorder_placeCalls ..

end Completion

/-- Each tree of a forest lists its instruction and the calls of that, in the order reported. -/
theorem preorder_trees_buildForest (instructions : List Instruction)
    (inner : List InnerInstruction) (markers : List (Option Marker)) :
    (buildForest instructions inner markers).trees.map
        (fun tree => tree.preorder.map Invocation.entry) =
      instructions.zipIdx.map fun item => entriesOf inner item.2 item.1 := by
  rw [← List.forall₂_eq_eq_eq, List.forall₂_map_left_iff, List.forall₂_map_right_iff]
  apply List.Forall₂.flip
  apply (forall₂_trees_buildForest instructions inner markers).imp
  rintro item tree ⟨hitem, nextId, rfl⟩
  exact Completion.preorder_treeOf (.walkLog instructions inner markers) hitem nextId

/-- All nodes in their order: each instruction and the calls reported for it. -/
theorem walk_buildForest (instructions : List Instruction) (inner : List InnerInstruction)
    (markers : List (Option Marker)) :
    (buildForest instructions inner markers).walk.map Invocation.entry =
      instructions.zipIdx.flatMap fun item => entriesOf inner item.2 item.1 := by
  have hlists := congrArg List.flatten (preorder_trees_buildForest instructions inner markers)
  rw [Forest.walk, Tree.preorderAll_eq_flatMap, List.map_flatMap]
  simpa only [← List.flatMap_def] using hlists

/-! ## What keeps a forest from being decoded -/

/-- No invocation of the log carries a height, and the calls without a place are reported ones. -/
structure Walk.Unplaced (inner : List InnerInstruction) (w : Walk) : Prop where
  placedBy : ∀ b ∈ w.branches, ∀ v ∈ b.tree.preorder, v.placedBy = none
  pending : ∀ b ∈ w.branches, ∀ call ∈ b.pending, call ∈ inner

theorem Walk.Unplaced.move {w w' : Walk} (hmove : Walk.Move inner w w')
    (h : w.Unplaced inner) : w'.Unplaced inner := by
  cases hmove with
  | still hbranches _ _ => exact ⟨hbranches ▸ h.placedBy, hbranches ▸ h.pending⟩
  | root skipped rest top instruction _ hbranches _ _ =>
      constructor <;> rw [hbranches]
      · refine List.forall_mem_cons.mpr ⟨?_, h.placedBy⟩
        intro v hv
        obtain rfl : v = _ := List.mem_singleton.mp hv
        rfl
      · exact List.forall_mem_cons.mpr ⟨fun _ hcall => List.mem_of_mem_filter hcall, h.pending⟩
  | call branch others next pending depth hw hpending hbranches _ _ =>
      have hplaced := h.placedBy
      have hcalls := h.pending
      rw [hw] at hplaced hcalls
      obtain ⟨hbranch, hothers⟩ := List.forall_mem_cons.mp hplaced
      obtain ⟨hnext, hrest⟩ := List.forall_mem_cons.mp hcalls
      constructor <;> rw [hbranches]
      · refine List.forall_mem_cons.mpr ⟨?_, hothers⟩
        intro v hv
        rw [Branch.place, Tree.preorder_attach] at hv
        rcases List.mem_append.mp hv with hv | hv
        · exact hbranch v hv
        · obtain rfl := List.mem_singleton.mp hv
          rfl
      · refine List.forall_mem_cons.mpr ⟨?_, hrest⟩
        intro call hcall
        exact hnext call (by simp [hpending, hcall])
  | settle branch others tree ending count hw htree hbranches _ _ =>
      have hplaced := h.placedBy
      have hcalls := h.pending
      rw [hw] at hplaced hcalls
      obtain ⟨hbranch, hothers⟩ := List.forall_mem_cons.mp hplaced
      have hmap : tree.map Invocation.placedBy = branch.tree.map Invocation.placedBy :=
        Invocation.map_of_settle (fun _ _ => rfl) htree
      constructor <;> rw [hbranches]
      · refine List.forall_mem_cons.mpr ⟨?_, hothers⟩
        intro v hv
        have hvalue : v.placedBy ∈ (branch.tree.preorder.map Invocation.placedBy) := by
          rw [← Tree.preorder_map, ← hmap, Tree.preorder_map]
          exact List.mem_map_of_mem hv
        obtain ⟨v', hv', heq⟩ := List.mem_map.mp hvalue
        exact heq ▸ hbranch v' hv'
      · exact List.forall_mem_cons.mpr (List.forall_mem_cons.mp hcalls)

theorem Walk.Unplaced.walkLog (instructions : List Instruction) (inner : List InnerInstruction)
    (markers : List (Option Marker)) : (walkLog instructions inner markers).Unplaced inner :=
  Walk.lines_invariant (fun _ _ hmove h => h.move hmove)
    ⟨by simp [Walk.start], by simp [Walk.start]⟩ 0 markers

/-- A height in a forest is one of those reported. -/
theorem placedBy_buildForest {markers : List (Option Marker)} {v : Invocation}
    (hv : v ∈ (buildForest instructions inner markers).walk) :
    v.placedBy = none ∨ ∃ call ∈ inner, v.placedBy = some call.height := by
  rw [Forest.walk, Tree.preorderAll_eq_flatMap] at hv
  obtain ⟨tree, htree, hv⟩ := List.mem_flatMap.mp hv
  have hunplaced := Walk.Unplaced.walkLog instructions inner markers
  obtain ⟨i, htree⟩ := List.mem_iff_getElem?.mp htree
  obtain ⟨instruction, nextId, -, rfl⟩ := exists_treeOf_of_getElem? instructions inner markers htree
  unfold Completion.treeOf at hv
  split at hv
  · next branch hfind =>
    have hmem := List.mem_of_find?_eq_some hfind
    rcases Completion.placedBy_placeCalls hv with hv | ⟨call, hcall, hheight⟩
    · exact Or.inl (hunplaced.placedBy branch hmem v hv)
    · exact Or.inr ⟨call, hunplaced.pending branch hmem call hcall, hheight⟩
  · rcases Completion.placedBy_placeCalls hv with hv | ⟨call, hcall, hheight⟩
    · obtain rfl : v = _ := List.mem_singleton.mp hv
      exact Or.inl rfl
    · exact Or.inr ⟨call, List.mem_of_mem_filter hcall, hheight⟩

/-- Whether a registry gives an outcome, good or bad, for the payload of an instruction. -/
def Registry.Answers (r : Registry) (instruction : Instruction) : Prop :=
  ∃ outcome, r.decode instruction.program instruction.data instruction.accounts.length = .ok outcome

theorem Registry.answers_empty (instruction : Instruction) : Registry.Answers {} instruction :=
  ⟨.error (.unknownProgram instruction.program), rfl⟩

/-- Whether a reported call names an instruction that there is not, of `count` in all. -/
def InnerInstruction.IsOrphan (count : Nat) (call : InnerInstruction) : Prop :=
  call.parent < 0 ∨ (count : Int) ≤ call.parent

theorem InnerInstruction.not_isOrphan_iff {count : Nat} {call : InnerInstruction} :
    ¬ call.IsOrphan count ↔ ∃ i : Nat, call.parent = i ∧ i < count := by
  simp only [IsOrphan, not_or, Int.not_lt, Int.not_le]
  constructor
  · intro h
    exact ⟨call.parent.toNat, by omega, by omega⟩
  · rintro ⟨i, hparent, hi⟩
    omega

theorem Invocation.exists_decode_iff {r : Registry} {v : Invocation}
    (hv : v.placedBy.all StackHeight.isUsable) :
    (∃ outcome, v.decode r = .ok outcome) ↔ r.Answers v.instruction := by
  rw [Invocation.decode, if_pos hv, Registry.Answers]

theorem forall_mem_entries_iff (p : Instruction → Prop) :
    (∀ e ∈ instructions.zipIdx.flatMap (fun item => entriesOf inner item.2 item.1), p e.2) ↔
      (∀ instruction ∈ instructions, p instruction) ∧
        ∀ call ∈ inner, ¬ call.IsOrphan instructions.length → p call.instruction := by
  constructor
  · intro h
    constructor
    · intro instruction hinstruction
      obtain ⟨i, hi⟩ := List.mem_iff_getElem?.mp hinstruction
      apply h (i, instruction)
      exact List.mem_flatMap.mpr ⟨(instruction, i), List.mem_zipIdx_iff_getElem?.mpr hi,
        List.mem_cons_self⟩
    · intro call hcall horphan
      obtain ⟨i, hparent, hi⟩ := InnerInstruction.not_isOrphan_iff.mp horphan
      apply h (i, call.instruction)
      refine List.mem_flatMap.mpr ⟨(instructions[i], i), ?_, ?_⟩
      · exact List.mem_zipIdx_iff_getElem?.mpr (List.getElem?_eq_getElem hi)
      · refine List.mem_cons_of_mem _ (List.mem_map.mpr ⟨call, ?_, rfl⟩)
        exact List.mem_filter.mpr ⟨hcall, by simpa using hparent⟩
  · rintro ⟨hinstructions, hcalls⟩ e he
    obtain ⟨⟨instruction, i⟩, hitem, he⟩ := List.mem_flatMap.mp he
    have hi : instructions[i]? = some instruction := List.mem_zipIdx_iff_getElem?.mp hitem
    rcases List.mem_cons.mp he with rfl | he
    · exact hinstructions instruction (List.mem_of_getElem? hi)
    · obtain ⟨call, hcall, rfl⟩ := List.mem_map.mp he
      obtain ⟨hcall, hparent⟩ := List.mem_filter.mp hcall
      apply hcalls call hcall
      have hlt : i < instructions.length := (List.getElem?_eq_some_iff.mp hi).1
      exact InnerInstruction.not_isOrphan_iff.mpr ⟨i, by simpa using hparent, hlt⟩

/-- The payloads in a forest are those of the instructions, and of the calls that are no orphans. -/
theorem forall_walk_answers_iff (r : Registry) (instructions : List Instruction)
    (inner : List InnerInstruction) (markers : List (Option Marker)) :
    (∀ v ∈ (buildForest instructions inner markers).walk, r.Answers v.instruction) ↔
      (∀ instruction ∈ instructions, r.Answers instruction) ∧
        ∀ call ∈ inner, ¬ call.IsOrphan instructions.length → r.Answers call.instruction := by
  calc (∀ v ∈ (buildForest instructions inner markers).walk, r.Answers v.instruction)
    _ ↔ ∀ e ∈ (buildForest instructions inner markers).walk.map Invocation.entry,
          r.Answers e.2 := by
        rw [List.forall_mem_map]
        rfl
    _ ↔ ∀ e ∈ instructions.zipIdx.flatMap (fun item => entriesOf inner item.2 item.1),
          r.Answers e.2 := by
        rw [walk_buildForest]
    _ ↔ _ := forall_mem_entries_iff r.Answers

/-- With usable heights a forest can be decoded where the payload of each instruction can, and of
each call that is not an orphan. -/
theorem forall_walk_decode_iff {r : Registry} {markers : List (Option Marker)}
    (hheights : ∀ call ∈ inner, call.height.isUsable) :
    (∀ v ∈ (buildForest instructions inner markers).walk, ∃ outcome, v.decode r = .ok outcome) ↔
      (∀ instruction ∈ instructions, r.Answers instruction) ∧
        ∀ call ∈ inner, ¬ call.IsOrphan instructions.length → r.Answers call.instruction := by
  rw [← forall_walk_answers_iff r instructions inner markers]
  apply forall₂_congr
  intro v hv
  apply Invocation.exists_decode_iff
  rcases placedBy_buildForest hv with h | ⟨call, hcall, h⟩
  · rw [h]
    rfl
  · rw [h]
    exact hheights call hcall

/-! ## Warnings on orphans -/

theorem nodup_eraseDups {α : Type} [DecidableEq α] (l : List α) : l.eraseDups.Nodup := by
  induction hn : l.length using Nat.strongRecOn generalizing l with
  | ind n ih =>
      cases l with
      | nil => exact List.nodup_nil
      | cons a rest =>
          have hshorter : (rest.filter fun b => !b == a).length < n := by
            have hle := List.length_filter_le (fun b => !b == a) rest
            rw [List.length_cons] at hn
            omega
          rw [List.eraseDups_cons, List.nodup_cons]
          exact ⟨by simp [List.mem_eraseDups], ih _ hshorter _ rfl⟩

theorem mem_missingParents {count : Nat} {p : Int} :
    p ∈ missingParents count inner ↔
      (p < 0 ∨ (count : Int) ≤ p) ∧ ∃ call ∈ inner, call.parent = p := by
  simp only [missingParents, List.mem_eraseDups, List.mem_mergeSort, List.mem_filter,
    List.mem_map, Bool.or_eq_true, decide_eq_true_eq]
  exact and_comm

theorem nodup_missingParents (count : Nat) (inner : List InnerInstruction) :
    (missingParents count inner).Nodup :=
  nodup_eraseDups _

theorem anomaly_notesOn_ne {w : Walk} {top : Nat} {x : Warning}
    (hx : x ∈ Completion.notesOn w top) (p : Int) : x.anomaly ≠ .missingParent p := by
  unfold Completion.notesOn at hx
  split at hx <;> split at hx
  all_goals simp_all

theorem anomaly_walkLog_ne {markers : List (Option Marker)} {x : Warning}
    (hx : x ∈ (walkLog instructions inner markers).warnings) (p : Int) :
    x.anomaly ≠ .missingParent p := by
  obtain ⟨noted, hnoted, hshows⟩ := (Walk.start instructions).warnings_lines inner 0 markers
  rw [walkLog, hnoted, Walk.start, List.nil_append] at hx
  intro hp
  have hshown := (hshows x hx).1
  rw [hp] at hshown
  cases hshown

theorem count_missingParent (instructions : List Instruction) (inner : List InnerInstruction)
    (markers : List (Option Marker)) (p : Int) :
    ((buildForest instructions inner markers).warnings.map (·.anomaly)).count (.missingParent p) =
      if (p < 0 ∨ (instructions.length : Int) ≤ p) ∧ ∃ call ∈ inner, call.parent = p then 1
      else 0 := by
  have hlog : ((walkLog instructions inner markers).warnings.map (·.anomaly)).count
      (.missingParent p) = 0 := by
    rw [List.count_eq_zero]
    intro hmem
    obtain ⟨x, hx, hp⟩ := List.mem_map.mp hmem
    exact anomaly_walkLog_ne hx p hp
  have hnotes : ((instructions.zipIdx.flatMap fun item =>
      Completion.notesOn (walkLog instructions inner markers) item.2).map (·.anomaly)).count
      (.missingParent p) = 0 := by
    rw [List.count_eq_zero]
    intro hmem
    obtain ⟨x, hx, hp⟩ := List.mem_map.mp hmem
    obtain ⟨item, -, hx⟩ := List.mem_flatMap.mp hx
    exact anomaly_notesOn_ne hx p hp
  have horphans : (((missingParents instructions.length inner).map
      fun p => (⟨.missingParent p, none⟩ : Warning)).map (·.anomaly)).count (.missingParent p) =
      (missingParents instructions.length inner).count p := by
    rw [List.map_map]
    exact List.count_map_of_injective _ Anomaly.missingParent
      (fun _ _ h => Anomaly.missingParent.inj h) p
  rw [warnings_buildForest, List.map_append, List.map_append, List.count_append,
    List.count_append, hlog, hnotes, horphans, (nodup_missingParents _ _).count]
  simp only [mem_missingParents, Nat.zero_add]

/-- Only the number of an orphan's parent can be too long to be written. -/
theorem forall_isWritable_iff {markers : List (Option Marker)} :
    (∀ x ∈ (buildForest instructions inner markers).warnings, x.anomaly.isWritable) ↔
      ∀ call ∈ inner, call.IsOrphan instructions.length →
        Decimal.isWritable (call.parent + 1) := by
  constructor
  · intro h call hcall horphan
    have hmem : call.parent ∈ missingParents instructions.length inner :=
      mem_missingParents.mpr ⟨horphan, call, hcall, rfl⟩
    apply h ⟨.missingParent call.parent, none⟩
    rw [warnings_buildForest]
    exact List.mem_append_right _ (List.mem_map.mpr ⟨call.parent, hmem, rfl⟩)
  · intro h x hx
    rw [warnings_buildForest] at hx
    have hother : (∀ p, x.anomaly ≠ .missingParent p) → x.anomaly.isWritable := by
      intro hne
      cases hanomaly : x.anomaly with
      | missingParent p => exact absurd hanomaly (hne p)
      | _ => rfl
    rcases List.mem_append.mp hx with hx | hx
    · rcases List.mem_append.mp hx with hx | hx
      · exact hother (anomaly_walkLog_ne hx)
      · obtain ⟨item, -, hx⟩ := List.mem_flatMap.mp hx
        exact hother (anomaly_notesOn_ne hx)
    · obtain ⟨p, hp, rfl⟩ := List.mem_map.mp hx
      obtain ⟨horphan, call, hcall, rfl⟩ := mem_missingParents.mp hp
      exact h call hcall horphan

/-- Without orphans a forest is decoded where the payload of each instruction is. -/
theorem exists_decode_without_orphans {r : Registry}
    (hheights : ∀ call ∈ inner, call.height.isUsable)
    (horphans : ∀ call ∈ inner, ¬ call.IsOrphan instructions.length)
    (hinstructions : ∀ instruction ∈ instructions, r.Answers instruction)
    (hcalls : ∀ call ∈ inner, r.Answers call.instruction) (markers : List (Option Marker)) :
    ∃ g, (buildForest instructions inner markers).decode r = .ok g := by
  rw [Forest.exists_decode_iff, forall_walk_decode_iff hheights, forall_isWritable_iff]
  refine ⟨⟨hinstructions, fun call hcall _ => hcalls call hcall⟩, ?_⟩
  intro call hcall horphan
  exact absurd horphan (horphans call hcall)

/-- Without calls a forest is decoded where the payload of each instruction is. -/
theorem exists_decode_without_calls {r : Registry}
    (h : ∀ instruction ∈ instructions, r.Answers instruction) (markers : List (Option Marker)) :
    ∃ g, (buildForest instructions [] markers).decode r = .ok g :=
  exists_decode_without_orphans (by simp) (by simp) h (by simp) markers

/-! ## Forests of nodes -/

/-- The entry of the invocation that a node shows. -/
def Node.entry (n : Node) : Nat × Instruction :=
  n.invocation.entry

/-- What each tree of a forest of nodes lists. -/
theorem preorder_tree_of_decodeForest {r : Registry} {log : Log} {f : Forest Node}
    (hf : decodeForest r instructions inner log = .ok f) :
    f.trees.map (fun tree => tree.preorder.map Node.entry) =
      instructions.zipIdx.map fun item => entriesOf inner item.2 item.1 := by
  have htrees := Forest.mapAll_invocation_of_decode (decodeForest_eq_ok_iff.mp hf).2
  rw [← preorder_trees_buildForest instructions inner log.markers, ← htrees,
    Tree.mapAll_eq_map, List.map_map]
  apply List.map_congr_left
  intro tree _
  rw [Function.comp_apply, Tree.preorder_map, List.map_map]
  rfl

/-- What a forest of nodes lists. -/
theorem map_entry_walk_of_decodeForest {r : Registry} {log : Log} {f : Forest Node}
    (hf : decodeForest r instructions inner log = .ok f) :
    f.walk.map Node.entry =
      instructions.zipIdx.flatMap fun item => entriesOf inner item.2 item.1 := by
  have hwalk := congrArg List.flatten (preorder_tree_of_decodeForest hf)
  rwa [← List.flatMap_def, ← List.flatMap_def, ← List.map_flatMap,
    ← Tree.preorderAll_eq_flatMap] at hwalk

/-- What the tree at one place of a forest of nodes lists. -/
theorem preorder_getElem?_of_decodeForest {r : Registry} {log : Log} {f : Forest Node}
    (hf : decodeForest r instructions inner log = .ok f) {i : Nat} {tree : Tree Node}
    (htree : f.trees[i]? = some tree) :
    ∃ instruction, instructions[i]? = some instruction ∧
      tree.preorder.map Node.entry = entriesOf inner i instruction := by
  have hi := congrArg (·[i]?) (preorder_tree_of_decodeForest hf)
  simp only [List.getElem?_map, List.getElem?_zipIdx, htree, Option.map_some] at hi
  cases hinstruction : instructions[i]? with
  | none => simp [hinstruction] at hi
  | some instruction =>
      rw [hinstruction] at hi
      exact ⟨instruction, rfl, by simpa using hi⟩

/-- A forest is built where each line can be read, each payload be decoded and each warning be
written. -/
theorem exists_decodeForest_ofLines_iff {r : Registry} {instructions : List Instruction}
    {inner : List InnerInstruction} {lines : List Text}
    (hheights : ∀ call ∈ inner, call.height.isUsable) :
    (∃ f, decodeForest r instructions inner (.ofLines lines) = .ok f) ↔
      (∀ line ∈ lines, ¬ Marker.IsOverlong line) ∧
      (∀ instruction ∈ instructions, r.Answers instruction) ∧
      (∀ call ∈ inner, ¬ call.IsOrphan instructions.length → r.Answers call.instruction) ∧
      ∀ call ∈ inner, call.IsOrphan instructions.length →
        Decimal.isWritable (call.parent + 1) := by
  simp only [decodeForest_eq_ok_iff, exists_and_left, Forest.exists_decode_iff]
  rw [Log.fault_ofLines_eq_none_iff, forall_walk_decode_iff hheights, forall_isWritable_iff,
    and_assoc]
  exact and_congr_left' (forall₂_congr fun line _ => Marker.exists_ofLine_iff)

/-- Whatever the log says, a forest is built where each line can be read, each payload be decoded
and each warning be written; and a forest that is built has one tree for each instruction, which
lists it and the calls reported for it, each once and in the order reported. A call of an
instruction that there is not is in no tree; there is one warning for each parent of such calls. -/
theorem decodeForest_lists_all (r : Registry) (instructions : List Instruction)
    (inner : List InnerInstruction) (lines : List Text) :
    ((∀ call ∈ inner, call.height.isUsable) →
      ((∃ f, decodeForest r instructions inner (.ofLines lines) = .ok f) ↔
        (∀ line ∈ lines, ¬ Marker.IsOverlong line) ∧
        (∀ instruction ∈ instructions, r.Answers instruction) ∧
        (∀ call ∈ inner, ¬ call.IsOrphan instructions.length → r.Answers call.instruction) ∧
        ∀ call ∈ inner, call.IsOrphan instructions.length →
          Decimal.isWritable (call.parent + 1))) ∧
    ∀ f, decodeForest r instructions inner (.ofLines lines) = .ok f →
      f.trees.length = instructions.length ∧
      (∀ (i : Nat) (tree : Tree Node), f.trees[i]? = some tree →
        instructions[i]? = some tree.value.instruction ∧ tree.value.invocation.top = i ∧
        tree.preorder.map Node.entry = (i, tree.value.instruction) ::
          (inner.filter fun call => call.parent = (i : Int)).map
            fun call => (i, call.instruction)) ∧
      f.walk.map Node.entry =
        (instructions.zipIdx.flatMap fun item => (item.2, item.1) ::
          (inner.filter fun call => call.parent = (item.2 : Int)).map
            fun call => (item.2, call.instruction)) ∧
      ∀ p, (f.warnings.map (·.anomaly)).count (.missingParent p) =
        if (p < 0 ∨ (instructions.length : Int) ≤ p) ∧ ∃ call ∈ inner, call.parent = p then 1
        else 0 := by
  constructor
  · exact exists_decodeForest_ofLines_iff
  · intro f hf
    have hlists := preorder_tree_of_decodeForest hf
    refine ⟨?_, ?_, ?_, ?_⟩
    · have hlength := congrArg List.length hlists
      rw [List.length_map, List.length_map, List.length_zipIdx] at hlength
      exact hlength
    · intro i tree htree
      obtain ⟨instruction, hinstruction, hlist⟩ := preorder_getElem?_of_decodeForest hf htree
      have hhead := hlist
      rw [Tree.preorder_eq_value_cons, List.map_cons] at hhead
      obtain ⟨htop, hvalue⟩ := Prod.mk.inj (List.cons.inj hhead).1
      obtain rfl : tree.value.instruction = instruction := hvalue
      exact ⟨hinstruction, htop, hlist⟩
    · exact map_entry_walk_of_decodeForest hf
    · intro p
      have hwarnings := (Forest.decode_eq_ok_iff.mp (decodeForest_eq_ok_iff.mp hf).2).2.2.1
      rw [hwarnings]
      exact count_missingParent instructions inner _ p

/-- A start whose numeral has 4301 digits keeps the forest from being built. -/
theorem decodeForest_overlong_start :
    ¬ ∃ f, decodeForest {} [⟨Pubkey.zero, [], []⟩] []
      (.ofLines [Marker.invokeLine "x" (List.replicate 4301 '1')]) = .ok f := by
  rintro ⟨f, hf⟩
  have hreadable := Log.fault_ofLines_eq_none_iff.mp (decodeForest_eq_ok_iff.mp hf).1
  exact Marker.exists_ofLine_iff.mp (hreadable _ List.mem_cons_self)
    (Marker.isOverlong_invokeLine_replicate ⟨by decide, by decide⟩ (by decide))

end SolanaTx
