import SolanaTx.Proofs.Invocation.Conservation
import SolanaTx.Proofs.Invocation.Numbering
import SolanaTx.Proofs.Tree.Linked

/-!
# Forests are proper

Whatever a log says, each invocation in a forest hangs one level below its caller, in
the tree of the same instruction at the top, and has a larger number. Places in the
forest are paths of numbers that rise in the order of the nodes.
-/

namespace SolanaTx

open SolanaTx.Tree

variable {inner : List InnerInstruction}

/-- Whether an invocation stands right below this one in a tree. -/
def Invocation.Leads (v c : Invocation) : Prop :=
  c.depth = v.depth + 1 ∧ c.top = v.top ∧ v.id < c.id

/-- Whether a tree of invocations stands at depth 0, and each leads those below it. -/
structure Tree.Proper (tree : Tree Invocation) : Prop where
  depth : tree.value.depth = 0
  linked : tree.Linked fun _ => Invocation.Leads

namespace Tree

/-- A new leaf is led by the invocation that it is put under. -/
theorem linked_attach {leaf : Invocation} {depth : Nat} {t : Tree Invocation}
    (h : t.Linked fun _ => Invocation.Leads)
    (hdepth : leaf.depth = t.value.depth + t.reach depth + 1) (htop : leaf.top = t.value.top)
    (hid : ∀ v ∈ t.preorder, v.id < leaf.id) :
    (t.attach leaf depth).Linked fun _ => Invocation.Leads := by
  induction depth generalizing t with
  | zero =>
      obtain ⟨v, cs⟩ := t
      rw [linked_node_iff_forall_mem] at h
      rw [attach_zero, linked_node_iff_forall_mem, List.forall_mem_append]
      refine ⟨h, List.forall_mem_singleton.mpr ⟨⟨hdepth, htop, ?_⟩, linked_leaf leaf⟩⟩
      exact hid v List.mem_cons_self
  | succ depth ih =>
      obtain ⟨v, cs⟩ := t
      rw [linked_node_iff_forall_mem] at h
      rcases List.eq_nil_or_concat' cs with rfl | ⟨init, c, rfl⟩
      · rw [attach_succ_nil, linked_node_iff_forall_mem]
        refine List.forall_mem_singleton.mpr ⟨⟨hdepth, htop, ?_⟩, linked_leaf leaf⟩
        exact hid v List.mem_cons_self
      · rw [List.forall_mem_append, List.forall_mem_singleton] at h
        obtain ⟨hinit, hlead, hc⟩ := h
        rw [attach_succ_concat, linked_node_iff_forall_mem, List.forall_mem_append,
          List.forall_mem_singleton, value_attach]
        rw [reach_succ_concat] at hdepth
        have hcdepth : c.value.depth = v.depth + 1 := hlead.1
        refine ⟨hinit, hlead, ih hc ?_ (htop.trans hlead.2.1.symm) ?_⟩
        · rw [hdepth, hcdepth, value]
          omega
        · intro u hu
          apply hid
          rw [preorder, preorderAll_append]
          simp [preorderAll, hu]

theorem Proper.leaf {v : Invocation} (hv : v.depth = 0) : (Tree.leaf v).Proper :=
  ⟨hv, linked_leaf v⟩

/-- A call with a new number is placed properly. -/
theorem Proper.place {b : Branch} (h : b.tree.Proper) {id : Nat}
    (hid : ∀ v ∈ b.tree.preorder, v.id < id) (depth : Nat) (instruction : Instruction)
    (placedBy : Option StackHeight) : (b.place id depth instruction placedBy).Proper := by
  constructor
  · rw [Branch.place, value_attach]
    exact h.depth
  · rw [Branch.place]
    apply linked_attach h.linked
    · rw [h.depth, Nat.zero_add]
    · rfl
    · exact hid

/-- An end is none of what makes a tree proper. -/
theorem Proper.settle {tree tree' : Tree Invocation} (h : tree.Proper) {ending : Ending}
    {count : Nat}
    (htree : tree.updateDeepest (Invocation.settle ending) count = some tree') : tree'.Proper := by
  have hmap : tree'.map (fun v => (v.depth, v.top, v.id)) =
      tree.map fun v => (v.depth, v.top, v.id) := Invocation.map_of_settle (fun _ _ => rfl) htree
  constructor
  · have hvalue := congrArg Tree.value hmap
    rw [value_map, value_map] at hvalue
    exact (congrArg Prod.fst hvalue).trans h.depth
  · have hlinked : (tree.map fun v => (v.depth, v.top, v.id)).Linked fun _ v c =>
        c.1 = v.1 + 1 ∧ c.2.1 = v.2.1 ∧ v.2.2 < c.2.2 := linked_map_iff.mpr h.linked
    rw [← hmap, linked_map_iff] at hlinked
    exact hlinked

end Tree

namespace Walk

theorem Numbered.id_lt {w : Walk} {count : Nat} (h : w.Numbered count) {b : Branch}
    (hb : b ∈ w.branches) {v : Invocation} (hv : v ∈ b.tree.preorder) : v.id < w.nextId := by
  have hmem : v ∈ w.inOrder := List.mem_flatMap.mpr ⟨b, List.mem_reverse.mpr hb, hv⟩
  have hid : v.id ∈ w.inOrder.map (·.id) := List.mem_map_of_mem hmem
  rw [h.ids, List.mem_range] at hid
  exact hid

/-- Whether the log has placed all invocations properly. -/
structure Proper (count : Nat) (w : Walk) : Prop where
  numbered : w.Numbered count
  branches : ∀ b ∈ w.branches, b.tree.Proper

theorem Proper.start (instructions : List Instruction) :
    (Walk.start instructions).Proper instructions.length :=
  ⟨.start instructions, by simp [Walk.start]⟩

theorem Proper.move {count : Nat} {w w' : Walk} (hmove : Move inner w w')
    (h : w.Proper count) : w'.Proper count := by
  refine ⟨h.numbered.move hmove, ?_⟩
  have hbefore := h.branches
  have hid := fun b hb v hv => h.numbered.id_lt (b := b) (v := v) hb hv
  cases hmove with
  | still hbranches _ _ => exact hbranches ▸ hbefore
  | root skipped rest top instruction _ hbranches _ _ =>
      rw [hbranches]
      exact List.forall_mem_cons.mpr ⟨.leaf rfl, hbefore⟩
  | call branch others next pending depth hw _ hbranches _ _ =>
      rw [hw, List.forall_mem_cons] at hbefore hid
      rw [hbranches]
      exact List.forall_mem_cons.mpr ⟨hbefore.1.place hid.1 depth next.instruction none, hbefore.2⟩
  | settle branch others tree ending _ hw htree hbranches _ _ =>
      rw [hw, List.forall_mem_cons] at hbefore
      rw [hbranches]
      exact List.forall_mem_cons.mpr ⟨hbefore.1.settle htree, hbefore.2⟩

theorem Proper.walkLog (instructions : List Instruction) (inner : List InnerInstruction)
    (markers : List (Option Marker)) :
    (walkLog instructions inner markers).Proper instructions.length :=
  Walk.lines_invariant (fun _ _ hmove h => h.move hmove) (.start instructions) 0 markers

end Walk

namespace Completion

theorem proper_placeCalls {tree : Tree Invocation} (h : tree.Proper) {nextId : Nat}
    (hid : ∀ v ∈ tree.preorder, v.id < nextId) (calls : List InnerInstruction) :
    (placeCalls tree nextId calls).1.Proper := by
  induction calls generalizing tree nextId with
  | nil => exact h
  | cons call rest ih =>
      apply ih (Proper.place (b := ⟨tree, rest⟩) h hid _ _ _)
      rw [Branch.place, preorder_attach, List.forall_mem_append, List.forall_mem_singleton]
      exact ⟨fun v hv => Nat.lt_succ_of_lt (hid v hv), Nat.lt_succ_self nextId⟩

theorem proper_treeOf {w : Walk} {count : Nat} (hw : w.Proper count) {nextId : Nat}
    (hid : w.nextId ≤ nextId) (inner : List InnerInstruction) (instruction : Instruction)
    (top : Nat) : (treeOf w inner nextId instruction top).1.Proper := by
  unfold treeOf
  split
  · next branch hfind =>
    have hmem := List.mem_of_find?_eq_some hfind
    apply proper_placeCalls (hw.branches branch hmem)
    intro v hv
    exact Nat.lt_of_lt_of_le (hw.numbered.id_lt hmem hv) hid
  · apply proper_placeCalls (.leaf rfl)
    exact List.forall_mem_singleton.mpr (Nat.lt_succ_self nextId)

theorem proper_foldl_addTop {w : Walk} {count : Nat} (hw : w.Proper count)
    (inner : List InnerInstruction) (items : List (Instruction × Nat)) {c : Completion}
    (hid : w.nextId ≤ c.nextId) (hc : ∀ tree ∈ c.trees, tree.Proper) :
    ∀ tree ∈ (items.foldl (fun c item => c.addTop w inner item.1 item.2) c).trees,
      tree.Proper := by
  induction items generalizing c with
  | nil => exact hc
  | cons item rest ih =>
      obtain ⟨placed, hnext, -⟩ := ids_treeOf w inner c.nextId item.1 item.2
      rw [List.foldl_cons, addTop_eq]
      apply ih
      · rw [hnext]
        exact Nat.le_add_right_of_le hid
      · rw [List.forall_mem_append, List.forall_mem_singleton]
        exact ⟨hc, proper_treeOf hw hid inner item.1 item.2⟩

end Completion

theorem proper_trees_buildForest (instructions : List Instruction)
    (inner : List InnerInstruction) (markers : List (Option Marker)) :
    ∀ tree ∈ (buildForest instructions inner markers).trees, tree.Proper :=
  Completion.proper_foldl_addTop (.walkLog instructions inner markers) inner _ (Nat.le_refl _)
    (by simp)

/-! ## Forests of nodes -/

theorem Node.pathText_eq_of_path_eq_concat {m n : Node} (hm : m.path ≠ []) {k : Nat}
    (hn : n.path = m.path ++ [k]) : n.pathText = m.pathText ++ ("." ++ Decimal.ofNat k) := by
  rw [pathText, pathText, hn, List.map_append, List.map_singleton]
  exact Text.join_concat "." (by simpa using hm) _

namespace Forest

variable {r : Registry} {f : Forest Invocation} {g : Forest Node}

/-- The root of each tree of a decoded forest has the number of the tree for its path. -/
theorem path_root_of_decode (hg : f.decode r = .ok g) {i : Nat} {root : Tree Node}
    (hroot : g.trees[i]? = some root) : root.value.path = [i + 1] := by
  have hpaths := congrArg (·[i]?) (mapAll_path_of_decode hg fun v => v)
  simp only [mapAll_eq_map, List.getElem?_map, hroot, Option.map_some, getElem?_numberedFrom]
    at hpaths
  obtain ⟨tree, -, htree⟩ := Option.map_eq_some_iff.mp hpaths.symm
  have hvalue := congrArg Tree.value htree
  rw [value_numbered, value_map, Nat.add_comm] at hvalue
  exact (congrArg Prod.fst hvalue).symm

/-- In a decoded forest a child has the path of its parent with its own number, and what relates
the invocations relates the nodes. -/
theorem linked_of_decode {R : Invocation → Invocation → Prop} (hg : f.decode r = .ok g)
    (hf : ∀ tree ∈ f.trees, tree.Linked fun _ => R) :
    ∀ tree ∈ g.trees, tree.Linked fun k m n =>
      n.path = m.path ++ [k + 1] ∧ R m.invocation n.invocation := by
  have hlinked := linked_numberedFrom [] 1 hf
  have hpaths := mapAll_path_of_decode hg fun v => v
  rw [mapAll_id_eq, mapAll_eq_map] at hpaths
  rw [← hpaths, List.forall_mem_map] at hlinked
  intro tree htree
  exact linked_map_iff.mp (hlinked tree htree)

theorem forall_roots_of_decode {p : Invocation → Prop} (hg : f.decode r = .ok g)
    (hf : ∀ tree ∈ f.trees, p tree.value) : ∀ tree ∈ g.trees, p tree.value.invocation := by
  rw [← mapAll_invocation_of_decode hg, mapAll_eq_map, List.forall_mem_map] at hf
  intro tree htree
  have hroot := hf tree htree
  rwa [value_map] at hroot

theorem paths_of_decode (hg : f.decode r = .ok g) : (g.walk.map Node.path).Pairwise (· < ·) := by
  have hpaths := mapAll_path_of_decode hg fun v => v
  have hrise := (paths_numberedFrom [] 1 (mapAll (fun v => v) f.trees)).1
  rw [← hpaths, preorderAll_mapAll, List.map_map] at hrise
  exact hrise

end Forest

/-- Each node of a forest has a number of its own. -/
theorem ids_of_decodeForest {r : Registry} {instructions : List Instruction} {log : Log}
    {f : Forest Node} (hf : decodeForest r instructions inner log = .ok f) :
    (f.walk.map (·.invocation.id)).Perm
      (List.range (placedCount instructions inner log.markers)) := by
  have hids := ids_buildForest instructions inner log.markers
  rw [← Forest.map_invocation_walk_of_decode (decodeForest_eq_ok_iff.mp hf).2, List.map_map] at hids
  exact hids

/-- A path in a forest has a number for each level. -/
theorem length_path_of_decodeForest {r : Registry} {instructions : List Instruction} {log : Log}
    {f : Forest Node} (hf : decodeForest r instructions inner log = .ok f) :
    ∀ n ∈ f.walk, n.path.length = n.invocation.depth + 1 := by
  have hg := (decodeForest_eq_ok_iff.mp hf).2
  have hproper := proper_trees_buildForest instructions inner log.markers
  have hlinked := Forest.linked_of_decode hg fun tree htree => (hproper tree htree).linked
  apply Linked.forall_preorderAll
  · intro tree htree
    refine (hlinked tree htree).mono ?_
    rintro k m n ⟨hpath, hdepth, -, -⟩ hlength
    rw [hpath, List.length_append, hlength, hdepth, List.length_singleton]
  · intro tree htree
    obtain ⟨i, hi⟩ := List.mem_iff_getElem?.mp htree
    have hdepth := Forest.forall_roots_of_decode hg (p := fun v => v.depth = 0)
      (fun tree htree => (hproper tree htree).depth) tree htree
    rw [Forest.path_root_of_decode hg hi, hdepth]
    rfl

/-- Whatever the log says, a forest that is built is proper. Each number that an invocation was
given is that of one node, which is a root or a child of one node. Roots are at depth 0. A child is
one level deeper than its parent, in the tree of the same instruction, and has a larger number. The
path of a root is its place, that of a child goes on from the path of its parent, and has one
number for each level. No path occurs twice, and paths rise in the order of the nodes. -/
theorem decodeForest_proper {r : Registry} {instructions : List Instruction}
    {inner : List InnerInstruction} {log : Log} {f : Forest Node}
    (hf : decodeForest r instructions inner log = .ok f) :
    f.walk.length = placedCount instructions inner log.markers ∧
    ((f.trees ++ f.subtrees.flatMap Tree.children).map (·.value.invocation.id)).Perm
      (List.range (placedCount instructions inner log.markers)) ∧
    (∀ i root, f.trees[i]? = some root → root.value.invocation.depth = 0 ∧
      root.value.path = [i + 1] ∧ root.value.pathText = Decimal.ofNat (i + 1)) ∧
    (∀ tree ∈ f.subtrees, ∀ k child, tree.children[k]? = some child →
      child.value.invocation.depth = tree.value.invocation.depth + 1 ∧
      child.value.invocation.top = tree.value.invocation.top ∧
      tree.value.invocation.id < child.value.invocation.id ∧
      child.value.path = tree.value.path ++ [k + 1] ∧
      child.value.pathText = tree.value.pathText ++ ("." ++ Decimal.ofNat (k + 1))) ∧
    (∀ n ∈ f.walk, n.path.length = n.invocation.depth + 1) ∧
    (f.walk.map Node.pathText).Nodup ∧
    (f.walk.map Node.path).Pairwise (· < ·) := by
  have hg := (decodeForest_eq_ok_iff.mp hf).2
  have hproper := proper_trees_buildForest instructions inner log.markers
  have hids := ids_of_decodeForest hf
  have hpaths := Forest.paths_of_decode hg
  have hlengths := length_path_of_decodeForest hf
  have hnonempty : ∀ n ∈ f.walk, n.path ≠ [] := by
    intro n hn hpath
    have hlength := hlengths n hn
    rw [hpath] at hlength
    cases hlength
  have hvalues : f.subtrees.map Tree.value = f.walk := map_value_subtreesAll f.trees
  refine ⟨?_, ?_, ?_, ?_, hlengths, ?_, hpaths⟩
  · have hlength := hids.length_eq
    rwa [List.length_map, List.length_range] at hlength
  · have hsubtrees := (perm_append_children f.trees).map (·.value.invocation.id)
    refine hsubtrees.trans ?_
    rw [← hvalues, List.map_map] at hids
    exact hids
  · intro i root hroot
    have hpath := Forest.path_root_of_decode hg hroot
    refine ⟨?_, hpath, ?_⟩
    · exact Forest.forall_roots_of_decode hg (p := fun v => v.depth = 0)
        (fun tree htree => (hproper tree htree).depth) root (List.mem_of_getElem? hroot)
    · rw [Node.pathText, hpath]
      exact List.append_nil _
  · intro tree htree k child hchild
    obtain ⟨whole, hwhole, hsub⟩ := mem_subtreesAll.mp htree
    have hlinked := Forest.linked_of_decode hg (fun tree htree => (hproper tree htree).linked)
    obtain ⟨hpath, hdepth, htop, hid⟩ := hlinked whole hwhole tree hsub k child hchild
    have hvalue : tree.value ∈ f.walk := by
      rw [← hvalues]
      exact List.mem_map_of_mem htree
    exact ⟨hdepth, htop, hid, hpath,
      Node.pathText_eq_of_path_eq_concat (hnonempty _ hvalue) hpath⟩
  · rw [List.Nodup, List.pairwise_map]
    apply (List.pairwise_map.mp hpaths).imp_of_mem
    intro m n hm hn hlt htext
    have hpath := Text.eq_of_join_numerals (hnonempty m hm) (hnonempty n hn) htext
    exact absurd hlt (hpath ▸ List.lt_irrefl _)

/-- A call is logged at a depth that skips levels, and another one is not logged. -/
theorem decodeForest_proper_skipped_levels :
    ∃ f, decodeForest {} [⟨Pubkey.zero, [], []⟩]
        [⟨0, ⟨Pubkey.zero, [1], []⟩, .level 2⟩, ⟨0, ⟨Pubkey.zero, [2], []⟩, .level 3⟩]
        { markers := [some (.invoke Pubkey.zero.text 1), some (.invoke "x" 7)] } = .ok f ∧
      f.walk.length = 3 ∧
      ((f.trees ++ f.subtrees.flatMap Tree.children).map (·.value.invocation.id)).Perm
        [0, 1, 2] ∧
      (∀ n ∈ f.walk, n.path.length = n.invocation.depth + 1) ∧
      (f.walk.map Node.path).Pairwise (· < ·) := by
  have hbuilt : ∃ f, (buildForest [⟨Pubkey.zero, [], []⟩]
      [⟨0, ⟨Pubkey.zero, [1], []⟩, .level 2⟩, ⟨0, ⟨Pubkey.zero, [2], []⟩, .level 3⟩]
      [some (.invoke Pubkey.zero.text 1), some (.invoke "x" 7)]).decode {} = .ok f := by
    apply exists_decode_without_orphans
    · simp [StackHeight.isUsable]
    · simp [InnerInstruction.IsOrphan]
    · exact fun _ _ => Registry.answers_empty _
    · exact fun _ _ => Registry.answers_empty _
  obtain ⟨f, hbuilt⟩ := hbuilt
  have hf : decodeForest {} [⟨Pubkey.zero, [], []⟩]
      [⟨0, ⟨Pubkey.zero, [1], []⟩, .level 2⟩, ⟨0, ⟨Pubkey.zero, [2], []⟩, .level 3⟩]
      { markers := [some (.invoke Pubkey.zero.text 1), some (.invoke "x" 7)] } = .ok f :=
    decodeForest_eq_ok_iff.mpr ⟨rfl, hbuilt⟩
  have hcount : placedCount [⟨Pubkey.zero, [], []⟩]
      [⟨0, ⟨Pubkey.zero, [1], []⟩, .level 2⟩, ⟨0, ⟨Pubkey.zero, [2], []⟩, .level 3⟩]
      [some (.invoke Pubkey.zero.text 1), some (.invoke "x" 7)] = 3 := by
    decide +kernel
  obtain ⟨hlength, hids, -, -, hlengths, -, hpaths⟩ := decodeForest_proper hf
  rw [hcount] at hlength hids
  exact ⟨f, hf, hlength, hids, hlengths, hpaths⟩

end SolanaTx
