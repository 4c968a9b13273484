import SolanaTx.Proofs.Fallible
import SolanaTx.Proofs.Invocation.Depth
import SolanaTx.Proofs.Tree.Linked
import SolanaTx.Report.Render

/-!
# What the connectors say

In front of the title of a node stand columns for the nodes above it, which tell whether they are
the last children of their parents, and a branch for the node itself. The tree can be told from
them, since they are the longer the deeper a node is. Trees are drawn as far down as there are
levels; one that is higher is not drawn at all.
-/

namespace SolanaTx

open Fallible

/-! ## Last children -/

namespace Tree

variable {α β : Type}

mutual

/-- Each value with its lineage: for the nodes on the way from the root down to it, without the root
itself, whether they are the last children of their parents. -/
def lineage (above : List Bool) : Tree α → Tree (List Bool × α)
  | .node v cs => .node (above, v) (lineageAll above cs)

/-- Children with their lineages, where `above` is that of their parent. -/
def lineageAll (above : List Bool) : List (Tree α) → List (Tree (List Bool × α))
  | [] => []
  | t :: ts => t.lineage (above ++ [ts.isEmpty]) :: lineageAll above ts

end

mutual

theorem map_snd_lineage (above : List Bool) (t : Tree α) : (t.lineage above).map Prod.snd = t := by
  cases t with
  | node v cs => rw [lineage, map, mapAll_snd_lineageAll above cs]

theorem mapAll_snd_lineageAll (above : List Bool) (ts : List (Tree α)) :
    mapAll Prod.snd (lineageAll above ts) = ts := by
  cases ts with
  | nil => rfl
  | cons t rest =>
      rw [lineageAll, mapAll, map_snd_lineage _ t, mapAll_snd_lineageAll above rest]

end

theorem isEmpty_lineageAll (above : List Bool) (ts : List (Tree α)) :
    (lineageAll above ts).isEmpty = ts.isEmpty := by
  cases ts <;> rfl

/-- The values of the subtrees, without their lineages, are those of the tree. -/
theorem map_value_subtrees_lineage (above : List Bool) (t : Tree α) :
    (t.lineage above).subtrees.map (fun s => s.value.2) = t.preorder := by
  have hvalues := congrArg (List.map Prod.snd) (map_value_subtrees (t.lineage above))
  rwa [List.map_map, ← preorder_map, map_snd_lineage] at hvalues

/-! ## Depths -/

mutual

/-- How deep the nodes of a tree are, where its root has a depth. -/
def depths (depth : Nat) : Tree α → List Nat
  | .node _ cs => depth :: depthsAll (depth + 1) cs

def depthsAll (depth : Nat) : List (Tree α) → List Nat
  | [] => []
  | t :: ts => t.depths depth ++ depthsAll depth ts

end

mutual

theorem map_length_lineage (above : List Bool) (t : Tree α) :
    (t.lineage above).preorder.map (fun m => m.1.length) = t.depths above.length := by
  cases t with
  | node v cs => rw [lineage, preorder, depths, List.map_cons, map_length_lineageAll above cs]

theorem map_length_lineageAll (above : List Bool) (ts : List (Tree α)) :
    (preorderAll (lineageAll above ts)).map (fun m => m.1.length) =
      depthsAll (above.length + 1) ts := by
  cases ts with
  | nil => rfl
  | cons t rest =>
      rw [lineageAll, preorderAll, depthsAll, List.map_append, map_length_lineage _ t,
        map_length_lineageAll above rest, List.length_append]
      rfl

end

/-- What comes behind some trees ends their children. -/
theorem head_depthsAll_append {depth : Nat} {after : List Nat} (ts : List (Tree α))
    (h : ∀ d ∈ after.head?, d < depth) :
    ∀ d ∈ (depthsAll depth ts ++ after).head?, d < depth + 1 := by
  cases ts with
  | nil => exact fun d hd => Nat.lt_succ_of_lt (h d hd)
  | cons t rest =>
      obtain ⟨v, cs⟩ := t
      simp [depthsAll, depths]

mutual

/-- The depths of the nodes in their order tell the shape of a tree, and where it ends. -/
theorem shape_of_depths {depth : Nat} {after after' : List Nat} (t : Tree α) (u : Tree β)
    (hafter : ∀ d ∈ after.head?, d < depth + 1) (hafter' : ∀ d ∈ after'.head?, d < depth + 1)
    (h : t.depths depth ++ after = u.depths depth ++ after') :
    t.map (fun _ => ()) = u.map (fun _ => ()) ∧ after = after' := by
  cases t with
  | node v cs =>
      cases u with
      | node w ds =>
          obtain ⟨hshape, rfl⟩ := shape_of_depthsAll cs ds hafter hafter' (List.cons.inj h).2
          exact ⟨by rw [map, map, hshape], rfl⟩

theorem shape_of_depthsAll {depth : Nat} {after after' : List Nat} (ts : List (Tree α))
    (us : List (Tree β)) (hafter : ∀ d ∈ after.head?, d < depth)
    (hafter' : ∀ d ∈ after'.head?, d < depth)
    (h : depthsAll depth ts ++ after = depthsAll depth us ++ after') :
    mapAll (fun _ => ()) ts = mapAll (fun _ => ()) us ∧ after = after' := by
  cases ts with
  | nil =>
      cases us with
      | nil => exact ⟨rfl, h⟩
      | cons u us =>
          -- another tree would start no deeper than what comes behind
          obtain ⟨w, ds⟩ := u
          obtain rfl : after = _ := h
          simp [depthsAll, depths] at hafter
  | cons t ts =>
      cases us with
      | nil =>
          obtain ⟨v, cs⟩ := t
          obtain rfl : _ = after' := h
          simp [depthsAll, depths] at hafter'
      | cons u us =>
          rw [depthsAll, depthsAll, List.append_assoc, List.append_assoc] at h
          obtain ⟨hfirst, hrest⟩ := shape_of_depths t u (head_depthsAll_append ts hafter)
            (head_depthsAll_append us hafter') h
          obtain ⟨hshape, rfl⟩ := shape_of_depthsAll ts us hafter hafter' hrest
          exact ⟨by rw [mapAll, mapAll, hfirst, hshape], rfl⟩

end

end Tree

/-! ## Connectors -/

namespace Report

/-- The column under a node, which runs on to its next sibling. -/
def column (last : Bool) : Text :=
  if last then "   " else "│  "

/-- The branch from the parent of a node. -/
def branch (last : Bool) : Text :=
  if last then "└─ " else "├─ "

/-- What stands in front of the title of a node with a lineage. -/
def titleLead (lineage : List Bool) : Text :=
  lineage.dropLast.flatMap column ++ lineage.getLast?.elim [] branch

/-- What stands in front of the lines below the title. -/
def bodyLead (lineage : List Bool) (leaf : Bool) : Text :=
  lineage.flatMap column ++ column leaf

/-- The leads of all titles, in the order of the nodes. -/
def titleLeads (trees : List (Tree Node)) : List Text :=
  (Tree.preorderAll (trees.map (Tree.lineage []))).map fun m => titleLead m.1

/-- What is said of a node below its title. -/
def details (body : Option (Node → Except Fault (List Text))) (n : Node) :
    Except Fault (List Text) :=
  match body with
  | some body => body n
  | none => .ok []

/-- The title of the root of a tree and all that is said of it, behind its leads. -/
def nodeLines (body : Option (Node → Except Fault (List Text))) (t : Tree (List Bool × Node)) :
    Except Fault (List Text) :=
  (details body t.value.2).map fun said =>
    (titleLead t.value.1 ++ title t.value.2) ::
      said.map (bodyLead t.value.1 t.children.isEmpty ++ ·)

theorem titleLead_concat (above : List Bool) (last : Bool) :
    titleLead (above ++ [last]) = above.flatMap column ++ branch last := by
  simp [titleLead]

theorem length_titleLead (lineage : List Bool) :
    (titleLead lineage).length = 3 * lineage.length := by
  have hcolumns : ∀ above : List Bool, (above.flatMap column).length = 3 * above.length := by
    intro above
    induction above with
    | nil => rfl
    | cons last rest ih =>
        have hcolumn : (column last).length = 3 := by cases last <;> rfl
        rw [List.flatMap_cons, List.length_append, ih, hcolumn, List.length_cons]
        omega
  rcases List.eq_nil_or_concat' lineage with rfl | ⟨above, last, rfl⟩
  · rfl
  · have hbranch : (branch last).length = 3 := by cases last <;> rfl
    rw [titleLead_concat, List.length_append, hcolumns, hbranch, List.length_append]
    rfl

theorem length_titleLeads (trees : List (Tree Node)) :
    (titleLeads trees).map List.length = (Tree.depthsAll 0 trees).map (3 * ·) := by
  rw [titleLeads, List.map_map]
  induction trees with
  | nil => rfl
  | cons t rest ih =>
      have htree : (t.lineage []).preorder.map (List.length ∘ fun m => titleLead m.1) =
          (t.depths 0).map (3 * ·) := by
        rw [← List.length_nil (α := Bool), ← Tree.map_length_lineage [] t, List.map_map]
        exact List.map_congr_left fun m _ => length_titleLead m.1
      rw [List.map_cons, Tree.preorderAll, Tree.depthsAll, List.map_append, List.map_append, ih,
        htree]

/-! ## Drawn trees -/

variable {body : Option (Node → Except Fault (List Text))}

theorem treeLines_node {levels : Nat} {lead below : Text} {n : Node} {calls : List (Tree Node)} :
    treeLines body (levels + 1) lead below (.node n calls) = (details body n >>= fun said =>
      callLines body levels below calls >>= fun inner =>
        pure ((lead ++ title n) ::
          said.map ((below ++ if calls.isEmpty then blank else pipe) ++ ·) ++ inner)) := by
  cases body with
  | none => rfl
  | some body =>
      rw [treeLines, details]
      cases body n <;> rfl

theorem callLines_cons {levels : Nat} {below : Text} {t : Tree Node} {rest : List (Tree Node)} :
    callLines body levels below (t :: rest) =
      (treeLines body levels (below ++ branch rest.isEmpty) (below ++ column rest.isEmpty) t >>=
        fun lines => callLines body levels below rest >>= fun others =>
          pure (lines ++ others)) := by
  rw [callLines]
  cases rest <;> rfl

theorem nodeLines_node {above : List Bool} {n : Node} {calls : List (Tree Node)} :
    nodeLines body (.node (above, n) (Tree.lineageAll above calls)) =
      (details body n >>= fun said => pure ((titleLead above ++ title n) ::
        said.map ((above.flatMap column ++ if calls.isEmpty then blank else pipe) ++ ·))) := by
  rw [← Tree.isEmpty_lineageAll above calls, nodeLines, Tree.value]
  cases details body n <;> rfl

mutual

/-- The lines of a tree are those of its nodes, each behind the leads of its lineage. -/
theorem treeLines_lineage {levels : Nat} (above : List Bool) (t : Tree Node)
    (h : t.height ≤ levels) :
    treeLines body levels (titleLead above) (above.flatMap column) t =
      List.flatten <$> (t.lineage above).subtrees.mapM (nodeLines body) := by
  cases t with
  | node n calls =>
      rw [Tree.height] at h
      obtain ⟨levels, rfl⟩ := Nat.exists_eq_add_of_le' h
      have hcalls : Tree.heightAll calls ≤ levels + Tree.heightAll calls := Nat.le_add_left _ _
      rw [← Nat.add_assoc, treeLines_node, callLines_lineage above calls hcalls, Tree.lineage,
        Tree.subtrees, List.mapM_cons, nodeLines_node]
      simp

theorem callLines_lineage {levels : Nat} (above : List Bool) (calls : List (Tree Node))
    (h : Tree.heightAll calls ≤ levels) :
    callLines body levels (above.flatMap column) calls =
      List.flatten <$> (Tree.subtreesAll (Tree.lineageAll above calls)).mapM (nodeLines body) := by
  cases calls with
  | nil => rfl
  | cons t rest =>
      obtain ⟨ht, hrest⟩ := Nat.max_le.mp h
      have hbelow : above.flatMap column ++ column rest.isEmpty =
          (above ++ [rest.isEmpty]).flatMap column := by
        rw [List.flatMap_append, List.flatMap_singleton]
      rw [callLines_cons, ← titleLead_concat, hbelow, treeLines_lineage _ t ht,
        callLines_lineage above rest hrest, Tree.lineageAll, Tree.subtreesAll, List.mapM_append]
      simp

end

theorem treeLines_root {levels : Nat} {t : Tree Node} (h : t.height ≤ levels) :
    treeLines body levels [] [] t =
      ((t.lineage []).subtrees.mapM (nodeLines body)).map List.flatten :=
  treeLines_lineage [] t h

/-- Without bodies there is one line for each node of a tree, in their order. -/
theorem treeLines_none {levels : Nat} {t : Tree Node} (h : t.height ≤ levels) :
    treeLines none levels [] [] t =
      .ok ((t.lineage []).preorder.map fun m => titleLead m.1 ++ title m.2) := by
  have hnode : nodeLines none = fun s : Tree (List Bool × Node) =>
      (pure [titleLead s.value.1 ++ title s.value.2] : Except Fault (List Text)) := rfl
  rw [treeLines_root h, hnode, List.mapM_pure, ← Tree.map_value_subtrees, List.map_map]
  refine congrArg Except.ok ?_
  rw [← List.flatMap_def, ← List.map_eq_flatMap]
  rfl

/-! ## Trees that are too high -/

mutual

theorem height_le_of_treeLines {levels : Nat} {lead below : Text} (t : Tree Node)
    {lines : List Text} (h : treeLines body levels lead below t = .ok lines) : t.height ≤ levels := by
  cases t with
  | node n calls =>
      cases levels with
      | zero => cases h
      | succ levels =>
          obtain ⟨said, -, hcalls⟩ := bind_eq_ok.mp (treeLines_node.symm.trans h)
          obtain ⟨inner, hinner, -⟩ := bind_eq_ok.mp hcalls
          exact Nat.succ_le_succ (heightAll_le_of_callLines calls hinner)

theorem heightAll_le_of_callLines {levels : Nat} {below : Text} (calls : List (Tree Node))
    {lines : List Text} (h : callLines body levels below calls = .ok lines) :
    Tree.heightAll calls ≤ levels := by
  cases calls with
  | nil => exact Nat.zero_le _
  | cons t rest =>
      obtain ⟨first, others, hfirst, hothers, -⟩ :=
        bind_bind_eq_ok.mp (callLines_cons.symm.trans h)
      exact Nat.max_le.mpr
        ⟨height_le_of_treeLines t hfirst, heightAll_le_of_callLines rest hothers⟩

end

mutual

/-- A tree fails where something that is to be said of its nodes does, or for want of levels. -/
theorem failsOnly_treeLines {p : Fault → Prop} (hendless : p .endless) (levels : Nat)
    (lead below : Text) (t : Tree Node) (h : ∀ n ∈ t.preorder, FailsOnly p (details body n)) :
    FailsOnly p (treeLines body levels lead below t) := by
  cases t with
  | node n calls =>
      obtain ⟨hn, hcalls⟩ := List.forall_mem_cons.mp h
      cases levels with
      | zero => exact failsOnly_error hendless
      | succ levels =>
          rw [treeLines_node]
          exact hn.bind fun _ _ => (failsOnly_callLines hendless levels below calls hcalls).bind
            fun _ _ => failsOnly_pure _

theorem failsOnly_callLines {p : Fault → Prop} (hendless : p .endless) (levels : Nat)
    (below : Text) (calls : List (Tree Node))
    (h : ∀ n ∈ Tree.preorderAll calls, FailsOnly p (details body n)) :
    FailsOnly p (callLines body levels below calls) := by
  cases calls with
  | nil => exact failsOnly_ok _
  | cons t rest =>
      obtain ⟨ht, hrest⟩ := List.forall_mem_append.mp h
      rw [callLines_cons]
      exact (failsOnly_treeLines hendless levels _ _ t ht).bind fun _ _ =>
        (failsOnly_callLines hendless levels below rest hrest).bind fun _ _ => failsOnly_pure _

end

/-! ## Drawn forests -/

theorem forestLines_eq_ok_iff {trees : List (Tree Node)} {lines : List Text} :
    forestLines body trees = .ok lines ↔
      ∃ parts, trees.mapM (treeLines body maxHeight [] []) = .ok parts ∧
        lines = if body.isSome then List.intercalate [[]] parts else parts.flatten := by
  unfold forestLines
  rw [bind_eq_ok]
  refine exists_congr fun parts => and_congr_right fun _ => ?_
  split <;> rw [pure_eq_ok, eq_comm]

theorem forestLines_none {trees : List (Tree Node)} (h : Tree.heightAll trees ≤ maxHeight) :
    forestLines none trees = .ok ((Tree.preorderAll (trees.map (Tree.lineage []))).map fun m =>
      titleLead m.1 ++ title m.2) := by
  have htrees : trees.mapM (treeLines none maxHeight "" "") = trees.mapM fun t : Tree Node => (pure
      ((t.lineage []).preorder.map fun m => titleLead m.1 ++ title m.2) :
        Except Fault (List Text)) :=
    mapM_congr fun t ht => treeLines_none (Tree.heightAll_le_iff.mp h t ht)
  rw [forestLines, htrees, List.mapM_pure, Tree.preorderAll_eq_flatMap, List.flatMap_map,
    List.map_flatMap, List.flatMap_def]
  rfl

theorem forestLines_some (body : Node → Except Fault (List Text)) {trees : List (Tree Node)}
    (h : Tree.heightAll trees ≤ maxHeight) :
    forestLines (some body) trees = (trees.mapM fun t : Tree Node =>
      ((t.lineage []).subtrees.mapM (nodeLines (some body))).map List.flatten).map
        (List.intercalate [[]]) := by
  have htrees : trees.mapM (treeLines (some body) maxHeight "" "") = trees.mapM fun t : Tree Node =>
      ((t.lineage []).subtrees.mapM (nodeLines (some body))).map List.flatten :=
    mapM_congr fun t ht => treeLines_root (Tree.heightAll_le_iff.mp h t ht)
  rw [forestLines, htrees]
  rfl

theorem heightAll_le_of_forestLines {trees : List (Tree Node)} {lines : List Text}
    (h : forestLines body trees = .ok lines) : Tree.heightAll trees ≤ maxHeight := by
  obtain ⟨parts, hparts, -⟩ := forestLines_eq_ok_iff.mp h
  rw [Tree.heightAll_le_iff]
  intro t ht
  obtain ⟨part, -, hpart⟩ := exists_mem_of_mapM hparts t ht
  exact height_le_of_treeLines t hpart

/-- A forest of which all can be said runs out of levels, where it is too high. -/
theorem forestLines_of_lt {trees : List (Tree Node)}
    (hsaid : ∀ n ∈ Tree.preorderAll trees, ∃ said, details body n = .ok said)
    (h : maxHeight < Tree.heightAll trees) : forestLines body trees = .error .endless := by
  have hfails : FailsOnly (· = .endless) (forestLines body trees) := by
    refine (failsOnly_mapM fun t ht => ?_).bind fun parts _ => ?_
    · refine failsOnly_treeLines (p := (· = .endless)) rfl _ _ _ t fun n hn => ?_
      obtain ⟨said, hsaid⟩ := hsaid n (by
        rw [Tree.preorderAll_eq_flatMap]
        exact List.mem_flatMap_of_mem ht hn)
      rw [hsaid]
      exact failsOnly_ok said
    · split <;> exact failsOnly_pure _
  cases hlines : forestLines body trees with
  | error e => rw [hfails e hlines]
  | ok lines => exact absurd (heightAll_le_of_forestLines hlines) (Nat.not_le.mpr h)

theorem shape_of_titleLeads {trees trees' : List (Tree Node)}
    (h : titleLeads trees = titleLeads trees') :
    Tree.mapAll (fun _ => ()) trees = Tree.mapAll (fun _ => ()) trees' := by
  have hlengths := congrArg (List.map List.length) h
  rw [length_titleLeads, length_titleLeads] at hlengths
  have hdepths : Tree.depthsAll 0 trees = Tree.depthsAll 0 trees' :=
    List.map_injective_iff.mpr (fun m n => Nat.eq_of_mul_eq_mul_left (by decide)) hlengths
  rw [← List.append_nil (Tree.depthsAll 0 trees), ← List.append_nil (Tree.depthsAll 0 trees')]
    at hdepths
  exact (Tree.shape_of_depthsAll trees trees' (by simp) (by simp) hdepths).1

/-- A drawn forest tells its shape. In front of the title of a node stand a column for each node
between the root and it, which is blank under the last child of a parent, and the branch to the node
itself. The other lines of a node go on with the column of the node, and with another one that leads
to its children. So the lead of a title is three times as long as its node is deep, and no two
forests of different shapes have the same leads. A forest with more levels than there are to draw
has no lines. -/
theorem forestLines_connectors (trees : List (Tree Node)) :
    Tree.mapAll Prod.snd (trees.map (Tree.lineage [])) = trees ∧
    (Tree.heightAll trees ≤ maxHeight →
      forestLines none trees = .ok ((Tree.preorderAll (trees.map (Tree.lineage []))).map fun m =>
        titleLead m.1 ++ title m.2) ∧
      ∀ body, forestLines (some body) trees = (trees.mapM fun t : Tree Node =>
        ((t.lineage []).subtrees.mapM (nodeLines (some body))).map List.flatten).map
          (List.intercalate [[]])) ∧
    (maxHeight < Tree.heightAll trees →
      forestLines none trees = .error .endless ∧
      ∀ body, (∀ lines, forestLines (some body) trees ≠ .ok lines) ∧
        ((∀ n ∈ Tree.preorderAll trees, ∃ said, body n = .ok said) →
          forestLines (some body) trees = .error .endless)) ∧
    (titleLeads trees).map List.length = (Tree.depthsAll 0 trees).map (3 * ·) ∧
    ∀ trees', titleLeads trees = titleLeads trees' →
      Tree.mapAll (fun _ => ()) trees = Tree.mapAll (fun _ => ()) trees' := by
  refine ⟨?_, fun h => ⟨forestLines_none h, fun body => forestLines_some body h⟩,
    fun h => ⟨?_, fun body => ⟨fun lines hlines => ?_, fun hsaid => forestLines_of_lt hsaid h⟩⟩,
    length_titleLeads trees, fun trees' => shape_of_titleLeads⟩
  · simp [Tree.mapAll_eq_map, Tree.map_snd_lineage, Function.comp_def]
  · exact forestLines_of_lt (fun n _ => ⟨[], rfl⟩) h
  · exact absurd (heightAll_le_of_forestLines hlines) (Nat.not_le.mpr h)

/-- A forest is had of 999 nested calls, and no lines of it. -/
theorem forestLines_nestedCalls :
    ∃ f, decodeForest {} [⟨Pubkey.zero, [], []⟩] (nestedCalls ⟨Pubkey.zero, [], []⟩ 0 999) {} =
        .ok f ∧
      forestLines none f.trees = .error .endless ∧
      ∀ body lines, forestLines (some body) f.trees ≠ .ok lines := by
  obtain ⟨f, hf, hcalls⟩ := exists_decodeForest_nestedCalls ⟨Pubkey.zero, [], []⟩ 999
  have hheight : maxHeight < Tree.heightAll f.trees := Nat.lt_trans (by decide) hcalls
  exact ⟨f, hf, forestLines_of_lt (fun n _ => ⟨[], rfl⟩) hheight,
    fun body lines hlines => absurd (heightAll_le_of_forestLines hlines) (Nat.not_le.mpr hheight)⟩

end Report

end SolanaTx
