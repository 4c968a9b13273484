import Mathlib.Data.List.Lex
import Mathlib.Data.List.Perm.Basic
import SolanaTx.Proofs.Tree.LastBranch

/-!
# Parents and children

A relation between each node of a tree and its children is a property of the tree. It
is kept by a view of the values, and in a numbered tree it holds of the paths too: a
child has the path of its parent and its own number. Paths rise in the order of the
nodes.
-/

namespace SolanaTx.Tree

variable {α β : Type}

theorem subtreesAll_eq_flatMap (ts : List (Tree α)) : subtreesAll ts = ts.flatMap subtrees := by
  induction ts with
  | nil => rfl
  | cons t rest ih => simp [subtreesAll, ih]

theorem mem_subtreesAll {s : Tree α} {ts : List (Tree α)} :
    s ∈ subtreesAll ts ↔ ∃ t ∈ ts, s ∈ t.subtrees := by
  rw [subtreesAll_eq_flatMap, List.mem_flatMap]

mutual

theorem map_value_subtrees (t : Tree α) : t.subtrees.map value = t.preorder := by
  cases t with
  | node v cs => rw [subtrees, preorder, List.map_cons, map_value_subtreesAll cs, value]

theorem map_value_subtreesAll (ts : List (Tree α)) :
    (subtreesAll ts).map value = preorderAll ts := by
  cases ts with
  | nil => rfl
  | cons t rest =>
      rw [subtreesAll, preorderAll, List.map_append, map_value_subtrees t,
        map_value_subtreesAll rest]

end

mutual

theorem subtrees_map (f : α → β) (t : Tree α) : (t.map f).subtrees = t.subtrees.map (map f) := by
  cases t with
  | node v cs => rw [map, subtrees, subtrees, List.map_cons, subtreesAll_mapAll f cs, map]

theorem subtreesAll_mapAll (f : α → β) (ts : List (Tree α)) :
    subtreesAll (mapAll f ts) = (subtreesAll ts).map (map f) := by
  cases ts with
  | nil => rfl
  | cons t rest =>
      rw [mapAll, subtreesAll, subtreesAll, List.map_append, subtrees_map f t,
        subtreesAll_mapAll f rest]

end

theorem getElem?_children_map (f : α → β) (t : Tree α) (k : Nat) :
    (t.map f).children[k]? = t.children[k]?.map (map f) := by
  obtain ⟨v, cs⟩ := t
  rw [map, children, children, mapAll_eq_map, List.getElem?_map]

mutual

/-- A tree and the children of all its nodes are all its subtrees. -/
theorem perm_cons_children (t : Tree α) : (t :: t.subtrees.flatMap children).Perm t.subtrees := by
  cases t with
  | node v cs =>
      rw [subtrees, List.flatMap_cons, children]
      exact (perm_append_children cs).cons _

theorem perm_append_children (ts : List (Tree α)) :
    (ts ++ (subtreesAll ts).flatMap children).Perm (subtreesAll ts) := by
  cases ts with
  | nil => exact .nil
  | cons t rest =>
      rw [subtreesAll, List.flatMap_append, List.cons_append]
      calc
        List.Perm _ ((t :: t.subtrees.flatMap children) ++
            (rest ++ (subtreesAll rest).flatMap children)) :=
          (List.perm_append_comm_assoc _ _ _).cons t
        List.Perm _ (t.subtrees ++ subtreesAll rest) :=
          (perm_cons_children t).append (perm_append_children rest)

end

/-! ## A relation between parents and children -/

/-- Whether each node of a tree stands in a relation to its children. The first child has the
place 0. -/
def Linked (R : Nat → α → α → Prop) (t : Tree α) : Prop :=
  ∀ s ∈ t.subtrees, ∀ k c, s.children[k]? = some c → R k s.value c.value

variable {R : Nat → α → α → Prop}

theorem linked_node_iff {v : α} {cs : List (Tree α)} :
    (node v cs).Linked R ↔ (∀ k c, cs[k]? = some c → R k v c.value) ∧ ∀ c ∈ cs, c.Linked R := by
  simp only [Linked, subtrees, List.forall_mem_cons, mem_subtreesAll, children, value]
  apply and_congr_right
  intro _
  constructor
  · intro h c hc s hs
    exact h s ⟨c, hc, hs⟩
  · rintro h s ⟨c, hc, hs⟩
    exact h c hc s hs

/-- A relation that does not see the places of children. -/
theorem linked_node_iff_forall_mem {R : α → α → Prop} {v : α} {cs : List (Tree α)} :
    ((node v cs).Linked fun _ => R) ↔ ∀ c ∈ cs, R v c.value ∧ c.Linked fun _ => R := by
  rw [linked_node_iff, forall₂_and]
  apply and_congr_left'
  constructor
  · intro h c hc
    obtain ⟨k, hk⟩ := List.mem_iff_getElem?.mp hc
    exact h k c hk
  · intro h k c hc
    exact h c (List.mem_of_getElem? hc)

theorem linked_leaf (v : α) : (leaf v).Linked R := by
  rw [leaf, linked_node_iff]
  simp

theorem Linked.mono {R' : Nat → α → α → Prop} {t : Tree α} (h : t.Linked R)
    (hR : ∀ k v c, R k v c → R' k v c) : t.Linked R' :=
  fun s hs k c hc => hR k _ _ (h s hs k c hc)

theorem linked_map_iff {R : Nat → β → β → Prop} {f : α → β} {t : Tree α} :
    (t.map f).Linked R ↔ t.Linked fun k v c => R k (f v) (f c) := by
  simp only [Linked, subtrees_map, List.forall_mem_map, getElem?_children_map]
  apply forall₂_congr
  intro s _
  apply forall_congr'
  intro k
  constructor
  · intro h c hc
    have hmapped := h (c.map f) (by rw [hc]; rfl)
    rw [value_map, value_map] at hmapped
    exact hmapped
  · intro h mapped hmapped
    obtain ⟨c, hc, rfl⟩ := Option.map_eq_some_iff.mp hmapped
    rw [value_map, value_map]
    exact h c hc

mutual

/-- What passes from parents to children holds below a root that has it. -/
theorem Linked.forall_preorder {p : α → Prop} {t : Tree α}
    (h : t.Linked fun _ v c => p v → p c) (hroot : p t.value) : ∀ v ∈ t.preorder, p v := by
  obtain ⟨v, cs⟩ := t
  obtain ⟨hpass, hlinked⟩ := linked_node_iff.mp h
  rw [preorder, List.forall_mem_cons]
  refine ⟨hroot, Linked.forall_preorderAll hlinked ?_⟩
  intro c hc
  obtain ⟨k, hk⟩ := List.mem_iff_getElem?.mp hc
  exact hpass k c hk hroot

theorem Linked.forall_preorderAll {p : α → Prop} {ts : List (Tree α)}
    (h : ∀ t ∈ ts, t.Linked fun _ v c => p v → p c) (hroots : ∀ t ∈ ts, p t.value) :
    ∀ v ∈ preorderAll ts, p v := by
  cases ts with
  | nil => simp [preorderAll]
  | cons t rest =>
      rw [List.forall_mem_cons] at h hroots
      rw [preorderAll, List.forall_mem_append]
      exact ⟨Linked.forall_preorder h.1 hroots.1, Linked.forall_preorderAll h.2 hroots.2⟩

end

/-! ## Paths -/

theorem getElem?_numberedFrom (path : List Nat) (i : Nat) (ts : List (Tree α)) (k : Nat) :
    (numberedFrom path i ts)[k]? = ts[k]?.map (numbered (path ++ [i + k])) := by
  induction ts generalizing i k with
  | nil => rfl
  | cons t rest ih =>
      cases k with
      | zero => rfl
      | succ k =>
          rw [numberedFrom, List.getElem?_cons_succ, List.getElem?_cons_succ, ih, Nat.add_assoc,
            Nat.add_comm 1 k]

theorem value_numbered (path : List Nat) (t : Tree α) :
    (t.numbered path).value = (path, t.value) := by
  cases t
  rfl

mutual

/-- In a numbered tree the path of a child is that of its parent with the number of the child. -/
theorem linked_numbered (path : List Nat) {t : Tree α} (h : t.Linked R) :
    (t.numbered path).Linked fun k v c => c.1 = v.1 ++ [k + 1] ∧ R k v.2 c.2 := by
  obtain ⟨v, cs⟩ := t
  obtain ⟨hcs, hlinked⟩ := linked_node_iff.mp h
  rw [numbered, linked_node_iff]
  refine ⟨?_, linked_numberedFrom path 1 hlinked⟩
  intro k c hc
  rw [getElem?_numberedFrom] at hc
  obtain ⟨child, hchild, rfl⟩ := Option.map_eq_some_iff.mp hc
  rw [value_numbered, Nat.add_comm 1 k]
  exact ⟨rfl, hcs k child hchild⟩

theorem linked_numberedFrom (path : List Nat) (i : Nat) {ts : List (Tree α)}
    (h : ∀ t ∈ ts, t.Linked R) :
    ∀ u ∈ numberedFrom path i ts, u.Linked fun k v c => c.1 = v.1 ++ [k + 1] ∧ R k v.2 c.2 := by
  cases ts with
  | nil => simp [numberedFrom]
  | cons t rest =>
      rw [List.forall_mem_cons] at h
      rw [numberedFrom, List.forall_mem_cons]
      exact ⟨linked_numbered (path ++ [i]) h.1, linked_numberedFrom path (i + 1) h.2⟩

end

theorem lt_append_cons (path : List Nat) (j : Nat) (rest : List Nat) :
    path < path ++ j :: rest := by
  have hlt : path ++ [] < path ++ j :: rest := List.append_left_lt (List.nil_lt_cons j rest)
  rwa [List.append_nil] at hlt

theorem append_cons_lt (path : List Nat) {i j : Nat} (hij : i < j) (rest rest' : List Nat) :
    path ++ i :: rest < path ++ j :: rest' :=
  List.append_left_lt (List.cons_lt_cons_iff.mpr (Or.inl hij))

mutual

/-- The paths below a node rise, and go on from its own. -/
theorem paths_numbered (path : List Nat) (t : Tree α) :
    ((t.numbered path).preorder.map Prod.fst).Pairwise (· < ·) ∧
      ∀ p ∈ (t.numbered path).preorder.map Prod.fst, path <+: p := by
  obtain ⟨v, cs⟩ := t
  obtain ⟨hrise, hbelow⟩ := paths_numberedFrom path 1 cs
  rw [numbered, preorder, List.map_cons, List.pairwise_cons, List.forall_mem_cons]
  refine ⟨⟨?_, hrise⟩, List.prefix_rfl, ?_⟩
  · intro p hp
    obtain ⟨j, rest, -, rfl⟩ := hbelow p hp
    exact lt_append_cons path j rest
  · intro p hp
    obtain ⟨j, rest, -, rfl⟩ := hbelow p hp
    exact List.prefix_append path _

theorem paths_numberedFrom (path : List Nat) (i : Nat) (ts : List (Tree α)) :
    ((preorderAll (numberedFrom path i ts)).map Prod.fst).Pairwise (· < ·) ∧
      ∀ p ∈ (preorderAll (numberedFrom path i ts)).map Prod.fst,
        ∃ j rest, i ≤ j ∧ p = path ++ j :: rest := by
  cases ts with
  | nil => simp [numberedFrom, preorderAll]
  | cons t rest =>
      obtain ⟨hfirst, hwithin⟩ := paths_numbered (path ++ [i]) t
      obtain ⟨hlater, hbehind⟩ := paths_numberedFrom path (i + 1) rest
      rw [numberedFrom, preorderAll, List.map_append, List.pairwise_append,
        List.forall_mem_append]
      refine ⟨⟨hfirst, hlater, ?_⟩, ?_, ?_⟩
      · intro p hp q hq
        obtain ⟨below, rfl⟩ := hwithin p hp
        obtain ⟨j, below', hij, rfl⟩ := hbehind q hq
        rw [List.append_assoc, List.singleton_append]
        exact append_cons_lt path hij below below'
      · intro p hp
        obtain ⟨below, rfl⟩ := hwithin p hp
        exact ⟨i, below, Nat.le_refl i, by rw [List.append_assoc, List.singleton_append]⟩
      · intro p hp
        obtain ⟨j, below, hij, rfl⟩ := hbehind p hp
        exact ⟨j, below, Nat.le_of_succ_le hij, rfl⟩

end

end SolanaTx.Tree
