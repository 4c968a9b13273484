/-!
# Ordered trees

A node holds a value and its children in order. New nodes are only ever added on
the last branch: from the root to its last child, to the last child of that, and
so on.
-/

namespace SolanaTx

/-- A list with its last item changed. -/
def mapLast {α : Type} (f : α → α) : List α → List α
  | [] => []
  | [a] => [f a]
  | a :: b :: rest => a :: mapLast f (b :: rest)

theorem mapLast_append_singleton {α : Type} (f : α → α) (as : List α) (a : α) :
    mapLast f (as ++ [a]) = as ++ [f a] := by
  induction as with
  | nil => rfl
  | cons b rest ih =>
    cases rest with
    | nil => rfl
    | cons c rest => simpa [mapLast] using ih

inductive Tree (α : Type) where
  | node (value : α) (children : List (Tree α))

namespace Tree

variable {α β ε : Type}

def leaf (value : α) : Tree α := .node value []

instance [Inhabited α] : Inhabited (Tree α) := ⟨leaf default⟩

def value : Tree α → α
  | .node v _ => v

def children : Tree α → List (Tree α)
  | .node _ cs => cs

mutual

/-- The values of a tree, each before those of its children. -/
def preorder : Tree α → List α
  | .node v cs => v :: preorderAll cs

/-- The values of trees, one tree after the other. -/
def preorderAll : List (Tree α) → List α
  | [] => []
  | t :: ts => t.preorder ++ preorderAll ts

end

mutual

/-- A tree and all trees below it, in the order of their roots. -/
def subtrees : Tree α → List (Tree α)
  | .node v cs => .node v cs :: subtreesAll cs

def subtreesAll : List (Tree α) → List (Tree α)
  | [] => []
  | t :: ts => t.subtrees ++ subtreesAll ts

end

mutual

/-- The same tree with other values, unless one of them cannot be had. -/
def mapExcept (f : α → Except ε β) : Tree α → Except ε (Tree β)
  | .node v cs => do
      let v ← f v
      pure (.node v (← mapExceptAll f cs))

def mapExceptAll (f : α → Except ε β) : List (Tree α) → Except ε (List (Tree β))
  | [] => .ok []
  | t :: ts => do
      let t ← t.mapExcept f
      pure (t :: (← mapExceptAll f ts))

end

mutual

/-- The same tree with other values. -/
def map (f : α → β) : Tree α → Tree β
  | .node v cs => .node (f v) (mapAll f cs)

def mapAll (f : α → β) : List (Tree α) → List (Tree β)
  | [] => []
  | t :: ts => t.map f :: mapAll f ts

end

mutual

/-- Each value with its place: the path of the root, and for a child the path of its parent and its
own number, counted from one. -/
def numbered (path : List Nat) : Tree α → Tree (List Nat × α)
  | .node v cs => .node (path, v) (numberedFrom path 1 cs)

def numberedFrom (path : List Nat) : Nat → List (Tree α) → List (Tree (List Nat × α))
  | _, [] => []
  | i, t :: ts => t.numbered (path ++ [i]) :: numberedFrom path (i + 1) ts

end

mutual

/-- How many levels a tree has. -/
def height : Tree α → Nat
  | .node _ cs => heightAll cs + 1

/-- How many levels the highest of some trees has. -/
def heightAll : List (Tree α) → Nat
  | [] => 0
  | t :: ts => max t.height (heightAll ts)

end

/-- How deep on the last branch a node is that is `depth` levels below the root, or the deepest
one there is. -/
def reach : Nat → Tree α → Nat
  | 0, _ => 0
  | depth + 1, .node _ cs =>
      match cs.getLast? with
      | some c => c.reach depth + 1
      | none => 0

/-- Adds a last child to the node that `reach` finds. -/
def attach (leaf : α) : Nat → Tree α → Tree α
  | 0, .node v cs => .node v (cs ++ [.leaf leaf])
  | depth + 1, .node v cs =>
      if cs.isEmpty then .node v [.leaf leaf] else .node v (mapLast (attach leaf depth) cs)

/-- A tree with one value changed: the deepest one that changes, among the first `count` on the
last branch. -/
def updateDeepest (f : α → Option α) : Nat → Tree α → Option (Tree α)
  | 0, _ => none
  | count + 1, .node v cs =>
      match (cs.getLast?).bind (updateDeepest f count) with
      | some c => some (.node v (cs.dropLast ++ [c]))
      | none => (f v).map fun v => .node v cs

end Tree

end SolanaTx
