import Mathlib.Data.List.Basic
import SolanaTx.Tree

/-!
# The last branch of a tree

Growing a tree at its last branch appends to the order of its values, and changing
a value there keeps the shape. A tree that is open along its last branch is a
subtree plugged into the frames above it; growth and change happen in that subtree.
-/

namespace SolanaTx.Tree

variable {α β γ : Type}

@[simp] theorem preorderAll_append (as bs : List (Tree α)) :
    preorderAll (as ++ bs) = preorderAll as ++ preorderAll bs := by
  induction as with
  | nil => rfl
  | cons a rest ih => simp [preorderAll, ih]

theorem mapAll_eq_map (f : α → β) (ts : List (Tree α)) : mapAll f ts = ts.map (map f) := by
  induction ts with
  | nil => rfl
  | cons t rest ih => simp [mapAll, ih]

theorem preorderAll_eq_flatMap (ts : List (Tree α)) : preorderAll ts = ts.flatMap preorder := by
  induction ts with
  | nil => rfl
  | cons t rest ih => simp [preorderAll, ih]

/-- The root comes first in the order of the values. -/
theorem preorder_eq_value_cons (t : Tree α) :
    t.preorder = t.value :: preorderAll t.children := by
  cases t
  rfl

theorem value_map (f : α → β) (t : Tree α) : (t.map f).value = f t.value := by
  cases t
  rfl

mutual

theorem preorder_map (f : α → β) (t : Tree α) : (t.map f).preorder = t.preorder.map f := by
  cases t with
  | node v cs => rw [map, preorder, preorder, List.map_cons, preorderAll_mapAll f cs]

theorem preorderAll_mapAll (f : α → β) (ts : List (Tree α)) :
    preorderAll (mapAll f ts) = (preorderAll ts).map f := by
  cases ts with
  | nil => rfl
  | cons t rest =>
      rw [mapAll, preorderAll, preorderAll, List.map_append, preorder_map f t,
        preorderAll_mapAll f rest]

end

mutual

theorem map_map (f : α → β) (g : β → γ) (t : Tree α) :
    (t.map f).map g = t.map fun v => g (f v) := by
  cases t with
  | node v cs => rw [map, map, map, mapAll_mapAll f g cs]

theorem mapAll_mapAll (f : α → β) (g : β → γ) (ts : List (Tree α)) :
    mapAll g (mapAll f ts) = mapAll (fun v => g (f v)) ts := by
  cases ts with
  | nil => rfl
  | cons t rest => rw [mapAll, mapAll, mapAll, map_map f g t, mapAll_mapAll f g rest]

end

/-! ## Growing and changing the last branch -/

@[simp] theorem attach_zero (leaf v : α) (cs : List (Tree α)) :
    (node v cs).attach leaf 0 = node v (cs ++ [.leaf leaf]) := rfl

@[simp] theorem attach_succ_nil (leaf v : α) (depth : Nat) :
    (node v []).attach leaf (depth + 1) = node v [.leaf leaf] := rfl

@[simp] theorem attach_succ_concat (leaf v : α) (depth : Nat) (cs : List (Tree α)) (c : Tree α) :
    (node v (cs ++ [c])).attach leaf (depth + 1) = node v (cs ++ [c.attach leaf depth]) := by
  simp [attach, mapLast_append_singleton]

@[simp] theorem reach_succ_concat (v : α) (depth : Nat) (cs : List (Tree α)) (c : Tree α) :
    (node v (cs ++ [c])).reach (depth + 1) = c.reach depth + 1 := by
  simp [reach]

theorem updateDeepest_succ_concat_of_some {f : α → Option α} (v : α) {count : Nat}
    (cs : List (Tree α)) {c c' : Tree α} (hc : c.updateDeepest f count = some c') :
    (node v (cs ++ [c])).updateDeepest f (count + 1) = some (node v (cs ++ [c'])) := by
  simp [updateDeepest, hc]

theorem updateDeepest_succ_concat_of_none {f : α → Option α} (v : α) {count : Nat}
    (cs : List (Tree α)) {c : Tree α} (hc : c.updateDeepest f count = none) :
    (node v (cs ++ [c])).updateDeepest f (count + 1) =
      (f v).map fun v' => node v' (cs ++ [c]) := by
  simp [updateDeepest, hc]

theorem updateDeepest_succ_nil (f : α → Option α) (v : α) (count : Nat) :
    (node v []).updateDeepest f (count + 1) = (f v).map fun v' => node v' [] := rfl

theorem value_attach (leaf : α) (depth : Nat) (t : Tree α) :
    (t.attach leaf depth).value = t.value := by
  obtain ⟨v, cs⟩ := t
  cases depth with
  | zero => rfl
  | succ depth =>
      rcases List.eq_nil_or_concat' cs with rfl | ⟨init, c, rfl⟩
      · rfl
      · rw [attach_succ_concat]
        rfl

/-- A new leaf on the last branch is the last of all values. -/
theorem preorder_attach (leaf : α) (depth : Nat) (t : Tree α) :
    (t.attach leaf depth).preorder = t.preorder ++ [leaf] := by
  induction depth generalizing t with
  | zero =>
      obtain ⟨v, cs⟩ := t
      simp [preorder, preorderAll, Tree.leaf]
  | succ depth ih =>
      obtain ⟨v, cs⟩ := t
      rcases List.eq_nil_or_concat' cs with rfl | ⟨init, c, rfl⟩
      · rfl
      · rw [attach_succ_concat]
        simp [preorder, preorderAll, ih c]

/-- A change that a function does not see leaves the shape and all that the function sees. -/
theorem map_updateDeepest {f : α → Option α} {g : α → β}
    (hf : ∀ v v', f v = some v' → g v' = g v) {count : Nat} {t t' : Tree α}
    (ht : t.updateDeepest f count = some t') : t'.map g = t.map g := by
  induction count generalizing t t' with
  | zero => simp [updateDeepest] at ht
  | succ count ih =>
      obtain ⟨v, cs⟩ := t
      rcases List.eq_nil_or_concat' cs with rfl | ⟨init, c, rfl⟩
      · rw [updateDeepest_succ_nil] at ht
        obtain ⟨v', hv, rfl⟩ := Option.map_eq_some_iff.mp ht
        rw [map, map, hf v v' hv]
      · cases hc : c.updateDeepest f count with
        | some c' =>
            rw [updateDeepest_succ_concat_of_some v init hc] at ht
            obtain rfl := Option.some.inj ht
            simp only [map, mapAll_eq_map, List.map_append, List.map_cons, ih hc]
        | none =>
            rw [updateDeepest_succ_concat_of_none v init hc] at ht
            obtain ⟨v', hv, rfl⟩ := Option.map_eq_some_iff.mp ht
            rw [map, map, hf v v' hv]

/-- Nothing changes where no value does. -/
theorem updateDeepest_eq_none {f : α → Option α} {t : Tree α}
    (hf : ∀ v ∈ t.preorder, f v = none) (count : Nat) : t.updateDeepest f count = none := by
  induction count generalizing t with
  | zero => rfl
  | succ count ih =>
      obtain ⟨v, cs⟩ := t
      have hv : f v = none := hf v (by simp [preorder])
      rcases List.eq_nil_or_concat' cs with rfl | ⟨init, c, rfl⟩
      · rw [updateDeepest_succ_nil, hv]
        rfl
      · have hc : c.updateDeepest f count = none := by
          apply ih
          intro w hw
          exact hf w (by simp [preorder, preorderAll, hw])
        rw [updateDeepest_succ_concat_of_none v init hc, hv]
        rfl

/-! ## The values of a tree that grows or changes -/

/-- Growing a tree changes no value. -/
theorem attach_map (f : α → β) (leaf : α) (depth : Nat) (t : Tree α) :
    (t.map f).attach (f leaf) depth = (t.attach leaf depth).map f := by
  induction depth generalizing t with
  | zero =>
      obtain ⟨v, cs⟩ := t
      simp [map, mapAll_eq_map, Tree.leaf]
  | succ depth ih =>
      obtain ⟨v, cs⟩ := t
      rcases List.eq_nil_or_concat' cs with rfl | ⟨init, c, rfl⟩
      · rfl
      · simp [map, mapAll_eq_map, ih]

/-- A change that commutes with a function is the same before and after it. -/
theorem updateDeepest_map {f : α → β} {change : α → Option α} {change' : β → Option β}
    (hchange : ∀ v, change' (f v) = (change v).map f) (count : Nat) (t : Tree α) :
    (t.map f).updateDeepest change' count = (t.updateDeepest change count).map (map f) := by
  induction count generalizing t with
  | zero => rfl
  | succ count ih =>
      obtain ⟨v, cs⟩ := t
      rcases List.eq_nil_or_concat' cs with rfl | ⟨init, c, rfl⟩
      · simp [map, mapAll, updateDeepest_succ_nil, hchange, Function.comp_def]
      · cases hc : c.updateDeepest change count with
        | some c' =>
            have hc' := ih c
            rw [hc, Option.map_some] at hc'
            rw [updateDeepest_succ_concat_of_some v init hc, map, mapAll_eq_map, List.map_append,
              List.map_singleton, updateDeepest_succ_concat_of_some _ _ hc']
            simp [map, mapAll_eq_map]
        | none =>
            have hc' := ih c
            rw [hc, Option.map_none] at hc'
            rw [updateDeepest_succ_concat_of_none v init hc, map, mapAll_eq_map, List.map_append,
              List.map_singleton, updateDeepest_succ_concat_of_none _ _ hc', hchange]
            simp [map, mapAll_eq_map, Function.comp_def]

/-! ## How far the last branch reaches -/

/-- The last branch does not depend on the values. -/
theorem reach_map (f : α → β) (depth : Nat) (t : Tree α) :
    (t.map f).reach depth = t.reach depth := by
  induction depth generalizing t with
  | zero => rfl
  | succ depth ih =>
      obtain ⟨v, cs⟩ := t
      rcases List.eq_nil_or_concat' cs with rfl | ⟨init, c, rfl⟩
      · rfl
      · rw [map, mapAll_eq_map, List.map_append, List.map_singleton, reach_succ_concat,
          reach_succ_concat, ih]

/-- A branch that reaches a depth reaches all depths above it. -/
theorem reach_eq_of_le {t : Tree α} {depth depth' : Nat} (ht : t.reach depth = depth)
    (hle : depth' ≤ depth) : t.reach depth' = depth' := by
  induction depth generalizing t depth' with
  | zero =>
      obtain rfl := Nat.le_zero.mp hle
      exact ht
  | succ depth ih =>
      cases depth' with
      | zero => rfl
      | succ depth' =>
          obtain ⟨v, cs⟩ := t
          rcases List.eq_nil_or_concat' cs with rfl | ⟨init, c, rfl⟩
          · cases ht
          · rw [reach_succ_concat] at ht ⊢
            rw [ih (Nat.succ.inj ht) (Nat.le_of_succ_le_succ hle)]

/-- A leaf under the node at a depth makes the branch reach one level further. -/
theorem reach_attach {t : Tree α} {depth : Nat} (ht : t.reach depth = depth) (leaf : α) :
    (t.attach leaf depth).reach (depth + 1) = depth + 1 := by
  induction depth generalizing t with
  | zero =>
      obtain ⟨v, cs⟩ := t
      rw [attach_zero, reach_succ_concat]
      rfl
  | succ depth ih =>
      obtain ⟨v, cs⟩ := t
      rcases List.eq_nil_or_concat' cs with rfl | ⟨init, c, rfl⟩
      · cases ht
      · rw [reach_succ_concat] at ht
        rw [attach_succ_concat, reach_succ_concat, ih (Nat.succ.inj ht)]

/-! ## Frames above a subtree -/

/-- What stands above an open subtree: a value and the closed children before the open one. -/
abbrev Frame (α : Type) := α × List (Tree α)

/-- A subtree in its place as the last child of the first frame, which is the last child of the
next one, and so on up to the root. -/
def plug : Tree α → List (Frame α) → Tree α
  | t, [] => t
  | t, (v, cs) :: above => plug (node v (cs ++ [t])) above

theorem attach_plug (leaf : α) (depth : Nat) (t : Tree α) (above : List (Frame α)) :
    (plug t above).attach leaf (above.length + depth) = plug (t.attach leaf depth) above := by
  induction above generalizing t depth with
  | nil => simp [plug]
  | cons frame above ih =>
      obtain ⟨v, cs⟩ := frame
      have hdepth : above.length + 1 + depth = above.length + (depth + 1) := by omega
      rw [plug, plug, List.length_cons, hdepth, ih, attach_succ_concat]

theorem reach_plug (depth : Nat) (t : Tree α) (above : List (Frame α)) :
    (plug t above).reach (above.length + depth) = above.length + t.reach depth := by
  induction above generalizing t depth with
  | nil => simp [plug]
  | cons frame above ih =>
      obtain ⟨v, cs⟩ := frame
      have hdepth : above.length + 1 + depth = above.length + (depth + 1) := by omega
      rw [plug, List.length_cons, hdepth, ih, reach_succ_concat]
      omega

theorem updateDeepest_plug {f : α → Option α} {count : Nat} {t t' : Tree α}
    (ht : t.updateDeepest f count = some t') (above : List (Frame α)) :
    (plug t above).updateDeepest f (above.length + count) = some (plug t' above) := by
  induction above generalizing t t' count with
  | nil => simpa [plug] using ht
  | cons frame above ih =>
      obtain ⟨v, cs⟩ := frame
      have hcount : above.length + 1 + count = above.length + (count + 1) := by omega
      rw [plug, plug, List.length_cons, hcount]
      exact ih (updateDeepest_succ_concat_of_some v cs ht)

theorem value_plug_congr {t t' : Tree α} (h : t.value = t'.value) (above : List (Frame α)) :
    (plug t above).value = (plug t' above).value := by
  induction above generalizing t t' with
  | nil => exact h
  | cons frame above ih => exact ih rfl

/-- The root above a subtree does not depend on the children there. -/
theorem value_plug_node (v : α) (cs cs' : List (Tree α)) (above : List (Frame α)) :
    (plug (node v cs) above).value = (plug (node v cs') above).value := by
  have hself : (node v cs).value = (node v cs').value := rfl
  exact value_plug_congr hself above

end SolanaTx.Tree
