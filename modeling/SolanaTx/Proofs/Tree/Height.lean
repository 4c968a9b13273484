import SolanaTx.Proofs.Tree.LastBranch

/-!
# Heights

Some trees are as high as the highest of them. Other values in a tree leave its height as it is.
-/

namespace SolanaTx.Tree

variable {α β : Type}

theorem heightAll_le_iff {ts : List (Tree α)} {levels : Nat} :
    heightAll ts ≤ levels ↔ ∀ t ∈ ts, t.height ≤ levels := by
  induction ts with
  | nil => simp [heightAll]
  | cons t rest ih => rw [heightAll, Nat.max_le, ih, List.forall_mem_cons]

theorem height_le_heightAll {t : Tree α} {ts : List (Tree α)} (h : t ∈ ts) :
    t.height ≤ heightAll ts :=
  heightAll_le_iff.mp (Nat.le_refl _) t h

/-- The last branch is no longer than the longest. -/
theorem reach_lt_height (depth : Nat) (t : Tree α) : t.reach depth < t.height := by
  induction depth generalizing t with
  | zero =>
      obtain ⟨v, cs⟩ := t
      exact Nat.succ_pos _
  | succ depth ih =>
      obtain ⟨v, cs⟩ := t
      rcases List.eq_nil_or_concat' cs with rfl | ⟨init, c, rfl⟩
      · exact Nat.succ_pos _
      · rw [reach_succ_concat, height]
        have hc : c.height ≤ heightAll (init ++ [c]) :=
          height_le_heightAll (List.mem_append_right init (List.mem_singleton_self c))
        exact Nat.succ_lt_succ (Nat.lt_of_lt_of_le (ih c) hc)

mutual

theorem height_map (f : α → β) (t : Tree α) : (t.map f).height = t.height := by
  obtain ⟨v, cs⟩ := t
  rw [map, height, height, heightAll_mapAll f cs]

theorem heightAll_mapAll (f : α → β) (ts : List (Tree α)) :
    heightAll (mapAll f ts) = heightAll ts := by
  cases ts with
  | nil => rfl
  | cons t rest => rw [mapAll, heightAll, heightAll, height_map f t, heightAll_mapAll f rest]

end

end SolanaTx.Tree
