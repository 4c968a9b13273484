import Mathlib.Data.List.Forall2

/-!
# Success of steps that may fail

A row of steps succeeds where each of its steps does, and fails the way one of them does.
-/

namespace SolanaTx.Fallible

variable {ε α β : Type}

theorem ok_bind (a : α) (f : α → Except ε β) : (Except.ok a >>= f) = f a := rfl

theorem bind_eq_ok {x : Except ε α} {f : α → Except ε β} {b : β} :
    (x >>= f) = .ok b ↔ ∃ a, x = .ok a ∧ f a = .ok b := by
  cases x <;> simp [bind, Except.bind]

theorem bind_eq_error {x : Except ε α} {f : α → Except ε β} {e : ε} :
    (x >>= f) = .error e ↔ x = .error e ∨ ∃ a, x = .ok a ∧ f a = .error e := by
  cases x <;> simp [bind, Except.bind]

theorem map_eq_ok {f : α → β} {x : Except ε α} {b : β} :
    x.map f = .ok b ↔ ∃ a, x = .ok a ∧ f a = b := by
  cases x <;> simp [Except.map]

theorem exists_map_iff {f : α → β} {x : Except ε α} :
    (∃ b, x.map f = .ok b) ↔ ∃ a, x = .ok a := by
  cases x <;> simp [Except.map]

theorem pure_eq_ok {a b : α} : (pure a : Except ε α) = .ok b ↔ a = b := by
  simp [pure, Except.pure]

theorem bind_bind_eq_ok {γ : Type} {x : Except ε α} {y : Except ε β} {f : α → β → γ} {c : γ} :
    (x >>= fun a => y >>= fun b => pure (f a b)) = .ok c ↔
      ∃ a b, x = .ok a ∧ y = .ok b ∧ c = f a b := by
  simp only [bind_eq_ok, pure_eq_ok]
  constructor
  · rintro ⟨a, ha, b, hb, rfl⟩
    exact ⟨a, b, ha, hb, rfl⟩
  · rintro ⟨a, b, ha, hb, rfl⟩
    exact ⟨a, ha, b, hb, rfl⟩

theorem forM_eq_ok {f : α → Except ε Unit} {xs : List α} :
    xs.forM f = .ok () ↔ ∀ x ∈ xs, f x = .ok () := by
  induction xs with
  | nil => simp [List.forM, pure, Except.pure]
  | cons x rest ih =>
      cases hx : f x with
      | error e => simp [List.forM, hx, bind, Except.bind]
      | ok u => simpa [List.forM, hx, bind, Except.bind] using ih

/-- Where each item of a list has a result, the list has the list of them. -/
theorem exists_mapM_of_forall {f : α → Except ε β} {p : α → β → Prop} {xs : List α}
    (h : ∀ x ∈ xs, ∃ y, f x = .ok y ∧ p x y) :
    ∃ ys, xs.mapM f = .ok ys ∧ List.Forall₂ p xs ys := by
  induction xs with
  | nil => exact ⟨[], rfl, .nil⟩
  | cons x rest ih =>
      rw [List.forall_mem_cons] at h
      obtain ⟨y, hy, hp⟩ := h.1
      obtain ⟨ys, hys, hall⟩ := ih h.2
      refine ⟨y :: ys, ?_, .cons hp hall⟩
      rw [List.mapM_cons, hy, ok_bind, hys]
      rfl

theorem mapM_eq_ok_iff {f : α → Except ε β} {xs : List α} {ys : List β} :
    xs.mapM f = .ok ys ↔ List.Forall₂ (fun x y => f x = .ok y) xs ys := by
  induction xs generalizing ys with
  | nil => cases ys <;> simp [pure, Except.pure]
  | cons x rest ih =>
      rw [List.mapM_cons, bind_eq_ok, List.forall₂_cons_left_iff]
      apply exists_congr
      intro y
      simp only [bind_eq_ok, pure_eq_ok, ih]
      constructor
      · rintro ⟨hy, others, hothers, rfl⟩
        exact ⟨others, hy, hothers, rfl⟩
      · rintro ⟨others, hy, hothers, rfl⟩
        exact ⟨hy, others, hothers, rfl⟩

/-- A list has a list of results where each of its items has one. -/
theorem exists_mapM_iff {f : α → Except ε β} {xs : List α} :
    (∃ ys, xs.mapM f = .ok ys) ↔ ∀ x ∈ xs, ∃ y, f x = .ok y := by
  induction xs with
  | nil => simp [pure, Except.pure]
  | cons x rest ih =>
      rw [List.forall_mem_cons, ← ih]
      simp only [List.mapM_cons, bind_eq_ok, pure_eq_ok]
      constructor
      · rintro ⟨_, y, hy, ys, hys, -⟩
        exact ⟨⟨y, hy⟩, ys, hys⟩
      · rintro ⟨⟨y, hy⟩, ys, hys⟩
        exact ⟨y :: ys, y, hy, ys, hys, rfl⟩

/-- Items that stand for others have the results of these. -/
theorem mapM_eq_ok_of_forall₂ {γ : Type} {R : γ → α → Prop} {f : α → Except ε β} {g : γ → β}
    {xs : List α} {zs : List γ} (hf : ∀ z x, R z x → f x = .ok (g z))
    (h : List.Forall₂ R zs xs) : xs.mapM f = .ok (zs.map g) := by
  induction h with
  | nil => rfl
  | cons hx _ ih =>
      rw [List.mapM_cons, hf _ _ hx, ok_bind, ih]
      rfl

theorem mapM_map_eq_ok {γ : Type} {f : α → Except ε β} {g : γ → β} {k : γ → α}
    (h : ∀ z, f (k z) = .ok (g z)) (zs : List γ) : (zs.map k).mapM f = .ok (zs.map g) := by
  apply mapM_eq_ok_of_forall₂ (R := fun z x => x = k z)
  · rintro z x rfl
    exact h z
  · rw [List.forall₂_map_right_iff, List.forall₂_same]
    exact fun _ _ => rfl

theorem mapM_congr {f g : α → Except ε β} {xs : List α} (h : ∀ x ∈ xs, f x = g x) :
    xs.mapM f = xs.mapM g := by
  induction xs with
  | nil => rfl
  | cons x rest ih =>
      obtain ⟨hx, hrest⟩ := List.forall_mem_cons.mp h
      rw [List.mapM_cons, List.mapM_cons, hx, ih hrest]

/-- A list fails where one of its items does. -/
theorem exists_of_mapM_eq_error {f : α → Except ε β} {xs : List α} {e : ε}
    (h : xs.mapM f = .error e) : ∃ x ∈ xs, f x = .error e := by
  induction xs with
  | nil => cases h
  | cons x rest ih =>
      rw [List.mapM_cons] at h
      rcases bind_eq_error.mp h with h | ⟨y, -, h⟩
      · exact ⟨x, List.mem_cons_self, h⟩
      · rcases bind_eq_error.mp h with h | ⟨ys, -, h⟩
        · obtain ⟨x', hmem, hx'⟩ := ih h
          exact ⟨x', List.mem_cons_of_mem x hmem, hx'⟩
        · cases h

/-- Numbered items have the results of other items, where each has that of its partner whatever its
number is. -/
theorem mapM_zipIdx_eq_of_forall₂ {γ : Type} {f : α × Nat → Except ε β} {g : γ → Except ε β}
    {xs : List α} {zs : List γ} (h : List.Forall₂ (fun z x => ∀ n, f (x, n) = g z) zs xs)
    (start : Nat) : (xs.zipIdx start).mapM f = zs.mapM g := by
  induction h generalizing start with
  | nil => rfl
  | cons hx _ ih => rw [List.zipIdx_cons, List.mapM_cons, List.mapM_cons, hx, ih]

/-- Each result of a list is that of one of its items. -/
theorem exists_of_mem_mapM {f : α → Except ε β} {xs : List α} {ys : List β}
    (h : xs.mapM f = .ok ys) : ∀ y ∈ ys, ∃ x ∈ xs, f x = .ok y := by
  induction xs generalizing ys with
  | nil =>
      obtain rfl := pure_eq_ok.mp h
      intro y hy
      cases hy
  | cons x rest ih =>
      rw [List.mapM_cons] at h
      obtain ⟨y, hy, h⟩ := bind_eq_ok.mp h
      obtain ⟨others, hothers, h⟩ := bind_eq_ok.mp h
      obtain rfl := pure_eq_ok.mp h
      rw [List.forall_mem_cons]
      refine ⟨⟨x, List.mem_cons_self, hy⟩, ?_⟩
      intro other hother
      obtain ⟨x', hmem, hx'⟩ := ih hothers other hother
      exact ⟨x', List.mem_cons_of_mem x hmem, hx'⟩

/-- Each item of a list has a partner in a list that is related to it. -/
theorem exists_mem_of_forall₂ {R : α → β → Prop} {xs : List α} {ys : List β}
    (h : List.Forall₂ R xs ys) : ∀ x ∈ xs, ∃ y ∈ ys, R x y := by
  induction h with
  | nil => exact List.forall_mem_nil _
  | cons hxy _ ih =>
      rw [List.forall_mem_cons]
      refine ⟨⟨_, List.mem_cons_self, hxy⟩, fun x hx => ?_⟩
      obtain ⟨y, hy, hpartner⟩ := ih x hx
      exact ⟨y, List.mem_cons_of_mem _ hy, hpartner⟩

/-- Each item of a list has its result among those of the list. -/
theorem exists_mem_of_mapM {f : α → Except ε β} {xs : List α} {ys : List β}
    (h : xs.mapM f = .ok ys) : ∀ x ∈ xs, ∃ y ∈ ys, f x = .ok y :=
  exists_mem_of_forall₂ (mapM_eq_ok_iff.mp h)

/-- The result of an item has the place of the item. -/
theorem exists_getElem?_of_mapM {f : α → Except ε β} {xs : List α} {ys : List β} {i : Nat} {x : α}
    (h : xs.mapM f = .ok ys) (hx : xs[i]? = some x) : ∃ y, ys[i]? = some y ∧ f x = .ok y := by
  induction mapM_eq_ok_iff.mp h generalizing i with
  | nil => cases hx
  | cons hfirst hrest ih =>
      cases i with
      | zero =>
          obtain rfl := Option.some.inj hx
          exact ⟨_, rfl, hfirst⟩
      | succ i => exact ih (mapM_eq_ok_iff.mpr hrest) hx

theorem exists_of_mem_filterMapM {f : α → Except ε (Option β)} {xs : List α} {ys : List β}
    (h : xs.filterMapM f = .ok ys) : ∀ y ∈ ys, ∃ x ∈ xs, f x = .ok (some y) := by
  induction xs generalizing ys with
  | nil =>
      obtain rfl := pure_eq_ok.mp h
      intro y hy
      cases hy
  | cons x rest ih =>
      rw [List.filterMapM_cons] at h
      obtain ⟨found, hfound, h⟩ := bind_eq_ok.mp h
      intro y hy
      cases found with
      | none =>
          obtain ⟨x', hmem, hx'⟩ := ih h y hy
          exact ⟨x', List.mem_cons_of_mem x hmem, hx'⟩
      | some first =>
          obtain ⟨others, hothers, h⟩ := bind_eq_ok.mp h
          obtain rfl := pure_eq_ok.mp h
          rcases List.mem_cons.mp hy with rfl | hy
          · exact ⟨x, List.mem_cons_self, hfound⟩
          · obtain ⟨x', hmem, hx'⟩ := ih hothers y hy
            exact ⟨x', List.mem_cons_of_mem x hmem, hx'⟩

/-- Parts of a list are worked through one after the other. -/
theorem filterMapM_append (f : α → Except ε (Option β)) (xs ys : List α) :
    (xs ++ ys).filterMapM f =
      xs.filterMapM f >>= fun front => ys.filterMapM f >>= fun back => pure (front ++ back) := by
  induction xs with
  | nil =>
      rw [List.nil_append, List.filterMapM_nil, pure_bind]
      simp only [List.nil_append, bind_pure]
  | cons x rest ih =>
      rw [List.cons_append, List.filterMapM_cons, List.filterMapM_cons, ih, bind_assoc]
      congr 1
      funext found
      cases found with
      | none => rfl
      | some y => simp only [bind_assoc, pure_bind, List.cons_append]

/-- What one item more adds to the results of a list. -/
theorem filterMapM_insert {f : α → Except ε (Option β)} {xs ys : List α} {front back : List β}
    (hfront : xs.filterMapM f = .ok front) (hback : ys.filterMapM f = .ok back) (x : α) :
    (xs ++ x :: ys).filterMapM f =
      f x >>= fun found => pure (front ++ found.toList ++ back) := by
  rw [filterMapM_append, hfront, ok_bind, List.filterMapM_cons, hback, bind_assoc]
  congr 1
  funext found
  cases found with
  | none => simp only [ok_bind, Option.toList_none, List.append_nil]
  | some y => simp only [ok_bind, pure_bind, Option.toList_some, List.append_assoc,
      List.singleton_append]

/-! ## Ways to fail -/

/-- Whether a step fails in some ways only. -/
def FailsOnly (p : ε → Prop) (x : Except ε α) : Prop :=
  ∀ e, x = .error e → p e

variable {p : ε → Prop}

theorem failsOnly_ok (a : α) : FailsOnly p (Except.ok a) := by
  intro e h
  cases h

theorem failsOnly_pure (a : α) : FailsOnly p (pure a : Except ε α) :=
  failsOnly_ok a

theorem failsOnly_error {e : ε} (h : p e) : FailsOnly p (Except.error e : Except ε α) := by
  intro e' he'
  cases he'
  exact h

theorem FailsOnly.bind {x : Except ε α} {f : α → Except ε β} (hx : FailsOnly p x)
    (hf : ∀ a, x = .ok a → FailsOnly p (f a)) : FailsOnly p (x >>= f) := by
  intro e h
  rcases bind_eq_error.mp h with h | ⟨a, ha, h⟩
  · exact hx e h
  · exact hf a ha e h

theorem FailsOnly.map {x : Except ε α} (hx : FailsOnly p x) (f : α → β) :
    FailsOnly p (x.map f) := by
  intro e h
  cases x with
  | error e' => exact hx e (by simpa [Except.map] using h)
  | ok a => cases h

theorem failsOnly_mapM {f : α → Except ε β} {xs : List α} (h : ∀ x ∈ xs, FailsOnly p (f x)) :
    FailsOnly p (xs.mapM f) := by
  intro e he
  obtain ⟨x, hx, he⟩ := exists_of_mapM_eq_error he
  exact h x hx e he

end SolanaTx.Fallible
