import SolanaTx.Proofs.Invocation.LineNumbers
import SolanaTx.Proofs.Invocation.Numbering

/-!
# What a start in the log does

A start places an invocation, or it is noted that it does not. Where it places one
and nothing is noted, the invocation is of the program that the log names, at the
depth that the log says. The invariant behind this is that the last branch of the
latest tree reaches as far as invocations count as open.
-/

namespace SolanaTx

variable {inner : List InnerInstruction}

/-- An invocation as it was before it ended. -/
def Invocation.begun (v : Invocation) : Invocation :=
  { v with ending := none }

namespace Walk

/-- Whether something odd was noted at a line. -/
def NotedAt (line : Nat) (w : Walk) : Prop :=
  ∃ x ∈ w.warnings, x.line = some line

theorem notedAt_warn (w : Walk) (anomaly : Anomaly) (line : Nat) :
    (w.warn anomaly line).NotedAt line :=
  ⟨⟨anomaly, line⟩, List.mem_append_right _ List.mem_cons_self, rfl⟩

/-- What was noted is kept. -/
theorem NotedAt.notesAt {line line' : Nat} {w w' : Walk} (h : w.NotedAt line)
    (hnotes : NotesAt line' w w') : w'.NotedAt line := by
  obtain ⟨x, hx, hline⟩ := h
  obtain ⟨noted, hnoted, -⟩ := hnotes
  exact ⟨x, hnoted ▸ List.mem_append_left noted hx, hline⟩

theorem checkProgram_quiet (w : Walk) (instruction : Instruction) (logged : Text) (line : Nat) :
    (w.checkProgram instruction logged line).NotedAt line ∨
      (w.checkProgram instruction logged line).warnings = w.warnings ∧
        instruction.program.text = logged := by
  unfold checkProgram
  split
  · next hlogged => exact Or.inr ⟨rfl, hlogged⟩
  · exact Or.inl (w.notedAt_warn _ line)

theorem checkLevels_quiet (w : Walk) (depth line : Nat) :
    (w.checkLevels depth line).NotedAt line ∨
      (w.checkLevels depth line).warnings = w.warnings ∧ depth - 1 ≤ w.openCount := by
  rcases w.checkLevels_eq_or depth line with ⟨h, hlevels⟩ | h
  · exact Or.inr ⟨by rw [h], hlevels⟩
  · rw [h]
    exact Or.inl (w.notedAt_warn _ line)

/-- What a start can do to a walk. -/
inductive Invoked (inner : List InnerInstruction) (logged : Text) (depth line : Nat)
    (w w' : Walk) : Prop where
  /-- No invocation is placed, and that is noted. -/
  | refused (hbranches : w'.branches = w.branches) (hid : w'.nextId = w.nextId)
      (hopen : w'.openCount ≤ w.openCount) (hnoted : w'.NotedAt line)
  /-- An instruction at the top gets its tree. -/
  | root (top : Nat) (instruction : Instruction)
      (hbranches : w'.branches =
        ⟨.leaf { id := w.nextId, instruction, depth := 0, top }, callsOf inner top⟩ :: w.branches)
      (hid : w'.nextId = w.nextId + 1) (hopen : w'.openCount = 1)
      (hquiet : w'.NotedAt line ∨
        w'.warnings = w.warnings ∧ instruction.program.text = logged ∧ depth ≤ 1)
  /-- A call is placed under an invocation that counts as open. -/
  | call (branch : Branch) (others : List Branch) (next : InnerInstruction)
      (pending : List InnerInstruction) (caller : Nat) (hw : w.branches = branch :: others)
      (hcaller : caller < w.openCount)
      (hbranches : w'.branches =
        ⟨branch.place w.nextId caller next.instruction none, pending⟩ :: others)
      (hid : w'.nextId = w.nextId + 1) (hopen : w'.openCount = caller + 2)
      (hquiet : w'.NotedAt line ∨
        w'.warnings = w.warnings ∧ next.instruction.program.text = logged ∧ depth = caller + 2)

theorem invokeTop_invoked (w : Walk) (logged : Text) {depth : Nat} (hdepth : depth ≤ 1)
    (line : Nat) : Invoked inner logged depth line w (w.invokeTop inner logged line) := by
  unfold invokeTop
  split
  · exact .refused rfl rfl (Nat.zero_le _) (notedAt_warn _ _ line)
  · next top instruction rest htake =>
    dsimp only
    generalize hw' : ({ w with
      waiting := rest
      branches := ⟨.leaf { id := w.nextId, instruction, depth := 0, top }, callsOf inner top⟩ ::
        w.branches
      openCount := 1
      nextId := w.nextId + 1 } : Walk) = w'
    have hcheck := w'.checkProgram_quiet instruction logged line
    subst hw'
    refine .root top instruction (by simp) (by simp) (by simp) ?_
    rcases hcheck with hnoted | ⟨hsame, hlogged⟩
    · exact Or.inl hnoted
    · exact Or.inr ⟨hsame, hlogged, hdepth⟩

theorem invokeCall_invoked (w : Walk) (logged : Text) {depth : Nat} (hdepth : 2 ≤ depth)
    (line : Nat) : Invoked inner logged depth line w (w.invokeCall logged depth line) := by
  rcases w.outside_or_open with houtside | ⟨branch, others, hbranches, hopen⟩
  · rw [invokeCall_outside houtside]
    exact .refused rfl rfl (Nat.le_refl _) (w.notedAt_warn _ line)
  · cases hpending : branch.pending with
    | nil =>
        rw [invokeCall_spent hbranches hopen hpending]
        exact .refused (by simp) (by simp) (Nat.min_le_left _ _) (notedAt_warn _ _ line)
    | cons next pending =>
        rw [invokeCall_next hbranches hopen hpending]
        generalize hw' : ({ w.checkLevels depth line with
          branches := ⟨branch.place w.nextId (min w.openCount (depth - 1) - 1)
            next.instruction none, pending⟩ :: others
          openCount := min w.openCount (depth - 1) + 1
          nextId := w.nextId + 1 } : Walk) = w'
        have hkept : w'.warnings = (w.checkLevels depth line).warnings := by rw [← hw']
        have hcaller : min w.openCount (depth - 1) - 1 < w.openCount := by omega
        refine .call branch others next pending (min w.openCount (depth - 1) - 1) hbranches
          hcaller ?_ ?_ ?_ ?_
        · rw [branches_checkProgram, ← hw']
        · rw [nextId_checkProgram, ← hw']
        · rw [openCount_checkProgram, ← hw']
          dsimp only
          omega
        · rcases w.checkLevels_quiet depth line with ⟨x, hx, hline⟩ | ⟨hquiet, hlevels⟩
          · have hnotes := w'.notesAt_checkProgram next.instruction logged line
            exact Or.inl (NotedAt.notesAt ⟨x, hkept ▸ hx, hline⟩ hnotes)
          · rcases w'.checkProgram_quiet next.instruction logged line with
              hnoted | ⟨hsame, hlogged⟩
            · exact Or.inl hnoted
            · exact Or.inr ⟨hsame.trans (hkept.trans hquiet), hlogged, by omega⟩

theorem step_invoked (w : Walk) (inner : List InnerInstruction) (logged : Text)
    (depth line : Nat) :
    Invoked inner logged depth line w (w.step inner line (some (.invoke logged depth))) := by
  -- that an invocation was seen makes no difference to what the start does
  have hseen : ∀ w' : Walk, Invoked inner logged depth line { w with sawInvoke := true } w' →
      Invoked inner logged depth line w w' := by
    rintro w' (⟨hb, hi, ho, hn⟩ | ⟨top, instruction, hb, hi, ho, hq⟩
      | ⟨branch, others, next, pending, caller, hw, hc, hb, hi, ho, hq⟩)
    · exact .refused hb hi ho hn
    · exact .root top instruction hb hi ho hq
    · exact .call branch others next pending caller hw hc hb hi ho hq
  unfold step
  dsimp only
  split
  · next hdepth => exact hseen _ (invokeTop_invoked _ logged hdepth line)
  · next hdepth => exact hseen _ (invokeCall_invoked _ logged (Nat.not_le.mp hdepth) line)

/-! ## How far the last branch is there -/

/-- Whether the last branch of the latest tree reaches as far as it counts as open. -/
def Reaches (w : Walk) : Prop :=
  ∀ branch others, w.branches = branch :: others →
    branch.tree.reach (w.openCount - 1) = w.openCount - 1

theorem Reaches.invoked {logged : Text} {depth line : Nat} {w w' : Walk} (h : w.Reaches)
    (hstep : Invoked inner logged depth line w w') : w'.Reaches := by
  intro latest rest hw'
  cases hstep with
  | refused hbranches _ hopen _ =>
      exact Tree.reach_eq_of_le (h latest rest (hbranches ▸ hw')) (Nat.sub_le_sub_right hopen 1)
  | root top instruction hbranches _ hopen _ =>
      rw [hopen]
      rfl
  | call branch others next pending caller hw hcaller hbranches _ hopen _ =>
      obtain ⟨rfl, rfl⟩ := List.cons.inj (hbranches.symm.trans hw')
      have hcaller : branch.tree.reach caller = caller :=
        Tree.reach_eq_of_le (h branch _ hw) (by omega)
      rw [hopen]
      exact Tree.reach_attach hcaller _

theorem Reaches.finish {w : Walk} (h : w.Reaches) (ending : Ending) :
    (w.finish ending).Reaches := by
  cases hw : w.branches with
  | nil =>
      rw [Walk.finish, hw]
      exact h
  | cons branch others =>
      rw [finish_cons ending hw]
      split
      · next tree htree =>
        intro latest rest hlatest
        obtain ⟨rfl, rfl⟩ := List.cons.inj hlatest
        have hshape : tree.map (fun _ => ()) = branch.tree.map fun _ => () :=
          Invocation.map_of_settle (fun _ _ => rfl) htree
        have hreach := h branch others hw
        rw [← Tree.reach_map (fun _ => ()), ← hshape, Tree.reach_map] at hreach
        exact hreach
      · exact h

theorem Reaches.step {w : Walk} (h : w.Reaches) (line : Nat) (marker : Option Marker) :
    (w.step inner line marker).Reaches := by
  match marker with
  | none => exact h
  | some (.ended ending) => exact h.finish ending
  | some (.invoke logged depth) => exact h.invoked (w.step_invoked inner logged depth line)

theorem Reaches.lines {w : Walk} (h : w.Reaches) (line : Nat) (markers : List (Option Marker)) :
    (w.lines inner line markers).Reaches := by
  induction markers generalizing w line with
  | nil => exact h
  | cons marker rest ih => exact ih (h.step line marker) (line + 1)

theorem Reaches.walkLog (instructions : List Instruction) (inner : List InnerInstruction)
    (markers : List (Option Marker)) : (walkLog instructions inner markers).Reaches :=
  Reaches.lines (by simp [Reaches, Walk.start]) 0 markers

/-! ## The invocations in the order of the log -/

/-- A line adds at most one invocation, behind all others and with the next number. -/
theorem begun_move {w w' : Walk} (hmove : Move inner w w') :
    (w'.nextId = w.nextId ∧ w'.inOrder.map Invocation.begun = w.inOrder.map Invocation.begun) ∨
      w'.nextId = w.nextId + 1 ∧ ∃ v : Invocation, v.id = w.nextId ∧
        w'.inOrder.map Invocation.begun = w.inOrder.map Invocation.begun ++ [v] := by
  cases hmove with
  | still hbranches _ hid =>
      refine Or.inl ⟨hid, ?_⟩
      rw [inOrder, inOrder, hbranches]
  | root skipped rest top instruction _ hbranches _ hid =>
      refine Or.inr ⟨hid, { id := w.nextId, instruction, depth := 0, top }, rfl, ?_⟩
      rw [inOrder_of_root hbranches, List.map_append]
      rfl
  | call branch others next pending depth hw _ hbranches _ hid =>
      refine Or.inr ⟨hid, ⟨w.nextId, next.instruction, branch.tree.reach depth + 1, branch.top,
        none, none⟩, rfl, ?_⟩
      rw [inOrder_of_place hw hbranches, List.map_append]
      rfl
  | settle branch others tree ending count hw htree hbranches _ hid =>
      exact Or.inl ⟨hid, inOrder_of_settle (fun _ _ => rfl) hw htree hbranches⟩

/-- What has begun is not lost. -/
theorem begun_prefix_lines (w : Walk) (inner : List InnerInstruction) (line : Nat)
    (markers : List (Option Marker)) :
    w.inOrder.map Invocation.begun <+:
      (w.lines inner line markers).inOrder.map Invocation.begun := by
  have hkeep : ∀ w₁ w₂, Move inner w₁ w₂ →
      w.inOrder.map Invocation.begun <+: w₁.inOrder.map Invocation.begun →
      w.inOrder.map Invocation.begun <+: w₂.inOrder.map Invocation.begun := by
    intro w₁ w₂ hmove hprefix
    rcases begun_move hmove with ⟨-, hsame⟩ | ⟨-, v, -, hmore⟩
    · exact hsame ▸ hprefix
    · exact hmore ▸ hprefix.trans (List.prefix_append _ _)
  exact lines_invariant hkeep List.prefix_rfl line markers

/-- A line that starts nothing adds no invocation, and nothing is noted. -/
theorem begun_step_of_not_invoke (w : Walk) (inner : List InnerInstruction) (line : Nat)
    {marker : Option Marker} (hmarker : ∀ logged depth, marker ≠ some (.invoke logged depth)) :
    (w.step inner line marker).nextId = w.nextId ∧
      (w.step inner line marker).warnings = w.warnings ∧
      (w.step inner line marker).inOrder.map Invocation.begun =
        w.inOrder.map Invocation.begun := by
  match marker with
  | none => exact ⟨rfl, rfl, rfl⟩
  | some (.invoke logged depth) => exact absurd rfl (hmarker logged depth)
  | some (.ended ending) =>
      rw [step]
      cases hw : w.branches with
      | nil =>
          rw [finish, hw]
          exact ⟨rfl, rfl, rfl⟩
      | cons branch others =>
          rw [finish_cons ending hw]
          split
          · next tree htree =>
            exact ⟨rfl, rfl, inOrder_of_settle (fun _ _ => rfl) hw htree rfl⟩
          · exact ⟨rfl, rfl, rfl⟩

/-- A start is noted, or begins an invocation of the program that it names, at its depth. -/
theorem Reaches.noted_or_begins {logged : Text} {depth line : Nat} {w w' : Walk} (h : w.Reaches)
    (hstep : Invoked inner logged depth line w w') :
    w'.NotedAt line ∨ w'.warnings = w.warnings ∧ w'.nextId = w.nextId + 1 ∧
      ∃ v : Invocation, v.id = w.nextId ∧ v.instruction.program.text = logged ∧
        v.depth + 1 = max depth 1 ∧
        w'.inOrder.map Invocation.begun = w.inOrder.map Invocation.begun ++ [v] := by
  cases hstep with
  | refused _ _ _ hnoted => exact Or.inl hnoted
  | root top instruction hbranches hid _ hquiet =>
      rcases hquiet with hnoted | ⟨hwarnings, hlogged, hdepth⟩
      · exact Or.inl hnoted
      · refine Or.inr ⟨hwarnings, hid, { id := w.nextId, instruction, depth := 0, top }, rfl,
          hlogged, (Nat.max_eq_right hdepth).symm, ?_⟩
        rw [inOrder_of_root hbranches, List.map_append]
        rfl
  | call branch others next pending caller hw hcaller hbranches hid _ hquiet =>
      rcases hquiet with hnoted | ⟨hwarnings, hlogged, rfl⟩
      · exact Or.inl hnoted
      · have hreach : branch.tree.reach caller = caller :=
          Tree.reach_eq_of_le (h branch others hw) (by omega)
        refine Or.inr ⟨hwarnings, hid, ⟨w.nextId, next.instruction, caller + 1, branch.top, none,
          none⟩, rfl, hlogged, (Nat.max_eq_left (by omega)).symm, ?_⟩
        rw [inOrder_of_place hw hbranches, hreach, List.map_append]
        rfl

end Walk

end SolanaTx
