import Mathlib.Data.List.Basic
import SolanaTx.Invocation.Walk
import SolanaTx.Proofs.Tree.LastBranch

/-!
# What one log line can do

A line leaves the trees alone, starts the tree of a waiting instruction, places the
next call of the latest tree, or ends an open invocation of that tree. All that
holds along a walk is derived from these four moves.
-/

namespace SolanaTx

variable {inner : List InnerInstruction}

/-- An invocation without an ending, ended. -/
def Invocation.settle (ending : Ending) (v : Invocation) : Option Invocation :=
  if v.ending.isNone then some { v with ending := some ending } else none

theorem Invocation.settle_of_none {v : Invocation} (hv : v.ending = none) (ending : Ending) :
    v.settle ending = some { v with ending := some ending } := by
  simp [settle, hv]

theorem Invocation.settle_of_isSome {v : Invocation} (hv : v.ending.isSome) (ending : Ending) :
    v.settle ending = none := by
  simp [settle, Option.isNone_iff_eq_none, Option.ne_none_iff_isSome.mpr hv]

theorem Invocation.eq_of_settle {v v' : Invocation} {ending : Ending}
    (hv : v.settle ending = some v') : v' = { v with ending := some ending } := by
  unfold settle at hv
  split at hv
  · exact (Option.some.inj hv).symm
  · cases hv

/-- An end leaves the shape of a tree, and all of its values but the endings. -/
theorem Invocation.map_of_settle {β : Type} {g : Invocation → β}
    (hg : ∀ v ending, g { v with ending } = g v) {ending : Ending} {count : Nat}
    {tree tree' : Tree Invocation}
    (htree : tree.updateDeepest (Invocation.settle ending) count = some tree') :
    tree'.map g = tree.map g := by
  apply Tree.map_updateDeepest ?_ htree
  intro v v' hv
  rw [Invocation.eq_of_settle hv, hg]

theorem Branch.top_of_settle {b : Branch} {tree : Tree Invocation} {ending : Ending} {count : Nat}
    (htree : b.tree.updateDeepest (Invocation.settle ending) count = some tree) :
    Branch.top { b with tree } = b.top := by
  have hmap := Invocation.map_of_settle (g := Invocation.top) (fun _ _ => rfl) htree
  have hvalue := congrArg Tree.value hmap
  rw [Tree.value_map, Tree.value_map] at hvalue
  exact hvalue

theorem Branch.top_place (b : Branch) (id depth : Nat) (instruction : Instruction)
    (placedBy : Option StackHeight) :
    (b.place id depth instruction placedBy).value.top = b.top := by
  rw [place, Tree.value_attach]
  rfl

namespace Walk

@[simp] theorem branches_warn (w : Walk) (anomaly : Anomaly) (line : Option Nat) :
    (w.warn anomaly line).branches = w.branches := rfl

@[simp] theorem waiting_warn (w : Walk) (anomaly : Anomaly) (line : Option Nat) :
    (w.warn anomaly line).waiting = w.waiting := rfl

@[simp] theorem nextId_warn (w : Walk) (anomaly : Anomaly) (line : Option Nat) :
    (w.warn anomaly line).nextId = w.nextId := rfl

@[simp] theorem openCount_warn (w : Walk) (anomaly : Anomaly) (line : Option Nat) :
    (w.warn anomaly line).openCount = w.openCount := rfl

/-- Comparing programs notes at most a warning. -/
theorem checkProgram_eq_or (w : Walk) (instruction : Instruction) (logged : Text) (line : Nat) :
    w.checkProgram instruction logged line = w ∨
      w.checkProgram instruction logged line =
        w.warn (.otherProgram logged instruction.program) line := by
  unfold checkProgram
  split
  · exact Or.inl rfl
  · exact Or.inr rfl

@[simp] theorem branches_checkProgram (w : Walk) (instruction : Instruction) (logged : Text)
    (line : Nat) : (w.checkProgram instruction logged line).branches = w.branches := by
  rcases w.checkProgram_eq_or instruction logged line with h | h
  · rw [h]
  · rw [h, branches_warn]

@[simp] theorem waiting_checkProgram (w : Walk) (instruction : Instruction) (logged : Text)
    (line : Nat) : (w.checkProgram instruction logged line).waiting = w.waiting := by
  rcases w.checkProgram_eq_or instruction logged line with h | h
  · rw [h]
  · rw [h, waiting_warn]

@[simp] theorem nextId_checkProgram (w : Walk) (instruction : Instruction) (logged : Text)
    (line : Nat) : (w.checkProgram instruction logged line).nextId = w.nextId := by
  rcases w.checkProgram_eq_or instruction logged line with h | h
  · rw [h]
  · rw [h, nextId_warn]

@[simp] theorem openCount_checkProgram (w : Walk) (instruction : Instruction) (logged : Text)
    (line : Nat) : (w.checkProgram instruction logged line).openCount = w.openCount := by
  rcases w.checkProgram_eq_or instruction logged line with h | h
  · rw [h]
  · rw [h, openCount_warn]

/-- Notes how many levels a start leaves out, if it leaves out any. -/
def checkLevels (w : Walk) (depth line : Nat) : Walk :=
  if w.openCount < depth - 1 then w.warn (.skipsLevels depth (w.openCount - 1)) line else w

/-- Nothing is noted on levels that are all open. -/
theorem checkLevels_eq_or (w : Walk) (depth line : Nat) :
    (w.checkLevels depth line = w ∧ depth - 1 ≤ w.openCount) ∨
      w.checkLevels depth line = w.warn (.skipsLevels depth (w.openCount - 1)) line := by
  unfold checkLevels
  split
  · exact Or.inr rfl
  · next hlevels => exact Or.inl ⟨rfl, Nat.not_lt.mp hlevels⟩

@[simp] theorem branches_checkLevels (w : Walk) (depth line : Nat) :
    (w.checkLevels depth line).branches = w.branches := by
  rcases w.checkLevels_eq_or depth line with ⟨h, -⟩ | h <;> simp [h]

@[simp] theorem waiting_checkLevels (w : Walk) (depth line : Nat) :
    (w.checkLevels depth line).waiting = w.waiting := by
  rcases w.checkLevels_eq_or depth line with ⟨h, -⟩ | h <;> simp [h]

@[simp] theorem nextId_checkLevels (w : Walk) (depth line : Nat) :
    (w.checkLevels depth line).nextId = w.nextId := by
  rcases w.checkLevels_eq_or depth line with ⟨h, -⟩ | h <;> simp [h]

@[simp] theorem openCount_checkLevels (w : Walk) (depth line : Nat) :
    (w.checkLevels depth line).openCount = w.openCount := by
  rcases w.checkLevels_eq_or depth line with ⟨h, -⟩ | h <;> simp [h]

section

variable {w : Walk} {branch : Branch} {others : List Branch}

/-- A start below the top has no place, or it works on the latest tree. -/
theorem outside_or_open (w : Walk) : (w.branches = [] ∨ w.openCount = 0) ∨
    ∃ branch others, w.branches = branch :: others ∧ w.openCount ≠ 0 := by
  cases w.branches with
  | nil => exact Or.inl (Or.inl rfl)
  | cons branch others =>
      by_cases hopen : w.openCount = 0
      · exact Or.inl (Or.inr hopen)
      · exact Or.inr ⟨branch, others, rfl, hopen⟩

theorem invokeCall_outside (hw : w.branches = [] ∨ w.openCount = 0) (logged : Text)
    (depth line : Nat) :
    w.invokeCall logged depth line = w.warn (.outsideTopLevel depth) line := by
  unfold invokeCall
  split
  · rfl
  · next hbranches =>
    rw [if_pos]
    simpa [hbranches] using hw

theorem invokeCall_spent (hw : w.branches = branch :: others) (hopen : w.openCount ≠ 0)
    (hpending : branch.pending = []) (logged : Text) (depth line : Nat) :
    w.invokeCall logged depth line =
      { w.checkLevels depth line with openCount := min w.openCount (depth - 1) }.warn
        (.noInnerLeft depth branch.top) line := by
  -- the note on levels stands before their count is read
  rw [← openCount_checkLevels w depth line]
  simp only [invokeCall, hw, if_neg hopen, hpending]
  rfl

theorem invokeCall_next {call : InnerInstruction} {pending : List InnerInstruction}
    (hw : w.branches = branch :: others) (hopen : w.openCount ≠ 0)
    (hpending : branch.pending = call :: pending) (logged : Text) (depth line : Nat) :
    w.invokeCall logged depth line =
      ({ w.checkLevels depth line with
        branches := ⟨branch.place w.nextId (min w.openCount (depth - 1) - 1) call.instruction none,
          pending⟩ :: others
        openCount := min w.openCount (depth - 1) + 1
        nextId := w.nextId + 1 } : Walk).checkProgram call.instruction logged line := by
  rw [← openCount_checkLevels w depth line, ← nextId_checkLevels w depth line]
  simp only [invokeCall, hw, if_neg hopen, hpending]
  rfl

end

/-- The instruction taken up stands among those that wait, and the ones behind it stay. -/
theorem waiting_eq_of_takeTop {logged : Text} {waiting rest : List (Nat × Instruction)}
    {item : Nat × Instruction} (htake : takeTop logged waiting = some (item, rest)) :
    ∃ skipped, waiting = skipped ++ item :: rest := by
  unfold takeTop at htake
  split at htake
  · next head tail hdrop =>
    obtain ⟨rfl, rfl⟩ := Prod.mk.inj (Option.some.inj htake)
    refine ⟨waiting.takeWhile fun item => item.2.program.text ≠ logged, ?_⟩
    rw [← hdrop, List.takeWhile_append_dropWhile]
  · split at htake
    · obtain ⟨rfl, rfl⟩ := Prod.mk.inj (Option.some.inj htake)
      exact ⟨[], rfl⟩
    · cases htake

theorem finish_cons {w : Walk} {branch : Branch} {others : List Branch} (ending : Ending)
    (hw : w.branches = branch :: others) :
    w.finish ending =
      match branch.tree.updateDeepest (Invocation.settle ending) w.openCount with
      | some tree => { w with branches := { branch with tree } :: others }
      | none => w := by
  unfold finish
  rw [hw]
  rfl

/-- What one line can do to the trees of a walk. -/
inductive Move (inner : List InnerInstruction) (w w' : Walk) : Prop where
  | still (hbranches : w'.branches = w.branches) (hwaiting : w'.waiting = w.waiting)
      (hid : w'.nextId = w.nextId)
  /-- A waiting instruction gets its tree. -/
  | root (skipped rest : List (Nat × Instruction)) (top : Nat) (instruction : Instruction)
      (hw : w.waiting = skipped ++ (top, instruction) :: rest)
      (hbranches : w'.branches =
        ⟨.leaf { id := w.nextId, instruction, depth := 0, top }, callsOf inner top⟩ :: w.branches)
      (hwaiting : w'.waiting = rest) (hid : w'.nextId = w.nextId + 1)
  /-- The next call of the latest tree gets its place. -/
  | call (branch : Branch) (others : List Branch) (next : InnerInstruction)
      (pending : List InnerInstruction) (depth : Nat) (hw : w.branches = branch :: others)
      (hpending : branch.pending = next :: pending)
      (hbranches : w'.branches =
        ⟨branch.place w.nextId depth next.instruction none, pending⟩ :: others)
      (hwaiting : w'.waiting = w.waiting) (hid : w'.nextId = w.nextId + 1)
  /-- An open invocation of the latest tree ends. -/
  | settle (branch : Branch) (others : List Branch) (tree : Tree Invocation) (ending : Ending)
      (count : Nat) (hw : w.branches = branch :: others)
      (htree : branch.tree.updateDeepest (Invocation.settle ending) count = some tree)
      (hbranches : w'.branches = { branch with tree } :: others)
      (hwaiting : w'.waiting = w.waiting) (hid : w'.nextId = w.nextId)

theorem invokeTop_move (w : Walk) (logged : Text) (line : Nat) :
    Move inner w (w.invokeTop inner logged line) := by
  unfold invokeTop
  split
  · exact .still rfl rfl rfl
  · next top instruction rest htake =>
    obtain ⟨skipped, hskipped⟩ := waiting_eq_of_takeTop htake
    exact .root skipped rest top instruction hskipped (by simp) (by simp) (by simp)

theorem invokeCall_move (w : Walk) (logged : Text) (depth line : Nat) :
    Move inner w (w.invokeCall logged depth line) := by
  rcases w.outside_or_open with houtside | ⟨branch, others, hbranches, hopen⟩
  · rw [invokeCall_outside houtside]
    exact .still rfl rfl rfl
  · cases hpending : branch.pending with
    | nil =>
        rw [invokeCall_spent hbranches hopen hpending]
        exact .still (by simp) (by simp) (by simp)
    | cons call pending =>
        rw [invokeCall_next hbranches hopen hpending]
        exact .call branch others call pending (min w.openCount (depth - 1) - 1) hbranches
          hpending (by simp) (by simp) (by simp)

theorem finish_move (w : Walk) (ending : Ending) : Move inner w (w.finish ending) := by
  unfold finish
  dsimp only
  split
  · exact .still rfl rfl rfl
  · next branch others hbranches =>
    split
    · next tree htree =>
      exact .settle branch others tree ending w.openCount hbranches htree rfl rfl rfl
    · exact .still rfl rfl rfl

theorem step_move (w : Walk) (line : Nat) (marker : Option Marker) :
    Move inner w (w.step inner line marker) := by
  cases marker with
  | none => exact .still rfl rfl rfl
  | some marker =>
      cases marker with
      | ended ending => exact w.finish_move ending
      | invoke logged depth =>
          -- that an invocation was seen is no part of a move
          have hseen : ∀ w' : Walk, Move inner { w with sawInvoke := true } w' →
              Move inner w w' := by
            rintro w' (⟨hb, hw, hi⟩ | ⟨_, _, _, _, h, hb, hw, hi⟩
              | ⟨_, _, _, _, _, h, hp, hb, hw, hi⟩ | ⟨_, _, _, _, _, h, ht, hb, hw, hi⟩)
            · exact .still hb hw hi
            · exact .root _ _ _ _ h hb hw hi
            · exact .call _ _ _ _ _ h hp hb hw hi
            · exact .settle _ _ _ _ _ h ht hb hw hi
          unfold step
          dsimp only
          split
          · exact hseen _ (invokeTop_move _ logged line)
          · exact hseen _ (invokeCall_move _ logged depth line)

/-- What every move keeps holds along a walk. -/
theorem lines_invariant {invariant : Walk → Prop}
    (hmove : ∀ w w', Move inner w w' → invariant w → invariant w') {w : Walk} (hw : invariant w)
    (line : Nat) (markers : List (Option Marker)) : invariant (w.lines inner line markers) := by
  induction markers generalizing w line with
  | nil => exact hw
  | cons marker rest ih => exact ih (hmove _ _ (w.step_move line marker) hw) (line + 1)

end Walk

/-! ## Warnings of a line -/

/-- Whether an anomaly shows at a line of the log, and not only when the log is over. -/
def Anomaly.showsAtLine : Anomaly → Bool
  | notLogged _ | callsNotLogged .. | missingParent _ => false
  | _ => true

namespace Walk

/-- Adds to the warnings only such as show at a line. -/
def NotesAt (line : Nat) (w w' : Walk) : Prop :=
  ∃ noted, w'.warnings = w.warnings ++ noted ∧
    ∀ x ∈ noted, x.line = some line ∧ x.anomaly.showsAtLine

theorem NotesAt.of_warnings_eq {line : Nat} {w w' : Walk} (h : w'.warnings = w.warnings) :
    NotesAt line w w' :=
  ⟨[], by simpa using h, by simp⟩

theorem NotesAt.trans {line : Nat} {w w' w'' : Walk} (h : NotesAt line w w')
    (h' : NotesAt line w' w'') : NotesAt line w w'' := by
  obtain ⟨noted, hw, hnoted⟩ := h
  obtain ⟨noted', hw', hnoted'⟩ := h'
  refine ⟨noted ++ noted', by rw [hw', hw, List.append_assoc], ?_⟩
  intro x hx
  rcases List.mem_append.mp hx with hx | hx
  · exact hnoted x hx
  · exact hnoted' x hx

theorem notesAt_warn (w : Walk) {anomaly : Anomaly} (h : anomaly.showsAtLine) (line : Nat) :
    NotesAt line w (w.warn anomaly line) :=
  ⟨[⟨anomaly, line⟩], rfl, by simpa using h⟩

theorem notesAt_checkProgram (w : Walk) (instruction : Instruction) (logged : Text) (line : Nat) :
    NotesAt line w (w.checkProgram instruction logged line) := by
  rcases w.checkProgram_eq_or instruction logged line with h | h
  · exact .of_warnings_eq (by rw [h])
  · rw [h]
    exact w.notesAt_warn rfl line

theorem notesAt_invokeTop (w : Walk) (logged : Text) (line : Nat) :
    NotesAt line w (w.invokeTop inner logged line) := by
  unfold invokeTop
  split
  · exact NotesAt.trans (.of_warnings_eq rfl) (notesAt_warn _ rfl line)
  · exact NotesAt.trans (.of_warnings_eq rfl) (notesAt_checkProgram _ _ logged line)

theorem notesAt_checkLevels (w : Walk) (depth line : Nat) :
    NotesAt line w (w.checkLevels depth line) := by
  rcases w.checkLevels_eq_or depth line with ⟨h, -⟩ | h
  · exact .of_warnings_eq (by rw [h])
  · rw [h]
    exact w.notesAt_warn rfl line

theorem notesAt_invokeCall (w : Walk) (logged : Text) (depth line : Nat) :
    NotesAt line w (w.invokeCall logged depth line) := by
  rcases w.outside_or_open with houtside | ⟨branch, others, hbranches, hopen⟩
  · rw [invokeCall_outside houtside]
    exact w.notesAt_warn rfl line
  · apply (w.notesAt_checkLevels depth line).trans
    cases hpending : branch.pending with
    | nil =>
        rw [invokeCall_spent hbranches hopen hpending]
        exact NotesAt.trans (.of_warnings_eq rfl) (notesAt_warn _ rfl line)
    | cons call pending =>
        rw [invokeCall_next hbranches hopen hpending]
        exact NotesAt.trans (.of_warnings_eq rfl) (notesAt_checkProgram _ _ logged line)

theorem warnings_finish (w : Walk) (ending : Ending) :
    (w.finish ending).warnings = w.warnings := by
  unfold finish
  dsimp only
  split
  · rfl
  · split <;> rfl

theorem waiting_finish (w : Walk) (ending : Ending) : (w.finish ending).waiting = w.waiting := by
  unfold finish
  dsimp only
  split
  · rfl
  · split <;> rfl

theorem notesAt_step (w : Walk) (line : Nat) (marker : Option Marker) :
    NotesAt line w (w.step inner line marker) := by
  cases marker with
  | none => exact .of_warnings_eq rfl
  | some marker =>
      cases marker with
      | ended ending => exact .of_warnings_eq (w.warnings_finish ending)
      | invoke logged depth =>
          have hseen : NotesAt line w { w with sawInvoke := true } := .of_warnings_eq rfl
          apply hseen.trans
          unfold step
          dsimp only
          split
          · exact notesAt_invokeTop _ logged line
          · exact notesAt_invokeCall _ logged depth line

/-- The warnings of a walk name lines that it has passed. -/
theorem warnings_lines (w : Walk) (inner : List InnerInstruction) (line : Nat)
    (markers : List (Option Marker)) :
    ∃ noted, (w.lines inner line markers).warnings = w.warnings ++ noted ∧
      ∀ x ∈ noted, x.anomaly.showsAtLine ∧
        ∃ k, x.line = some k ∧ line ≤ k ∧ k < line + markers.length := by
  induction markers generalizing w line with
  | nil => exact ⟨[], by simp [lines], by simp⟩
  | cons marker rest ih =>
      have hstep : NotesAt line w (w.step inner line marker) := w.notesAt_step line marker
      obtain ⟨first, hfirst, hatLine⟩ := hstep
      obtain ⟨later, hlater, hafter⟩ := ih (w.step inner line marker) (line + 1)
      refine ⟨first ++ later, by rw [lines, hlater, hfirst, List.append_assoc], ?_⟩
      intro x hx
      rcases List.mem_append.mp hx with hx | hx
      · obtain ⟨hline, hshows⟩ := hatLine x hx
        exact ⟨hshows, line, hline, Nat.le_refl line, by simp⟩
      · obtain ⟨hshows, k, hline, hle, hlt⟩ := hafter x hx
        exact ⟨hshows, k, hline, by omega, by simp only [List.length_cons]; omega⟩

end Walk

end SolanaTx
