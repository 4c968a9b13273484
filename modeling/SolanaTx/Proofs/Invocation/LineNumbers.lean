import SolanaTx.Proofs.Invocation.Completion
import SolanaTx.Proofs.Invocation.Decoding
import SolanaTx.Proofs.Invocation.Move
import SolanaTx.Proofs.Invocation.Wording

/-!
# Line numbers steer nothing

The number of a log line shows in the warnings of that line and nowhere else. So a
line that says nothing can be put in or left out, and all that changes in the forest
are the numbers of later lines.
-/

namespace SolanaTx

variable {inner : List InnerInstruction} {r : Registry} (f : Nat → Nat)

/-- A warning with the number of its line changed. -/
def Warning.renumber (x : Warning) : Warning :=
  { x with line := x.line.map f }

/-- A walk with the line numbers in its warnings changed. -/
def Walk.renumber (w : Walk) : Walk :=
  { w with warnings := w.warnings.map (Warning.renumber f) }

/-- A completion with the line numbers in its warnings changed. -/
def Completion.renumber (c : Completion) : Completion :=
  { c with warnings := c.warnings.map (Warning.renumber f) }

/-- A forest with the line numbers in its warnings changed. -/
def Forest.renumber {α : Type} (g : Forest α) : Forest α :=
  { g with warnings := g.warnings.map (Warning.renumber f) }

namespace Walk

theorem warn_renumber (w : Walk) (anomaly : Anomaly) (line : Nat) :
    (w.renumber f).warn anomaly (some (f line)) = (w.warn anomaly (some line)).renumber f := by
  simp [warn, renumber, Warning.renumber]

theorem checkProgram_renumber (w : Walk) (instruction : Instruction) (logged : Text)
    (line : Nat) : (w.renumber f).checkProgram instruction logged (f line) =
      (w.checkProgram instruction logged line).renumber f := by
  unfold checkProgram
  split
  · rfl
  · exact w.warn_renumber f _ line

theorem invokeTop_renumber (w : Walk) (logged : Text) (line : Nat) :
    (w.renumber f).invokeTop inner logged (f line) =
      (w.invokeTop inner logged line).renumber f := by
  have hwaiting : (w.renumber f).waiting = w.waiting := rfl
  unfold invokeTop
  rw [hwaiting]
  cases takeTop logged w.waiting with
  | none => exact warn_renumber f { w with openCount := 0 } _ line
  | some taken =>
      obtain ⟨⟨top, instruction⟩, rest⟩ := taken
      dsimp only
      rw [← checkProgram_renumber]
      rfl

theorem checkLevels_renumber (w : Walk) (depth line : Nat) :
    (w.renumber f).checkLevels depth (f line) = (w.checkLevels depth line).renumber f := by
  have hopen : (w.renumber f).openCount = w.openCount := rfl
  unfold checkLevels
  rw [hopen]
  split
  · exact w.warn_renumber f _ line
  · rfl

theorem invokeCall_renumber (w : Walk) (logged : Text) (depth line : Nat) :
    (w.renumber f).invokeCall logged depth (f line) =
      (w.invokeCall logged depth line).renumber f := by
  have hsame : (w.renumber f).branches = w.branches := rfl
  rcases w.outside_or_open with houtside | ⟨branch, others, hbranches, hopen⟩
  · have houtside' : (w.renumber f).branches = [] ∨ (w.renumber f).openCount = 0 := houtside
    rw [invokeCall_outside houtside, invokeCall_outside houtside']
    exact w.warn_renumber f _ line
  · cases hpending : branch.pending with
    | nil =>
        rw [invokeCall_spent hbranches hopen hpending,
          invokeCall_spent (hsame.trans hbranches) hopen hpending, checkLevels_renumber]
        exact warn_renumber f { w.checkLevels depth line with openCount := _ } _ line
    | cons call pending =>
        rw [invokeCall_next hbranches hopen hpending,
          invokeCall_next (hsame.trans hbranches) hopen hpending, checkLevels_renumber,
          ← checkProgram_renumber]
        rfl

theorem finish_renumber (w : Walk) (ending : Ending) :
    (w.renumber f).finish ending = (w.finish ending).renumber f := by
  have hbranches : (w.renumber f).branches = w.branches := rfl
  have hopen : (w.renumber f).openCount = w.openCount := rfl
  unfold finish
  rw [hbranches, hopen]
  cases w.branches with
  | nil => rfl
  | cons branch others =>
      dsimp only
      split <;> rfl

/-- A line does the same to a walk with other line numbers. -/
theorem step_renumber (w : Walk) (line : Nat) (marker : Option Marker) :
    (w.renumber f).step inner (f line) marker = (w.step inner line marker).renumber f := by
  cases marker with
  | none => rfl
  | some marker =>
      cases marker with
      | ended ending => exact w.finish_renumber f ending
      | invoke logged depth =>
          unfold step
          dsimp only
          split
          · exact invokeTop_renumber f { w with sawInvoke := true } logged line
          · exact invokeCall_renumber f { w with sawInvoke := true } logged depth line

/-- So do lines, numbered on from another number. -/
theorem lines_renumber {line line' : Nat} (hf : ∀ k, f (line + k) = line' + k) (w : Walk)
    (markers : List (Option Marker)) :
    (w.renumber f).lines inner line' markers = (w.lines inner line markers).renumber f := by
  induction markers generalizing w line line' with
  | nil => rfl
  | cons marker rest ih =>
      have hline : line' = f line := (hf 0).symm
      have hnext : ∀ k, f (line + 1 + k) = line' + 1 + k := by
        intro k
        rw [Nat.add_assoc, hf (1 + k), Nat.add_assoc]
      rw [lines, lines, ← ih hnext, ← step_renumber, hline]

theorem lines_append (w : Walk) (line : Nat) (markers markers' : List (Option Marker)) :
    w.lines inner line (markers ++ markers') =
      (w.lines inner line markers).lines inner (line + markers.length) markers' := by
  induction markers generalizing w line with
  | nil => rfl
  | cons marker rest ih =>
      have hline : line + (rest.length + 1) = line + 1 + rest.length := by omega
      rw [List.cons_append, lines, lines, ih, List.length_cons, hline]

end Walk

/-! ## The forest of a renumbered walk -/

namespace Completion

theorem addTop_renumber (w : Walk) (c : Completion) (instruction : Instruction) (top : Nat) :
    (c.renumber f).addTop (w.renumber f) inner instruction top =
      (c.addTop w inner instruction top).renumber f := by
  have hnotes : (notesOn w top).map (Warning.renumber f) = notesOn w top := by
    unfold notesOn
    split <;> split <;> rfl
  rw [addTop_eq, addTop_eq, renumber, renumber, List.map_append, hnotes]
  rfl

theorem foldl_addTop_renumber (inner : List InnerInstruction) (w : Walk)
    (items : List (Instruction × Nat)) (c : Completion) :
    items.foldl (fun c item => c.addTop (w.renumber f) inner item.1 item.2) (c.renumber f) =
      (items.foldl (fun c item => c.addTop w inner item.1 item.2) c).renumber f := by
  induction items generalizing c with
  | nil => rfl
  | cons item rest ih => rw [List.foldl_cons, List.foldl_cons, addTop_renumber, ih]

end Completion

/-- The forest that completes a walk. -/
def Walk.forest (w : Walk) (instructions : List Instruction) (inner : List InnerInstruction) :
    Forest Invocation :=
  let c := instructions.zipIdx.foldl (fun c item => c.addTop w inner item.1 item.2)
    ({ nextId := w.nextId, warnings := w.warnings } : Completion)
  ⟨c.trees, c.warnings ++
    (missingParents instructions.length inner).map fun p => ⟨.missingParent p, none⟩⟩

theorem buildForest_eq_forest (instructions : List Instruction) (inner : List InnerInstruction)
    (markers : List (Option Marker)) :
    buildForest instructions inner markers =
      (walkLog instructions inner markers).forest instructions inner := rfl

theorem Walk.forest_renumber (w : Walk) (instructions : List Instruction)
    (inner : List InnerInstruction) :
    (w.renumber f).forest instructions inner = (w.forest instructions inner).renumber f := by
  have hfold := Completion.foldl_addTop_renumber f inner w instructions.zipIdx
    { nextId := w.nextId, warnings := w.warnings }
  have horphans : ((missingParents instructions.length inner).map
      fun p => (⟨.missingParent p, none⟩ : Warning)).map (Warning.renumber f) =
      (missingParents instructions.length inner).map fun p => ⟨.missingParent p, none⟩ := by
    rw [List.map_map]
    rfl
  simp only [forest, Forest.renumber, List.map_append, horphans]
  exact congrArg (fun c : Completion => Forest.mk c.trees (c.warnings ++ _)) hfold

theorem Forest.decode_renumber (g : Forest Invocation) :
    (g.renumber f).decode r = (g.decode r).map (Forest.renumber f) := by
  have hwritable : (g.renumber f).warnings.all (·.anomaly.isWritable) =
      g.warnings.all (·.anomaly.isWritable) := by
    rw [renumber, List.all_map]
    rfl
  unfold decode
  rw [hwritable]
  change (do checkDecoding r g.walk; _) = _
  cases checkDecoding r g.walk with
  | error fault => rfl
  | ok _ =>
      cases hall : g.warnings.all (·.anomaly.isWritable) with
      | false => rfl
      | true =>
          change (do let trees ← Tree.mapExceptAll _ (Tree.numberedFrom [] 1 g.trees); _) = _
          cases Tree.mapExceptAll (fun item => item.2.node r item.1)
            (Tree.numberedFrom [] 1 g.trees) with
          | error fault => rfl
          | ok trees => rfl

/-! ## Lines that say nothing -/

/-- The number of a line behind which a line is put in before the line `pos`. -/
def shiftFrom (pos line : Nat) : Nat :=
  if line < pos then line else line + 1

theorem shiftFrom_add (pos k : Nat) : shiftFrom pos (pos + k) = pos + 1 + k := by
  rw [shiftFrom, if_neg (by omega)]
  omega

/-- The warnings of lines before the new one stay as they are. -/
theorem Walk.renumber_shiftFrom {w : Walk} {pos : Nat}
    (hw : ∀ x ∈ w.warnings, ∃ k, x.line = some k ∧ k < pos) : w.renumber (shiftFrom pos) = w := by
  have hsame : w.warnings.map (Warning.renumber (shiftFrom pos)) = w.warnings := by
    refine (List.map_congr_left fun x hx => ?_).trans (List.map_id w.warnings)
    obtain ⟨k, hline, hk⟩ := hw x hx
    obtain ⟨anomaly, line⟩ := x
    obtain rfl : line = some k := hline
    rw [Warning.renumber, Option.map_some, shiftFrom, if_pos hk, id_eq]
  rw [Walk.renumber, hsame]

theorem walkLog_insert_none (instructions : List Instruction) (inner : List InnerInstruction)
    (before after : List (Option Marker)) :
    walkLog instructions inner (before ++ none :: after) =
      (walkLog instructions inner (before ++ after)).renumber (shiftFrom before.length) := by
  have hearlier : (walkLog instructions inner before).renumber (shiftFrom before.length) =
      walkLog instructions inner before := by
    apply Walk.renumber_shiftFrom
    intro x hx
    obtain ⟨noted, hnoted, hlines⟩ := (Walk.start instructions).warnings_lines inner 0 before
    rw [walkLog, hnoted, Walk.start, List.nil_append] at hx
    obtain ⟨-, k, hline, -, hk⟩ := hlines x hx
    exact ⟨k, hline, by omega⟩
  calc walkLog instructions inner (before ++ none :: after)
    _ = (walkLog instructions inner before).lines inner (before.length + 1) after := by
        rw [walkLog, Walk.lines_append, Nat.zero_add]
        rfl
    _ = ((walkLog instructions inner before).renumber (shiftFrom before.length)).lines inner
          (before.length + 1) after := by rw [hearlier]
    _ = ((walkLog instructions inner before).lines inner before.length after).renumber
          (shiftFrom before.length) := Walk.lines_renumber _ (shiftFrom_add _) _ after
    _ = (walkLog instructions inner (before ++ after)).renumber (shiftFrom before.length) := by
        rw [walkLog, walkLog, Walk.lines_append, Nat.zero_add]

/-- A line that says nothing, put into a log, is not reached, or comes between what the lines
before it and those behind it say. -/
theorem Log.ofLines_insert_silent {line : Text} (hline : Marker.ofLine line = .ok none)
    (before after : List Text) :
    (ofLines (before ++ line :: after) = ofLines (before ++ after) ∧
        (ofLines (before ++ after)).fault ≠ none) ∨
      ∃ m m' fault, m.length = before.length ∧ ofLines (before ++ after) = ⟨m ++ m', fault⟩ ∧
        ofLines (before ++ line :: after) = ⟨m ++ none :: m', fault⟩ := by
  induction before with
  | nil =>
      refine Or.inr ⟨[], (ofLines after).markers, (ofLines after).fault, rfl, rfl, ?_⟩
      rw [List.nil_append, ofLines, List.map_cons, ofEntries, marker, hline]
      rfl
  | cons first before ih =>
      simp only [ofLines] at ih
      simp only [ofLines, List.cons_append, List.map_cons, ofEntries, marker]
      cases Marker.ofLine first with
      | error fault => exact Or.inl ⟨rfl, by simp⟩
      | ok m =>
          rcases ih with ⟨hsame, hfault⟩ | ⟨ms, ms', fault, hlength, hbase, hinsert⟩
          · exact Or.inl ⟨by simp only [hsame], hfault⟩
          · refine Or.inr ⟨m :: ms, ms', fault, by simp [hlength], ?_, ?_⟩
            · rw [hbase, List.cons_append]
            · rw [hinsert, List.cons_append]

/-- A line that says nothing leaves the forest as it is, and moves only the line numbers in
warnings of later lines. -/
theorem decodeForest_insert_silent {line : Text} (hline : Marker.ofLine line = .ok none)
    (r : Registry) (instructions : List Instruction) (inner : List InnerInstruction)
    (before after : List Text) :
    decodeForest r instructions inner (.ofLines (before ++ line :: after)) =
      (decodeForest r instructions inner (.ofLines (before ++ after))).map
        (Forest.renumber (shiftFrom before.length)) := by
  rcases Log.ofLines_insert_silent hline before after with
    ⟨hsame, hfault⟩ | ⟨m, m', fault, hlength, hbase, hinsert⟩
  · rw [hsame]
    unfold decodeForest
    cases hcause : (Log.ofLines (before ++ after)).fault with
    | none => exact absurd hcause hfault
    | some fault =>
        cases checkDecoding r _ with
        | error _ => rfl
        | ok _ => rfl
  · have hwalk := walkLog_insert_none instructions inner m m'
    rw [hbase, hinsert, ← hlength]
    unfold decodeForest
    cases fault with
    | none =>
        dsimp only
        rw [buildForest_eq_forest, hwalk, Walk.forest_renumber, Forest.decode_renumber]
        rfl
    | some fault =>
        dsimp only
        rw [hwalk]
        change (do checkDecoding r (walkLog instructions inner (m ++ m')).placed; _) = _
        cases checkDecoding r (walkLog instructions inner (m ++ m')).placed with
        | error _ => rfl
        | ok _ => rfl

/-! ## Leaving all silent lines out -/

/-- Walks that are the same but for line numbers stay so, whatever silent lines come between. -/
theorem Walk.lines_filter_isSome {w w' : Walk}
    (hw : w.renumber (fun _ => 0) = w'.renumber (fun _ => 0)) (line line' : Nat)
    (markers : List (Option Marker)) :
    (w.lines inner line markers).renumber (fun _ => 0) =
      (w'.lines inner line' (markers.filter (·.isSome))).renumber (fun _ => 0) := by
  induction markers generalizing w w' line line' with
  | nil => exact hw
  | cons marker rest ih =>
      cases marker with
      | none => exact ih hw (line + 1) line'
      | some m =>
          have hstep : (w.step inner line (some m)).renumber (fun _ => 0) =
              (w'.step inner line' (some m)).renumber (fun _ => 0) := by
            rw [← step_renumber, ← step_renumber, hw]
          rw [List.filter_cons_of_pos rfl, lines, lines]
          exact ih hstep (line + 1) (line' + 1)

/-- A forest without its line numbers is that of the lines that say something. -/
theorem buildForest_filter_isSome (instructions : List Instruction)
    (inner : List InnerInstruction) (markers : List (Option Marker)) :
    (buildForest instructions inner markers).renumber (fun _ => 0) =
      (buildForest instructions inner (markers.filter (·.isSome))).renumber (fun _ => 0) := by
  have hwalk : (walkLog instructions inner markers).renumber (fun _ => 0) =
      (walkLog instructions inner (markers.filter (·.isSome))).renumber (fun _ => 0) :=
    Walk.lines_filter_isSome rfl 0 0 markers
  rw [buildForest_eq_forest, buildForest_eq_forest, ← Walk.forest_renumber,
    ← Walk.forest_renumber, hwalk]

theorem trees_buildForest_filter_isSome (instructions : List Instruction)
    (inner : List InnerInstruction) (markers : List (Option Marker)) :
    (buildForest instructions inner markers).trees =
      (buildForest instructions inner (markers.filter (·.isSome))).trees := by
  have hsame := congrArg Forest.trees (buildForest_filter_isSome instructions inner markers)
  exact hsame

/-- Where no warning names a line, silent lines make no difference. -/
theorem buildForest_eq_of_filter {instructions : List Instruction}
    {inner : List InnerInstruction} {markers : List (Option Marker)}
    (h : ∀ x ∈ (buildForest instructions inner (markers.filter (·.isSome))).warnings,
      x.line = none) :
    buildForest instructions inner markers =
      buildForest instructions inner (markers.filter (·.isSome)) := by
  have hsame := buildForest_filter_isSome instructions inner markers
  generalize buildForest instructions inner (markers.filter (·.isSome)) = g at h hsame
  generalize buildForest instructions inner markers = g' at hsame
  obtain ⟨trees, warnings⟩ := g
  obtain ⟨trees', warnings'⟩ := g'
  obtain rfl : trees' = trees := congrArg Forest.trees hsame
  have hwarnings : warnings'.map (Warning.renumber fun _ => 0) =
      warnings.map (Warning.renumber fun _ => 0) := congrArg Forest.warnings hsame
  have hkeep : ∀ x : Warning, x.line = none → x.renumber (fun _ => 0) = x := by
    rintro ⟨anomaly, line⟩ rfl
    rfl
  have hlines : ∀ x ∈ warnings', x.line = none := by
    intro x hx
    have hmem : x.renumber (fun _ => 0) ∈ warnings.map (Warning.renumber fun _ => 0) := by
      rw [← hwarnings]
      exact List.mem_map_of_mem hx
    obtain ⟨y, hy, hxy⟩ := List.mem_map.mp hmem
    have hline := congrArg Warning.line hxy
    rw [hkeep y (h y hy), h y hy, Warning.renumber] at hline
    exact Option.map_eq_none_iff.mp hline.symm
  rw [List.map_congr_left fun x hx => hkeep x (h x hx),
    List.map_congr_left fun x hx => hkeep x (hlines x hx), List.map_id', List.map_id']
    at hwarnings
  rw [hwarnings]

end SolanaTx
