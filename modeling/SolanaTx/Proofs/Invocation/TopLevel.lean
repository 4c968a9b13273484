import SolanaTx.Proofs.Bytes.Base58
import SolanaTx.Proofs.Invocation.Completion
import SolanaTx.Proofs.Invocation.LineNumbers
import SolanaTx.Proofs.Invocation.OpenBranch

/-!
# Instructions at the top, one after the other

Where the log starts some of the instructions in their order, each start takes up its
own instruction, and what follows up to the next start works on the tree of that
instruction only. So what one part of the log does to a new tree is what the whole
log does to each.
-/

namespace SolanaTx

variable {inner : List InnerInstruction}

namespace Walk

theorem sawInvoke_warn (w : Walk) (anomaly : Anomaly) (line : Option Nat) :
    (w.warn anomaly line).sawInvoke = w.sawInvoke := rfl

theorem sawInvoke_checkProgram (w : Walk) (instruction : Instruction) (logged : Text)
    (line : Nat) : (w.checkProgram instruction logged line).sawInvoke = w.sawInvoke := by
  rcases w.checkProgram_eq_or instruction logged line with h | h
  · rw [h]
  · rw [h, sawInvoke_warn]

theorem sawInvoke_checkLevels (w : Walk) (depth line : Nat) :
    (w.checkLevels depth line).sawInvoke = w.sawInvoke := by
  rcases w.checkLevels_eq_or depth line with ⟨h, -⟩ | h
  · rw [h]
  · rw [h, sawInvoke_warn]

theorem sawInvoke_invoke (w : Walk) (logged : Text) (depth line : Nat) :
    (w.step inner line (some (.invoke logged depth))).sawInvoke := by
  rw [step]
  split
  · rw [invokeTop]
    split
    · rfl
    · rw [sawInvoke_checkProgram]
  · rcases outside_or_open { w with sawInvoke := true } with
      houtside | ⟨branch, others, hbranches, hopen⟩
    · rw [invokeCall_outside houtside, sawInvoke_warn]
    · cases hpending : branch.pending with
      | nil =>
          rw [invokeCall_spent hbranches hopen hpending, sawInvoke_warn, sawInvoke_checkLevels]
      | cons call pending =>
          rw [invokeCall_next hbranches hopen hpending, sawInvoke_checkProgram,
            sawInvoke_checkLevels]

/-- That an invocation was seen is not forgotten. -/
theorem sawInvoke_step {w : Walk} (hw : w.sawInvoke) (line : Nat) (marker : Option Marker) :
    (w.step inner line marker).sawInvoke := by
  match marker with
  | none => exact hw
  | some (.ended ending) =>
      rw [step, finish]
      split
      · exact hw
      · split
        · exact hw
        · exact hw
  | some (.invoke logged depth) => exact w.sawInvoke_invoke logged depth line

theorem sawInvoke_lines {w : Walk} (hw : w.sawInvoke) (line : Nat)
    (markers : List (Option Marker)) : (w.lines inner line markers).sawInvoke := by
  induction markers generalizing w line with
  | nil => exact hw
  | cons marker rest ih => exact ih (sawInvoke_step hw line marker) (line + 1)

theorem sawInvoke_lines_of_mem (w : Walk) (line : Nat) {markers : List (Option Marker)}
    {logged : Text} {depth : Nat} (hmem : some (.invoke logged depth) ∈ markers) :
    (w.lines inner line markers).sawInvoke := by
  obtain ⟨before, after, rfl⟩ := List.append_of_mem hmem
  rw [lines_append, lines]
  exact sawInvoke_lines (sawInvoke_invoke _ logged depth _) _ after

/-- Of waiting instructions, a start passes those of other programs. -/
theorem takeTop_append {logged : Text} {skipped rest : List (Nat × Instruction)}
    {item : Nat × Instruction} (hskipped : ∀ x ∈ skipped, x.2.program.text ≠ logged)
    (hitem : item.2.program.text = logged) :
    takeTop logged (skipped ++ item :: rest) = some (item, rest) := by
  have hdrop : (skipped ++ item :: rest).dropWhile
      (fun x => decide (x.2.program.text ≠ logged)) = item :: rest := by
    rw [List.dropWhile_append_of_pos fun x hx => decide_eq_true (hskipped x hx),
      List.dropWhile_cons_of_neg (by simp [hitem])]
  unfold takeTop
  rw [hdrop]

/-- Whether a walk is at the start of an instruction, which has made no call yet. -/
structure Fresh (w : Walk) (inner : List InnerInstruction) (top : Nat) (instruction : Instruction)
    (others : List Branch) : Prop where
  branches : ∃ id, w.branches =
    ⟨.leaf { id, instruction, depth := 0, top }, callsOf inner top⟩ :: others
  openCount : w.openCount = 1

/-- A start takes up its instruction. -/
theorem fresh_step_invoke (inner : List InnerInstruction) {w : Walk}
    {skipped rest : List (Nat × Instruction)} {top : Nat} {instruction : Instruction}
    (hw : w.waiting = skipped ++ (top, instruction) :: rest)
    (hskipped : ∀ x ∈ skipped, x.2.program.text ≠ instruction.program.text) (line : Nat) :
    let w' := w.step inner line (some (.invoke instruction.program.text 1))
    w'.Fresh inner top instruction w.branches ∧ w'.waiting = rest ∧
      w'.warnings = w.warnings ∧ w'.sawInvoke := by
  have hstep : w.step inner line (some (.invoke instruction.program.text 1)) =
      { w with
        sawInvoke := true
        waiting := rest
        branches := ⟨.leaf { id := w.nextId, instruction, depth := 0, top }, callsOf inner top⟩ ::
          w.branches
        openCount := 1
        nextId := w.nextId + 1 } := by
    rw [step, if_pos (Nat.le_refl 1), invokeTop]
    dsimp only
    rw [hw, takeTop_append hskipped rfl]
    dsimp only
    rw [checkProgram, if_pos rfl]
  rw [hstep]
  exact ⟨⟨⟨w.nextId, rfl⟩, rfl⟩, rfl, rfl, rfl⟩

end Walk

/-- An instruction at the top and what the log says after its start, or none where the log does not
start it. -/
structure Part where
  instruction : Instruction
  body : Option (List Marker)

namespace Part

/-- What the log says of a part. -/
def markers (p : Part) : List Marker :=
  match p.body with
  | some body => .invoke p.instruction.program.text 1 :: body
  | none => []

/-- Whether no start of the later part can be taken for one of the part before it, which the log
does not start. -/
def Apart (p p' : Part) : Prop :=
  p.body = none → p'.body.isSome → p.instruction.program ≠ p'.instruction.program

/-- Whether what the log says after the start of a part gives a new tree a property, and touches
nothing else. With `quiet`, nothing odd is noted. -/
def Makes (inner : List InnerInstruction) (quiet : Prop) (q : Branch → Prop) (top : Nat)
    (p : Part) : Prop :=
  ∀ (body : List Marker), p.body = some body → ∀ (w : Walk) (others : List Branch) (line : Nat),
    w.Fresh inner top p.instruction others →
      ∃ b, (w.lines inner line (body.map some)).branches = b :: others ∧ b.top = top ∧ q b ∧
        (w.lines inner line (body.map some)).waiting = w.waiting ∧
        (quiet → (w.lines inner line (body.map some)).warnings = w.warnings)

theorem Makes.mono {quiet : Prop} {q q' : Branch → Prop} {top : Nat} {p : Part}
    (h : p.Makes inner quiet q top) (hq : ∀ b, q b → q' b) : p.Makes inner quiet q' top := by
  intro body hbody w others line hfresh
  obtain ⟨b, hbranches, htop, hb, hrest⟩ := h body hbody w others line hfresh
  exact ⟨b, hbranches, htop, hq b hb, hrest⟩

/-- Whether the tree of a part is there with a property, or is not there where the log does not
start it. -/
def Shown (q : Branch → Prop) (w : Walk) (top : Nat) (p : Part) : Prop :=
  match p.body with
  | some _ => ∃ b, w.branches.find? (·.top = top) = some b ∧ q b
  | none => w.branches.find? (·.top = top) = none

end Part

namespace Walk

/-- Whether a walk has still to come to the parts from place `k` on. Instructions passed before, and
those that the log does not start, are of other programs than it starts later. -/
structure Expects (w : Walk) (parts : List Part) (k : Nat) : Prop where
  waiting : ∃ skipped, w.waiting =
      skipped ++ (parts.zipIdx k).map (fun item => (item.2, item.1.instruction)) ∧
    ∀ x ∈ skipped, ∀ p ∈ parts, p.body.isSome →
      x.2.program.text ≠ p.instruction.program.text
  apart : parts.Pairwise Part.Apart
  tops : ∀ b ∈ w.branches, b.top < k

variable {w : Walk} {instruction : Instruction} {rest : List Part} {k : Nat}

/-- An instruction that the log does not start stays in front of those that wait. -/
theorem Expects.pass (h : w.Expects (⟨instruction, none⟩ :: rest) k) : w.Expects rest (k + 1) := by
  obtain ⟨skipped, hwaiting, hskipped⟩ := h.waiting
  refine ⟨⟨skipped ++ [(k, instruction)], ?_, ?_⟩, h.apart.of_cons, ?_⟩
  · rw [hwaiting, List.zipIdx_cons, List.map_cons, List.append_assoc, List.singleton_append]
  · intro x hx p hp hsome
    rcases List.mem_append.mp hx with hx | hx
    · exact hskipped x hx p (List.mem_cons_of_mem _ hp) hsome
    · obtain rfl := List.mem_singleton.mp hx
      exact fun htext => List.rel_of_pairwise_cons h.apart hp rfl hsome
        (Pubkey.text_injective htext)
  · intro b hb
    exact Nat.lt_succ_of_lt (h.tops b hb)

theorem Expects.find?_eq_none {p : Part} (h : w.Expects (p :: rest) k) :
    w.branches.find? (·.top = k) = none := by
  rw [List.find?_eq_none]
  intro b hb
  have hlt := h.tops b hb
  simp only [decide_eq_true_eq]
  omega

/-- An instruction that the log starts gets its tree. -/
theorem Expects.make {quiet : Prop} {q : Branch → Prop} {body : List Marker}
    (h : w.Expects (⟨instruction, some body⟩ :: rest) k)
    (hmakes : Part.Makes inner quiet q k ⟨instruction, some body⟩) (line : Nat) :
    ∃ b w', w' = w.lines inner line ((Part.markers ⟨instruction, some body⟩).map some) ∧
      w'.branches = b :: w.branches ∧ b.top = k ∧ q b ∧ w'.Expects rest (k + 1) ∧
      (quiet → w'.warnings = w.warnings) ∧ w'.sawInvoke := by
  obtain ⟨skipped, hwaiting, hskipped⟩ := h.waiting
  rw [List.zipIdx_cons, List.map_cons] at hwaiting
  obtain ⟨hfresh, hleft, hnoted, hsaw⟩ := fresh_step_invoke inner hwaiting
    (fun x hx => hskipped x hx _ List.mem_cons_self rfl) line
  obtain ⟨b, hbranches, htop, hq, hkept, hquiet⟩ := hmakes body rfl _ _ (line + 1) hfresh
  refine ⟨b, _, rfl, hbranches, htop, hq, ⟨⟨[], hkept.trans hleft, by simp⟩, h.apart.of_cons, ?_⟩,
    fun hq => (hquiet hq).trans hnoted, sawInvoke_lines hsaw _ _⟩
  intro b' hb'
  have hmem : b' ∈ b :: w.branches := hbranches ▸ hb'
  rcases List.mem_cons.mp hmem with rfl | hmem
  · omega
  · exact Nat.lt_succ_of_lt (h.tops b' hmem)

/-- The parts of a log make their trees, each its own. -/
theorem Expects.lines {quiet : Prop} {q : Nat → Branch → Prop} {parts : List Part}
    (h : w.Expects parts k)
    (hmakes : ∀ item ∈ parts.zipIdx k, item.1.Makes inner quiet (q item.2) item.2) (line : Nat) :
    ∃ w', w' = w.lines inner line ((parts.flatMap Part.markers).map some) ∧
      (∀ item ∈ parts.zipIdx k, item.1.Shown (q item.2) w' item.2) ∧
      (∀ top < k, w'.branches.find? (·.top = top) = w.branches.find? (·.top = top)) ∧
      (quiet → w'.warnings = w.warnings) ∧
      w'.sawInvoke = (w.sawInvoke || parts.any (·.body.isSome)) := by
  induction parts generalizing k w line with
  | nil => exact ⟨w, rfl, by simp, fun _ _ => rfl, fun _ => rfl, by simp⟩
  | cons p rest ih =>
      obtain ⟨instruction, body⟩ := p
      rw [List.zipIdx_cons, List.forall_mem_cons] at hmakes
      cases body with
      | none =>
          -- later parts have later places, so no tree with this place comes up
          obtain ⟨w', hrun, hshown, hsame, hquiet, hsaw⟩ := ih h.pass hmakes.2 line
          refine ⟨w', hrun, ?_, ?_, hquiet, ?_⟩
          · rw [List.zipIdx_cons, List.forall_mem_cons]
            exact ⟨(hsame k (Nat.lt_succ_self k)).trans h.find?_eq_none, hshown⟩
          · intro top htop
            exact hsame top (Nat.lt_succ_of_lt htop)
          · rw [hsaw, List.any_cons]
            rfl
      | some body =>
          obtain ⟨b, made, hmade, hbranches, htop, hq, hnext, hnoted, hseen⟩ :=
            h.make hmakes.1 line
          obtain ⟨w', hrun, hshown, hsame, hquiet, hsaw⟩ := ih hnext hmakes.2
            (line + ((Part.markers ⟨instruction, some body⟩).map some).length)
          -- the tree made here stands behind those of later parts, which have other places
          refine ⟨w', ?_, ?_, ?_, ?_, ?_⟩
          · rw [hrun, hmade, List.flatMap_cons, List.map_append, lines_append]
          · rw [List.zipIdx_cons, List.forall_mem_cons]
            refine ⟨⟨b, ?_, hq⟩, hshown⟩
            rw [hsame k (Nat.lt_succ_self k), hbranches]
            exact List.find?_cons_of_pos (by simpa using htop)
          · intro top hlt
            rw [hsame top (Nat.lt_succ_of_lt hlt), hbranches]
            apply List.find?_cons_of_neg
            simp only [decide_eq_true_eq]
            omega
          · intro hq
            rw [hquiet hq, hnoted hq]
          · rw [hsaw, hseen, List.any_cons, Option.isSome_some, Bool.true_or, Bool.or_true]

/-- A new walk expects all parts of a log. -/
theorem expects_start {parts : List Part} (hapart : parts.Pairwise Part.Apart) :
    (start (parts.map (·.instruction))).Expects parts 0 := by
  refine ⟨⟨[], ?_, by simp⟩, hapart, by simp [start]⟩
  rw [start, List.zipIdx_map, List.map_map, List.nil_append]
  rfl

end Walk

variable {quiet : Prop} {q : Nat → Branch → Prop} {parts : List Part}

/-- What the parts of a log make of a walk. -/
theorem walkLog_parts (hapart : parts.Pairwise Part.Apart)
    (hmakes : ∀ item ∈ parts.zipIdx, item.1.Makes inner quiet (q item.2) item.2) :
    ∃ w, w = walkLog (parts.map (·.instruction)) inner ((parts.flatMap Part.markers).map some) ∧
      (∀ item ∈ parts.zipIdx, item.1.Shown (q item.2) w item.2) ∧
      (quiet → w.warnings = []) ∧ w.sawInvoke = parts.any (·.body.isSome) := by
  obtain ⟨w, hwalk, hshown, -, hquiet, hsaw⟩ := (Walk.expects_start hapart).lines hmakes 0
  refine ⟨w, hwalk, hshown, hquiet, ?_⟩
  rw [hsaw, Walk.start, Bool.false_or]

/-- The tree of an instruction that the log starts is the one that its part makes, with the calls
left over placed by height; that of another instruction is new. -/
theorem exists_tree_of_parts (hapart : parts.Pairwise Part.Apart)
    (hmakes : ∀ item ∈ parts.zipIdx, item.1.Makes inner quiet (q item.2) item.2)
    {i : Nat} {tree : Tree Invocation}
    (htree : (buildForest (parts.map (·.instruction)) inner
      ((parts.flatMap Part.markers).map some)).trees[i]? = some tree) :
    ∃ p nextId, parts[i]? = some p ∧
      match p.body with
      | some _ => ∃ b, q i b ∧ tree = (Completion.placeCalls b.tree nextId b.pending).1
      | none => tree = (Completion.placeCalls
          (.leaf { id := nextId, instruction := p.instruction, depth := 0, top := i })
          (nextId + 1) (callsOf inner i)).1 := by
  obtain ⟨instruction, nextId, hinstruction, rfl⟩ := exists_treeOf_of_getElem? _ _ _ htree
  obtain ⟨w, hwalk, hshown, -⟩ := walkLog_parts hapart hmakes
  rw [List.getElem?_map] at hinstruction
  obtain ⟨p, hp, rfl⟩ := Option.map_eq_some_iff.mp hinstruction
  have hpart := hshown (p, i) (List.mem_zipIdx_iff_getElem?.mpr hp)
  rw [← hwalk]
  refine ⟨p, nextId, hp, ?_⟩
  cases hbody : p.body with
  | none =>
      rw [Part.Shown, hbody] at hpart
      dsimp only at hpart ⊢
      rw [Completion.treeOf, hpart]
  | some body =>
      rw [Part.Shown, hbody] at hpart
      obtain ⟨b, hfind, hq⟩ := hpart
      refine ⟨b, hq, ?_⟩
      rw [Completion.treeOf, hfind]

end SolanaTx
