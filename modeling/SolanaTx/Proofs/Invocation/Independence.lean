import SolanaTx.Proofs.Invocation.Conservation
import SolanaTx.Proofs.Program.Classification

/-!
# Payloads and decoders have no part in the forest

Where an invocation is placed, how it ends and what is noted about the log rests on the programs of
the instructions alone, and on the parents and heights of the calls. So the forest of instructions
without payloads is the forest of the instructions, without their payloads.
-/

namespace SolanaTx

open Fallible

/-! ## Without payloads -/

/-- An instruction without its payload and its accounts. -/
def Instruction.bare (i : Instruction) : Instruction :=
  ⟨i.program, [], []⟩

def InnerInstruction.bare (call : InnerInstruction) : InnerInstruction :=
  { call with instruction := call.instruction.bare }

/-- An invocation with all but the payload and the accounts of its instruction. -/
def Invocation.bare (v : Invocation) : Invocation :=
  { v with instruction := v.instruction.bare }

def Branch.bare (b : Branch) : Branch :=
  ⟨b.tree.map Invocation.bare, b.pending.map InnerInstruction.bare⟩

/-- A place with the instruction in it. -/
def bareItem (item : Nat × Instruction) : Nat × Instruction :=
  (item.1, item.2.bare)

def Walk.bare (w : Walk) : Walk :=
  { w with waiting := w.waiting.map bareItem, branches := w.branches.map Branch.bare }

def Completion.bare (c : Completion) : Completion :=
  { c with trees := Tree.mapAll Invocation.bare c.trees }

def Forest.bare (f : Forest Invocation) : Forest Invocation :=
  { f with trees := Tree.mapAll Invocation.bare f.trees }

theorem callsOf_bare (inner : List InnerInstruction) (top : Nat) :
    callsOf (inner.map InnerInstruction.bare) top =
      (callsOf inner top).map InnerInstruction.bare := by
  rw [callsOf, callsOf, List.filter_map]
  rfl

namespace Branch

theorem top_bare (b : Branch) : b.bare.top = b.top := by
  rw [top, bare, Tree.value_map]
  rfl

theorem place_bare (b : Branch) (id depth : Nat) (instruction : Instruction)
    (placedBy : Option StackHeight) :
    b.bare.place id depth instruction.bare placedBy =
      (b.place id depth instruction placedBy).map Invocation.bare := by
  rw [place, place, ← Tree.attach_map, top_bare]
  simp only [bare, Tree.reach_map, Invocation.bare]

end Branch

/-! ## Along the log -/

namespace Walk

variable {inner : List InnerInstruction}

theorem checkProgram_bare (w : Walk) (instruction : Instruction) (logged : Text) (line : Nat) :
    w.bare.checkProgram instruction.bare logged line =
      (w.checkProgram instruction logged line).bare := by
  unfold checkProgram
  split
  · rw [if_pos ‹_›]
  · rw [if_neg ‹_›]
    rfl

theorem takeTop_bare (logged : Text) (waiting : List (Nat × Instruction)) :
    takeTop logged (waiting.map bareItem) =
      (takeTop logged waiting).map fun taken => (bareItem taken.1, taken.2.map bareItem) := by
  have hdrop : (waiting.map bareItem).dropWhile (fun item => item.2.program.text ≠ logged) =
      (waiting.dropWhile fun item => item.2.program.text ≠ logged).map bareItem := by
    rw [List.dropWhile_map]
    rfl
  unfold takeTop
  rw [hdrop]
  cases waiting.dropWhile fun item => item.2.program.text ≠ logged with
  | cons item rest => rfl
  | nil => cases waiting <;> rfl

theorem invokeTop_bare (w : Walk) (logged : Text) (line : Nat) :
    w.bare.invokeTop (inner.map InnerInstruction.bare) logged line =
      (w.invokeTop inner logged line).bare := by
  have hwaiting : w.bare.waiting = w.waiting.map bareItem := rfl
  unfold invokeTop
  rw [hwaiting, takeTop_bare]
  cases takeTop logged w.waiting with
  | none => rfl
  | some taken =>
      obtain ⟨⟨top, instruction⟩, rest⟩ := taken
      dsimp only [Option.map_some, bareItem]
      rw [← checkProgram_bare, callsOf_bare]
      rfl

theorem checkLevels_bare (w : Walk) (depth line : Nat) :
    w.bare.checkLevels depth line = (w.checkLevels depth line).bare := by
  have hopen : w.bare.openCount = w.openCount := rfl
  unfold checkLevels
  rw [hopen]
  split <;> rfl

theorem branches_bare_of_cons {w : Walk} {branch : Branch} {others : List Branch}
    (hw : w.branches = branch :: others) :
    w.bare.branches = branch.bare :: others.map Branch.bare := by
  simp [bare, hw]

theorem invokeCall_bare (w : Walk) (logged : Text) (depth line : Nat) :
    w.bare.invokeCall logged depth line = (w.invokeCall logged depth line).bare := by
  rcases w.outside_or_open with houtside | ⟨branch, others, hbranches, hopen⟩
  · have hbare : w.bare.branches = [] ∨ w.bare.openCount = 0 := by simpa [bare] using houtside
    rw [invokeCall_outside houtside, invokeCall_outside hbare]
    rfl
  · cases hpending : branch.pending with
    | nil =>
        have hbare : branch.bare.pending = [] := by simp [Branch.bare, hpending]
        rw [invokeCall_spent hbranches hopen hpending,
          invokeCall_spent (branches_bare_of_cons hbranches) hopen hbare, checkLevels_bare,
          Branch.top_bare]
        rfl
    | cons call pending =>
        have hbare : branch.bare.pending = call.bare :: pending.map InnerInstruction.bare := by
          simp [Branch.bare, hpending]
        have hcall : call.bare.instruction = call.instruction.bare := rfl
        rw [invokeCall_next hbranches hopen hpending,
          invokeCall_next (branches_bare_of_cons hbranches) hopen hbare, checkLevels_bare,
          hcall, Branch.place_bare, ← checkProgram_bare]
        rfl

theorem finish_bare (w : Walk) (ending : Ending) :
    w.bare.finish ending = (w.finish ending).bare := by
  have hsettle : ∀ v : Invocation,
      v.bare.settle ending = (v.settle ending).map Invocation.bare := by
    intro v
    unfold Invocation.settle
    split
    · rw [if_pos ‹_›]
      rfl
    · rw [if_neg ‹_›]
      rfl
  cases hw : w.branches with
  | nil =>
      have hbare : w.bare.branches = [] := by simp [bare, hw]
      unfold finish
      rw [hbare, hw]
  | cons branch others =>
      have hupdate : branch.bare.tree.updateDeepest (Invocation.settle ending) w.bare.openCount =
          (branch.tree.updateDeepest (Invocation.settle ending) w.openCount).map
            (Tree.map Invocation.bare) :=
        Tree.updateDeepest_map hsettle w.openCount branch.tree
      rw [finish_cons ending (branches_bare_of_cons hw), finish_cons ending hw, hupdate]
      cases branch.tree.updateDeepest (Invocation.settle ending) w.openCount <;> rfl

/-- A line does the same to a walk without payloads. -/
theorem step_bare (w : Walk) (line : Nat) (marker : Option Marker) :
    w.bare.step (inner.map InnerInstruction.bare) line marker =
      (w.step inner line marker).bare := by
  cases marker with
  | none => rfl
  | some marker =>
      cases marker with
      | ended ending => exact w.finish_bare ending
      | invoke logged depth =>
          unfold step
          dsimp only
          split
          · exact invokeTop_bare { w with sawInvoke := true } logged line
          · exact invokeCall_bare { w with sawInvoke := true } logged depth line

theorem lines_bare (w : Walk) (line : Nat) (markers : List (Option Marker)) :
    w.bare.lines (inner.map InnerInstruction.bare) line markers =
      (w.lines inner line markers).bare := by
  induction markers generalizing w line with
  | nil => rfl
  | cons marker rest ih => rw [lines, lines, step_bare, ih]

end Walk

theorem walkLog_bare (instructions : List Instruction) (inner : List InnerInstruction)
    (markers : List (Option Marker)) :
    walkLog (instructions.map Instruction.bare) (inner.map InnerInstruction.bare) markers =
      (walkLog instructions inner markers).bare := by
  have hstart : Walk.start (instructions.map Instruction.bare) =
      (Walk.start instructions).bare := by
    simp [Walk.start, Walk.bare, List.zipIdx_map, bareItem, Function.comp_def]
  rw [walkLog, hstart, Walk.lines_bare]
  rfl

/-! ## When the log is over -/

namespace Completion

theorem placeCalls_bare (calls : List InnerInstruction) (tree : Tree Invocation) (nextId : Nat) :
    placeCalls (tree.map Invocation.bare) nextId (calls.map InnerInstruction.bare) =
      ((placeCalls tree nextId calls).1.map Invocation.bare,
        (placeCalls tree nextId calls).2) := by
  induction calls generalizing tree nextId with
  | nil => rfl
  | cons call rest ih =>
      have hplace := Branch.place_bare ⟨tree, rest⟩ nextId (call.height.callerDepth (nextId + 1))
        call.instruction (some call.height)
      rw [List.map_cons, placeCalls, placeCalls, ← ih, ← hplace]
      rfl

variable (w : Walk) (inner : List InnerInstruction)

theorem find?_bare (top : Nat) : w.bare.branches.find? (·.top = top) =
    (w.branches.find? (·.top = top)).map Branch.bare := by
  rw [Walk.bare, List.find?_map]
  simp only [Function.comp_def, Branch.top_bare]

theorem treeOf_bare (nextId : Nat) (instruction : Instruction) (top : Nat) :
    treeOf w.bare (inner.map InnerInstruction.bare) nextId instruction.bare top =
      ((treeOf w inner nextId instruction top).1.map Invocation.bare,
        (treeOf w inner nextId instruction top).2) := by
  unfold treeOf
  rw [find?_bare]
  cases w.branches.find? (·.top = top) with
  | some branch => exact placeCalls_bare branch.pending branch.tree nextId
  | none =>
      rw [callsOf_bare]
      exact placeCalls_bare (callsOf inner top)
        (.leaf { id := nextId, instruction, depth := 0, top }) (nextId + 1)

theorem notesOn_bare (top : Nat) : notesOn w.bare top = notesOn w top := by
  unfold notesOn
  rw [find?_bare]
  cases w.branches.find? (·.top = top) with
  | some branch => simp [Walk.bare, Branch.bare]
  | none => rfl

theorem addTop_bare (c : Completion) (instruction : Instruction) (top : Nat) :
    c.bare.addTop w.bare (inner.map InnerInstruction.bare) instruction.bare top =
      (c.addTop w inner instruction top).bare := by
  rw [addTop_eq, addTop_eq, bare, bare, notesOn_bare, treeOf_bare]
  simp [Tree.mapAll_eq_map]

theorem foldl_addTop_bare (items : List (Instruction × Nat)) (c : Completion) :
    (items.map fun item => (item.1.bare, item.2)).foldl (fun c item =>
        c.addTop w.bare (inner.map InnerInstruction.bare) item.1 item.2) c.bare =
      (items.foldl (fun c item => c.addTop w inner item.1 item.2) c).bare := by
  induction items generalizing c with
  | nil => rfl
  | cons item rest ih => rw [List.map_cons, List.foldl_cons, List.foldl_cons, addTop_bare, ih]

end Completion

/-- Instructions without payloads have the same forest, without payloads. -/
theorem buildForest_bare (instructions : List Instruction) (inner : List InnerInstruction)
    (markers : List (Option Marker)) :
    buildForest (instructions.map Instruction.bare) (inner.map InnerInstruction.bare) markers =
      (buildForest instructions inner markers).bare := by
  have hfold := Completion.foldl_addTop_bare (walkLog instructions inner markers) inner
    instructions.zipIdx ⟨[], (walkLog instructions inner markers).nextId,
      (walkLog instructions inner markers).warnings⟩
  have hitems : (instructions.map Instruction.bare).zipIdx =
      instructions.zipIdx.map fun item => (item.1.bare, item.2) := by
    rw [List.zipIdx_map]
    rfl
  have horphans : missingParents (instructions.map Instruction.bare).length
      (inner.map InnerInstruction.bare) = missingParents instructions.length inner := by
    simp [missingParents, Function.comp_def, InnerInstruction.bare]
  unfold buildForest
  rw [walkLog_bare, hitems, horphans]
  exact congrArg (fun c : Completion => Forest.mk c.trees (c.warnings ++ _)) hfold

/-! ## Two forests -/

variable {instructions instructions' : List Instruction} {inner inner' : List InnerInstruction}
  {r r' : Registry} {log : Log} {f f' : Forest Node}

/-- What the forest rests on in a call: its parent, its height and its program. -/
def InnerInstruction.frame (call : InnerInstruction) : Int × StackHeight × Pubkey :=
  (call.parent, call.height, call.instruction.program)

/-- Instructions of the same programs have the same forest, whatever their payloads. -/
theorem bare_buildForest_congr
    (hprograms : instructions.map (·.program) = instructions'.map (·.program))
    (hcalls : inner.map InnerInstruction.frame = inner'.map InnerInstruction.frame)
    (markers : List (Option Marker)) :
    (buildForest instructions inner markers).bare =
      (buildForest instructions' inner' markers).bare := by
  have hinstructions : instructions.map Instruction.bare = instructions'.map Instruction.bare := by
    have hbare := congrArg (List.map fun program => (⟨program, [], []⟩ : Instruction)) hprograms
    rwa [List.map_map, List.map_map] at hbare
  have hinner : inner.map InnerInstruction.bare = inner'.map InnerInstruction.bare := by
    have hbare := congrArg (List.map fun (parent, height, program) =>
      (⟨parent, ⟨program, [], []⟩, height⟩ : InnerInstruction)) hcalls
    rwa [List.map_map, List.map_map] at hbare
  rw [← buildForest_bare, ← buildForest_bare, hinstructions, hinner]

/-- What a node shows of its place: its path, and its invocation without the payload. -/
def Node.frame (n : Node) : List Nat × Invocation :=
  (n.path, n.invocation.bare)

theorem mapAll_frame_of_decodeForest (hf : decodeForest r instructions inner log = .ok f) :
    Tree.mapAll Node.frame f.trees =
      Tree.numberedFrom [] 1 (buildForest instructions inner log.markers).bare.trees :=
  Forest.mapAll_path_of_decode (decodeForest_eq_ok_iff.mp hf).2 Invocation.bare

theorem warnings_of_decodeForest (hf : decodeForest r instructions inner log = .ok f) :
    f.warnings = (buildForest instructions inner log.markers).bare.warnings :=
  (Forest.decode_eq_ok_iff.mp (decodeForest_eq_ok_iff.mp hf).2).2.2.1

/-- Whether the nodes of a forest are instructions and the calls of these, and each shows what the
decoder of its program says of its own payload. -/
structure Forest.Shows (f : Forest Node) (r : Registry) (instructions : List Instruction)
    (inner : List InnerInstruction) : Prop where
  entries : f.walk.map Node.entry =
    instructions.zipIdx.flatMap fun item => entriesOf inner item.2 item.1
  outcomes : ∀ n ∈ f.walk, ∃ outcome, r.decode n.instruction.program n.instruction.data
    n.instruction.accounts.length = .ok outcome ∧ n.outcome = some outcome

theorem Invocation.decode_eq_ok_iff {v : Invocation} {outcome : Outcome} :
    v.decode r = .ok outcome ↔ v.placedBy.all StackHeight.isUsable ∧
      r.decode v.instruction.program v.instruction.data v.instruction.accounts.length =
        .ok outcome := by
  unfold Invocation.decode
  split
  · next h => simp [h]
  · next h => simp [h]

theorem shows_of_decodeForest (hf : decodeForest r instructions inner log = .ok f) :
    f.Shows r instructions inner where
  entries := map_entry_walk_of_decodeForest hf
  outcomes n hn := by
    obtain ⟨outcome, houtcome, hshown⟩ :=
      Forest.exists_outcome_of_decode (decodeForest_eq_ok_iff.mp hf).2 hn
    exact ⟨outcome, (Invocation.decode_eq_ok_iff.mp houtcome).2, hshown⟩

/-- Whether a registry gives outcomes for all payloads in a forest. -/
structure Registry.AnswersAll (r : Registry) (instructions : List Instruction)
    (inner : List InnerInstruction) : Prop where
  top : ∀ instruction ∈ instructions, r.Answers instruction
  inner : ∀ call ∈ inner, ¬ call.IsOrphan instructions.length → r.Answers call.instruction

/-- Decoders of another make answer for all payloads, also where they break off. -/
theorem Registry.answers_of_forall_ne_table {instruction : Instruction}
    (h : ∀ t, r.get? instruction.program ≠ some (.table t)) : r.Answers instruction := by
  unfold Registry.Answers Registry.decode
  cases hget : r.get? instruction.program with
  | none => exact ⟨_, rfl⟩
  | some d =>
      cases d with
      | table t => exact absurd hget (h t)
      | foreign d => exact ⟨_, rfl⟩

/-- Whether a forest can be built of a log and calls, if all payloads have outcomes: the log can be
read, and the parents of orphans be written. -/
structure Log.Suits (log : Log) (count : Nat) (inner : List InnerInstruction) : Prop where
  readable : log.fault = none
  orphans : ∀ call ∈ inner, call.IsOrphan count → Decimal.isWritable (call.parent + 1)

theorem exists_decodeForest_iff (hheights : ∀ call ∈ inner, call.height.isUsable) :
    (∃ f, decodeForest r instructions inner log = .ok f) ↔
      log.Suits instructions.length inner ∧ r.AnswersAll instructions inner := by
  simp only [decodeForest_eq_ok_iff, exists_and_left, Forest.exists_decode_iff]
  rw [forall_walk_decode_iff hheights, forall_isWritable_iff]
  exact ⟨fun ⟨hlog, ⟨hinstructions, hcalls⟩, horphans⟩ => ⟨⟨hlog, horphans⟩, hinstructions, hcalls⟩,
    fun ⟨⟨hlog, horphans⟩, hinstructions, hcalls⟩ => ⟨hlog, ⟨hinstructions, hcalls⟩, horphans⟩⟩

/-- What is true of the parents and heights of calls is true of those with the same ones. -/
theorem forall_calls_iff (p : Int → StackHeight → Prop)
    (hcalls : inner.map InnerInstruction.frame = inner'.map InnerInstruction.frame) :
    (∀ call ∈ inner, p call.parent call.height) ↔ ∀ call ∈ inner', p call.parent call.height := by
  have hmap : ∀ calls : List InnerInstruction, (∀ call ∈ calls, p call.parent call.height) ↔
      ∀ x ∈ calls.map InnerInstruction.frame, p x.1 x.2.1 := by
    intro calls
    rw [List.forall_mem_map]
    rfl
  rw [hmap inner, hmap inner', hcalls]

theorem Log.suits_congr (hlength : instructions.length = instructions'.length)
    (hcalls : inner.map InnerInstruction.frame = inner'.map InnerInstruction.frame) :
    log.Suits instructions.length inner ↔ log.Suits instructions'.length inner' := by
  have horphans := forall_calls_iff (fun parent _ =>
    parent < 0 ∨ (instructions.length : Int) ≤ parent → Decimal.isWritable (parent + 1)) hcalls
  rw [← hlength]
  exact ⟨fun h => ⟨h.readable, horphans.mp h.orphans⟩,
    fun h => ⟨h.readable, horphans.mpr h.orphans⟩⟩

/-- The payloads and the accounts of instructions, and the decoders that are registered, change
nothing about a forest but what its nodes show of their own payloads. -/
theorem decodeForest_ignores_payloads (r r' : Registry) (log : Log)
    (hprograms : instructions.map (·.program) = instructions'.map (·.program))
    (hcalls : inner.map InnerInstruction.frame = inner'.map InnerInstruction.frame) :
    ((∀ call ∈ inner, call.height.isUsable) →
      ((∃ f, decodeForest r instructions inner log = .ok f) ↔
        log.Suits instructions.length inner ∧ r.AnswersAll instructions inner) ∧
      ((∃ f', decodeForest r' instructions' inner' log = .ok f') ↔
        log.Suits instructions.length inner ∧ r'.AnswersAll instructions' inner')) ∧
    ∀ f f', decodeForest r instructions inner log = .ok f →
      decodeForest r' instructions' inner' log = .ok f' →
        Tree.mapAll Node.frame f.trees = Tree.mapAll Node.frame f'.trees ∧
        f.warnings = f'.warnings ∧
        f.Shows r instructions inner ∧ f'.Shows r' instructions' inner' := by
  have hbare := bare_buildForest_congr hprograms hcalls log.markers
  refine ⟨?_, ?_⟩
  · intro hheights
    have hheights' := (forall_calls_iff (fun _ height => height.isUsable) hcalls).mp hheights
    have hlength := congrArg List.length hprograms
    rw [List.length_map, List.length_map] at hlength
    rw [exists_decodeForest_iff hheights, exists_decodeForest_iff hheights',
      Log.suits_congr hlength hcalls]
    exact ⟨Iff.rfl, Iff.rfl⟩
  · intro f f' hf hf'
    refine ⟨?_, ?_, shows_of_decodeForest hf, shows_of_decodeForest hf'⟩
    · rw [mapAll_frame_of_decodeForest hf, mapAll_frame_of_decodeForest hf', hbare]
    · rw [warnings_of_decodeForest hf, warnings_of_decodeForest hf', hbare]

/-- A decoder that breaks off and other payloads, in place of no decoder at all. The log leaves the
second call out. -/
theorem decodeForest_ignores_payloads_raised :
    ∃ (program : Pubkey) (r : Registry) (log : Log) (f f' : Forest Node),
      r = .ofDecoders
        [.foreign ⟨program, "Market", none, fun _ _ => .raised "ValueError" "no price"⟩] ∧
      log = ⟨[some (.invoke "Market" 1), some (.invoke "Vault" 2),
        some (.ended (.failed "custom program error: 0x1"))], none⟩ ∧
      decodeForest {} [⟨program, [7, 1], []⟩]
        [⟨0, ⟨.zero, [], []⟩, .level 2⟩, ⟨0, ⟨program, [8], []⟩, .level 3⟩] log = .ok f ∧
      decodeForest r [⟨program, [9], [⟨.zero, true, false⟩]⟩]
        [⟨0, ⟨.zero, [1, 2, 3], []⟩, .level 2⟩, ⟨0, ⟨program, [], []⟩, .level 3⟩] log = .ok f' ∧
      Tree.mapAll Node.frame f.trees = Tree.mapAll Node.frame f'.trees ∧
      f.warnings = f'.warnings := by
  let program : Pubkey := .computeBudget
  let is : List Instruction := [⟨program, [7, 1], []⟩]
  let is' : List Instruction := [⟨program, [9], [⟨.zero, true, false⟩]⟩]
  let calls : List InnerInstruction :=
    [⟨0, ⟨.zero, [], []⟩, .level 2⟩, ⟨0, ⟨program, [8], []⟩, .level 3⟩]
  let calls' : List InnerInstruction :=
    [⟨0, ⟨.zero, [1, 2, 3], []⟩, .level 2⟩, ⟨0, ⟨program, [], []⟩, .level 3⟩]
  let log : Log := ⟨[some (.invoke "Market" 1), some (.invoke "Vault" 2),
    some (.ended (.failed "custom program error: 0x1"))], none⟩
  let ds : List Decoder :=
    [.foreign ⟨program, "Market", none, fun _ _ => .raised "ValueError" "no price"⟩]
  have hprograms : is.map (·.program) = is'.map (·.program) := rfl
  have hcalls : calls.map InnerInstruction.frame = calls'.map InnerInstruction.frame := rfl
  have hheights : ∀ call ∈ calls, call.height.isUsable := by simp [calls, StackHeight.isUsable]
  have hsuits : log.Suits is.length calls :=
    ⟨rfl, by simp [calls, is, InnerInstruction.IsOrphan]⟩
  have hanswers : ∀ instruction, Registry.Answers (.ofDecoders ds) instruction := by
    intro instruction
    apply Registry.answers_of_forall_ne_table
    intro t ht
    simpa [ds] using Registry.mem_of_get?_ofDecoders ht
  obtain ⟨hexists, hsame⟩ := decodeForest_ignores_payloads {} (.ofDecoders ds) log hprograms hcalls
  obtain ⟨hfirst, hsecond⟩ := hexists hheights
  obtain ⟨f, hf⟩ := hfirst.mpr ⟨hsuits, fun i _ => Registry.answers_empty i,
    fun call _ _ => Registry.answers_empty call.instruction⟩
  obtain ⟨f', hf'⟩ := hsecond.mpr ⟨hsuits, fun i _ => hanswers i,
    fun call _ _ => hanswers call.instruction⟩
  obtain ⟨hframes, hwarnings, -, -⟩ := hsame f f' hf hf'
  exact ⟨program, .ofDecoders ds, log, f, f', rfl, rfl, hf, hf', hframes, hwarnings⟩

end SolanaTx
