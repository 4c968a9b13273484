import SolanaTx.Proofs.Invocation.Conservation
import SolanaTx.Proofs.Invocation.LineNumbers

/-!
# Messages of programs

A program writes what it likes behind `Program log: `. The line is silent unless the
message reads on like a marker, as if `log:` were the name of a program; and any such
message does change the forest of some log.
-/

namespace SolanaTx

open Text

namespace Marker

/-- A line with the message of a program. -/
def logLine (message : Text) : Text :=
  "Program log: " ++ message

/-- Whether a message reads on like a marker of a program. -/
def Imitates (message : Text) : Prop :=
  trimEnd message = "success" ∨
    (∃ reason, CodePoint.char '\n' ∉ reason ∧ trimEnd message = "failed: " ++ reason) ∨
    ∃ digits, IsNumeral digits ∧ trimEnd message = "invoke [" ++ (digits ++ "]")

/-- A text is split in one way only into a word and what follows from a blank on. -/
theorem word_append_inj {word word' : Text} (hword : IsWord word) (hword' : IsWord word')
    {c c' : CodePoint} (hc : isBlank c) (hc' : isBlank c') {rest rest' : Text}
    (h : word ++ c :: rest = word' ++ c' :: rest') : word = word' ∧ c :: rest = c' :: rest' := by
  have hwords : word = word' := by
    rw [← takeWhile_word hword hc rest, h, takeWhile_word hword' hc' rest']
  subst hwords
  exact ⟨rfl, List.append_cancel_left h⟩

/-- What a line about a program says is decided by what follows its name. -/
theorem speaks_program_iff {program : Text} (hprogram : IsWord program) {rest : Text} :
    Speaks ("Program " ++ (program ++ .char ' ' :: rest)) ↔
      rest = "success" ∨
        (∃ reason, CodePoint.char '\n' ∉ reason ∧ rest = "failed: " ++ reason) ∨
        ∃ digits, IsNumeral digits ∧ rest = "invoke [" ++ (digits ++ "]") := by
  have hblank : isBlank (.char ' ') := by decide
  constructor
  · generalize hline : ("Program " : Text) ++ (program ++ .char ' ' :: rest) = line
    intro hspeaks
    cases hspeaks with
    | @invoke program' digits hprogram' hdigits =>
        have hsplit := word_append_inj hprogram hprogram' hblank hblank
          (List.append_cancel_left hline)
        exact Or.inr (Or.inr ⟨digits, hdigits, (List.cons.inj hsplit.2).2⟩)
    | @success program' hprogram' =>
        have hsplit := word_append_inj hprogram hprogram' hblank hblank
          (List.append_cancel_left hline)
        exact Or.inl (List.cons.inj hsplit.2).2
    | @failed program' reason hprogram' hreason =>
        have hsplit := word_append_inj hprogram hprogram' hblank hblank
          (List.append_cancel_left hline)
        exact Or.inr (Or.inl ⟨reason, hreason, (List.cons.inj hsplit.2).2⟩)
  · rintro (rfl | ⟨reason, hreason, rfl⟩ | ⟨digits, hdigits, rfl⟩)
    · exact .success hprogram
    · exact .failed hprogram hreason
    · exact .invoke hprogram hdigits

theorem not_speaks_logPrefix : ¬ Speaks "Program log:" := by
  rw [← ofTrimmed_eq_ok_none_iff]
  rfl

/-- The line of a message is silent unless the message imitates a marker. -/
theorem ofLine_logLine_eq_ok_none_iff {message : Text} :
    ofLine (logLine message) = .ok none ↔ ¬ Imitates message := by
  have hword : IsWord "log:" := ⟨by decide, by decide⟩
  have htrim : trim (logLine message) = trimEnd ("Program log: " ++ message) := rfl
  rw [ofLine, ofTrimmed_eq_ok_none_iff, htrim, trimEnd_append]
  split
  · next hempty =>
    have hsilent : ¬ Imitates message := by
      rw [Imitates, hempty]
      rintro (h | ⟨reason, -, h⟩ | ⟨digits, -, h⟩) <;> cases h
    exact iff_of_true not_speaks_logPrefix hsilent
  · exact not_congr (speaks_program_iff hword)

end Marker

/-! ## What an imitation does -/

/-- A log of one instruction: its start, and then the ends that `endings` gives. -/
def loneLog (program : Text) (endings : List Ending) : List (Option Marker) :=
  some (.invoke program 1) :: endings.map fun ending => some (.ended ending)

namespace Walk

/-- A lone leaf takes the first ending and keeps it. -/
theorem finish_leaf {w : Walk} {v : Invocation} (hw : w.branches = [⟨.leaf v, []⟩])
    (hopen : w.openCount = 1) (ending : Ending) :
    (w.finish ending).branches =
        [⟨.leaf { v with ending := some (v.ending.getD ending) }, []⟩] ∧
      (w.finish ending).openCount = 1 := by
  have hupdate : (Tree.leaf v).updateDeepest (Invocation.settle ending) w.openCount =
      (v.settle ending).map Tree.leaf := by
    rw [hopen]
    rfl
  rw [finish_cons ending hw, hupdate]
  cases hv : v.ending with
  | none =>
      rw [Invocation.settle_of_none hv]
      exact ⟨rfl, hopen⟩
  | some first =>
      rw [Invocation.settle_of_isSome (by rw [hv]; rfl), Option.getD_some, ← hv]
      exact ⟨hw, hopen⟩

theorem branches_lines_leaf {w : Walk} {v : Invocation} (hw : w.branches = [⟨.leaf v, []⟩])
    (hopen : w.openCount = 1) (line : Nat) (endings : List Ending) :
    (w.lines [] line (endings.map fun ending => some (.ended ending))).branches =
      [⟨.leaf { v with ending := v.ending.or endings.head? }, []⟩] := by
  induction endings generalizing w v line with
  | nil =>
      rw [List.map_nil, lines, hw, List.head?_nil, Option.or_none]
  | cons ending rest ih =>
      obtain ⟨hbranches, hcount⟩ := finish_leaf hw hopen ending
      rw [List.map_cons, lines, step, ih hbranches hcount]
      cases v.ending <;> rfl

theorem start_lone (instruction : Instruction) (program : Text) :
    let w := (start [instruction]).step [] 0 (some (.invoke program 1))
    w.branches = [⟨.leaf { id := 0, instruction, depth := 0, top := 0 }, []⟩] ∧
      w.openCount = 1 := by
  have htake : takeTop program (start [instruction]).waiting = some ((0, instruction), []) := by
    by_cases hprogram : instruction.program.text = program
    · simp [takeTop, start, hprogram]
    · simp [takeTop, start, hprogram]
  have hstep : (start [instruction]).step [] 0 (some (.invoke program 1)) =
      ({ start [instruction] with sawInvoke := true } : Walk).invokeTop [] program 0 := rfl
  dsimp only
  rw [hstep, invokeTop]
  change takeTop program
    ({ start [instruction] with sawInvoke := true } : Walk).waiting = _ at htake
  rw [htake]
  constructor
  · rw [branches_checkProgram]
    rfl
  · rw [openCount_checkProgram]

end Walk

/-- The tree of an instruction that calls nothing has the first ending behind its start. -/
theorem trees_loneLog (instruction : Instruction) (program : Text) (endings : List Ending) :
    (buildForest [instruction] [] (loneLog program endings)).trees =
      [.leaf { id := 0, instruction, depth := 0, top := 0, ending := endings.head? }] := by
  obtain ⟨hbranches, hopen⟩ := Walk.start_lone instruction program
  have hwalk : (walkLog [instruction] [] (loneLog program endings)).branches = _ :=
    Walk.branches_lines_leaf hbranches hopen 1 endings
  have hbuild : (buildForest [instruction] [] (loneLog program endings)).trees =
      [(Completion.treeOf (walkLog [instruction] [] (loneLog program endings)) []
        (walkLog [instruction] [] (loneLog program endings)).nextId instruction 0).1] := by
    rw [buildForest, List.zipIdx_singleton, List.foldl_cons, List.foldl_nil,
      Completion.addTop_eq, List.nil_append]
  rw [hbuild, Completion.treeOf, hwalk]
  rfl

/-- Decoding tells apart what differs in more than line numbers. -/
theorem Forest.eq_renumber_of_decode {r : Registry} {f : Nat → Nat} {g g' : Forest Invocation}
    (hg : ∃ n, g.decode r = .ok n) (h : g'.decode r = (g.decode r).map (Forest.renumber f)) :
    g' = g.renumber f := by
  obtain ⟨n, hn⟩ := hg
  have hn' : g'.decode r = .ok (n.renumber f) := by
    rw [h, hn]
    rfl
  have htrees := Forest.mapAll_invocation_of_decode hn
  have htrees' := Forest.mapAll_invocation_of_decode hn'
  have hwarnings := (Forest.decode_eq_ok_iff.mp hn).2.2.1
  have hwarnings' := (Forest.decode_eq_ok_iff.mp hn').2.2.1
  obtain ⟨trees, warnings⟩ := g
  obtain ⟨trees', warnings'⟩ := g'
  obtain rfl : trees' = trees := htrees'.symm.trans htrees
  obtain rfl : warnings' = warnings.map (Warning.renumber f) :=
    hwarnings'.symm.trans (congrArg (List.map (Warning.renumber f)) hwarnings)
  rfl

/-- Forests that are decoded alike but for line numbers are alike but for line numbers. -/
theorem buildForest_eq_of_decodeForest {instructions : List Instruction} {f : Nat → Nat}
    {lines lines' : List Text} {markers markers' : List (Option Marker)}
    (h : List.Forall₂ (fun line marker => Marker.ofLine line = .ok marker) lines markers)
    (h' : List.Forall₂ (fun line marker => Marker.ofLine line = .ok marker) lines' markers')
    (hsame : decodeForest {} instructions [] (.ofLines lines') =
      (decodeForest {} instructions [] (.ofLines lines)).map (Forest.renumber f)) :
    buildForest instructions [] markers' = (buildForest instructions [] markers).renumber f := by
  rw [decodeForest_of_forall h, decodeForest_of_forall h'] at hsame
  apply Forest.eq_renumber_of_decode _ hsame
  apply exists_decode_without_calls
  intro instruction _
  exact Registry.answers_empty instruction

/-- Where no instruction waits, each start is noted. -/
theorem buildForest_lone_invoke_ne (program : Text) (depth : Nat) (f : Nat → Nat) :
    buildForest [] [] [some (.invoke program depth)] ≠ (buildForest [] [] []).renumber f := by
  intro h
  have hwarnings := congrArg Forest.warnings h
  by_cases hdepth : depth ≤ 1
  · simp [buildForest, walkLog, Walk.lines, Walk.step, hdepth, Walk.invokeTop, Walk.takeTop,
      Walk.start, Walk.warn, Forest.renumber, missingParents] at hwarnings
  · simp [buildForest, walkLog, Walk.lines, Walk.step, hdepth, Walk.invokeCall, Walk.start,
      Walk.warn, Forest.renumber, missingParents] at hwarnings

/-- A line leaves the forest of every log as it is just where it says nothing. -/
theorem forall_insert_iff_silent {line : Text} :
    (∀ (r : Registry) (instructions : List Instruction) (inner : List InnerInstruction)
      (before after : List Text),
      decodeForest r instructions inner (.ofLines (before ++ line :: after)) =
        (decodeForest r instructions inner (.ofLines (before ++ after))).map
          (Forest.renumber (shiftFrom before.length))) ↔ Marker.ofLine line = .ok none := by
  constructor
  · intro h
    cases hline : Marker.ofLine line with
    | error fault =>
        -- such a line keeps even the forest of an empty transaction from being built
        have hany : ∃ g, (buildForest [] [] []).decode {} = .ok g :=
          exists_decode_without_calls (by simp) []
        obtain ⟨g, hg⟩ := hany
        have hinsert := h {} [] [] [] []
        rw [List.nil_append, List.nil_append, decodeForest_of_forall .nil, hg] at hinsert
        have hread := Log.fault_ofLines_eq_none_iff.mp (decodeForest_eq_ok_iff.mp hinsert).1
        obtain ⟨marker, hmarker⟩ := hread line List.mem_cons_self
        rw [hline] at hmarker
        cases hmarker
    | ok marker =>
        match marker with
        | none => rfl
        | some (.ended ending) =>
            -- it ends the instruction that has just started
            have hstart : Marker.ofLine "Program x invoke [1]" = .ok (some (.invoke "x" 1)) := rfl
            have hinsert := buildForest_eq_of_decodeForest (.cons hstart .nil)
              (.cons hstart (.cons hline .nil))
              (h {} [⟨Pubkey.zero, [], []⟩] [] ["Program x invoke [1]"] [])
            have hwith := trees_loneLog ⟨Pubkey.zero, [], []⟩ "x" [ending]
            have hwithout := trees_loneLog ⟨Pubkey.zero, [], []⟩ "x" []
            have hleaf := (hwith.symm.trans (congrArg Forest.trees hinsert)).trans hwithout
            cases hleaf
        | some (.invoke program depth) =>
            -- without an instruction to start it is noted
            have hinsert := buildForest_eq_of_decodeForest .nil (.cons hline .nil)
              (h {} [] [] [] [])
            exact absurd hinsert (buildForest_lone_invoke_ne program depth _)
  · intro hline r instructions inner before after
    exact decodeForest_insert_silent hline r instructions inner before after

/-- A message of a program leaves the forest of every log as it is, with the line numbers of later
warnings moved by one, unless it reads on like a marker; and each message that does so changes the
forest of some log. -/
theorem forall_insert_logLine_iff (message : Text) :
    (∀ (r : Registry) (instructions : List Instruction) (inner : List InnerInstruction)
      (before after : List Text),
      decodeForest r instructions inner
          (.ofLines (before ++ Marker.logLine message :: after)) =
        (decodeForest r instructions inner (.ofLines (before ++ after))).map
          (Forest.renumber (shiftFrom before.length))) ↔ ¬ Marker.Imitates message := by
  rw [forall_insert_iff_silent, Marker.ofLine_logLine_eq_ok_none_iff]

/-- A message takes the place of the end that the log states: the instruction has failed, and the
forest shows a success. -/
theorem decodeForest_success_message :
    decodeForest {} [⟨Pubkey.zero, [], []⟩] []
        (.ofLines ["Program 11111111111111111111111111111111 invoke [1]",
          Marker.logLine "success",
          "Program 11111111111111111111111111111111 failed: out of funds"]) ≠
      (decodeForest {} [⟨Pubkey.zero, [], []⟩] []
        (.ofLines ["Program 11111111111111111111111111111111 invoke [1]",
          "Program 11111111111111111111111111111111 failed: out of funds"])).map
        (Forest.renumber (shiftFrom 1)) := by
  have hstart : Marker.ofLine "Program 11111111111111111111111111111111 invoke [1]" =
      .ok (some (.invoke "11111111111111111111111111111111" 1)) := rfl
  have hmessage : Marker.ofLine (Marker.logLine "success") = .ok (some (.ended .success)) := rfl
  have hend : Marker.ofLine "Program 11111111111111111111111111111111 failed: out of funds" =
      .ok (some (.ended (.failed "out of funds"))) := rfl
  have hwith := trees_loneLog ⟨Pubkey.zero, [], []⟩ "11111111111111111111111111111111"
    [.success, .failed "out of funds"]
  have hwithout := trees_loneLog ⟨Pubkey.zero, [], []⟩ "11111111111111111111111111111111"
    [.failed "out of funds"]
  intro hsame
  have hinsert := buildForest_eq_of_decodeForest (.cons hstart (.cons hend .nil))
    (.cons hstart (.cons hmessage (.cons hend .nil))) hsame
  have hleaf := (hwith.symm.trans (congrArg Forest.trees hinsert)).trans hwithout
  cases hleaf

end SolanaTx
