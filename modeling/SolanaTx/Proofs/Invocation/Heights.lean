import SolanaTx.Proofs.Invocation.Reconstruction

/-!
# Calls placed by their heights

Where the height of the stack is reported for each call, the calls can be placed by
height alone: each finds its caller at the open end of the branch, as a start in the
log would. So a walk may break off anywhere inside an invocation, and the calls that
are left fill in what the log has not told.
-/

namespace SolanaTx

open SolanaTx.Tree

/-- An invocation without the number and the height of its placing. -/
def Invocation.unplaced (v : Invocation) : Invocation :=
  { v with id := 0, placedBy := none }

/-- What is reported of a call: the instruction and the height of the stack. -/
def InnerInstruction.report (call : InnerInstruction) : Instruction × StackHeight :=
  (call.instruction, call.height)

theorem Completion.placeCalls_append (tree : Tree Invocation) (nextId : Nat)
    (calls later : List InnerInstruction) :
    placeCalls tree nextId (calls ++ later) =
      placeCalls (placeCalls tree nextId calls).1 (placeCalls tree nextId calls).2 later := by
  induction calls generalizing tree nextId with
  | nil => rfl
  | cons call rest ih =>
      rw [List.cons_append, placeCalls, placeCalls, ih]
      rfl

namespace Runtime

mutual

/-- The reports on an invocation with `depth` callers and on all below it, in the order of their
starts. The stack holds the callers and the invocation itself. -/
def reported (depth : Nat) : Tree Execution → List (Instruction × StackHeight)
  | .node x callees => (x.instruction, .level (depth + 1 : Nat)) :: reportedAll (depth + 1) callees

def reportedAll (depth : Nat) : List (Tree Execution) → List (Instruction × StackHeight)
  | [] => []
  | t :: ts => reported depth t ++ reportedAll depth ts

end

mutual

theorem map_fst_reported (depth : Nat) (t : Tree Execution) :
    (reported depth t).map Prod.fst = t.preorder.map (·.instruction) := by
  obtain ⟨x, callees⟩ := t
  simp [reported, preorder, map_fst_reportedAll (depth + 1) callees]

theorem map_fst_reportedAll (depth : Nat) (ts : List (Tree Execution)) :
    (reportedAll depth ts).map Prod.fst = (preorderAll ts).map (·.instruction) := by
  cases ts with
  | nil => rfl
  | cons t rest =>
      simp [reportedAll, preorderAll, map_fst_reported depth t, map_fst_reportedAll depth rest]

end

theorem map_instruction_of_reported {calls : List InnerInstruction} {depth : Nat}
    {t : Tree Execution} (hcalls : calls.map InnerInstruction.report = reported depth t) :
    calls.map (·.instruction) = t.preorder.map (·.instruction) := by
  rw [← map_fst_reported depth t, ← hcalls, List.map_map]
  rfl

theorem map_instruction_of_reportedAll {calls : List InnerInstruction} {depth : Nat}
    {ts : List (Tree Execution)}
    (hcalls : calls.map InnerInstruction.report = reportedAll depth ts) :
    calls.map (·.instruction) = (preorderAll ts).map (·.instruction) := by
  rw [← map_fst_reportedAll depth ts, ← hcalls, List.map_map]
  rfl

mutual

theorem isUsable_of_mem_reported {depth : Nat} {t : Tree Execution}
    {report : Instruction × StackHeight} (h : report ∈ reported depth t) :
    report.2.isUsable := by
  obtain ⟨x, callees⟩ := t
  rw [reported] at h
  rcases List.mem_cons.mp h with rfl | h
  · rfl
  · exact isUsable_of_mem_reportedAll h

theorem isUsable_of_mem_reportedAll {depth : Nat} {ts : List (Tree Execution)}
    {report : Instruction × StackHeight} (h : report ∈ reportedAll depth ts) :
    report.2.isUsable := by
  cases ts with
  | nil => cases h
  | cons t rest =>
      rw [reportedAll] at h
      rcases List.mem_append.mp h with h | h
      · exact isUsable_of_mem_reported h
      · exact isUsable_of_mem_reportedAll h

end

/-! ## What is to be shown of a part of the log -/

mutual

/-- How many lines the runtime logs of an invocation: its start, those of its callees, its end. -/
def lineCount : Tree Execution → Nat
  | .node _ callees => lineCountAll callees + 2

def lineCountAll : List (Tree Execution) → Nat
  | [] => 0
  | t :: ts => lineCount t + lineCountAll ts

end

mutual

theorem length_markers (depth : Nat) (t : Tree Execution) :
    (markers depth (t.map Execution.entry)).length = lineCount t := by
  obtain ⟨x, callees⟩ := t
  simp [map, markers, lineCount, length_markersAll (depth + 1) callees]

theorem length_markersAll (depth : Nat) (ts : List (Tree Execution)) :
    (markersAll depth (mapAll Execution.entry ts)).length = lineCountAll ts := by
  cases ts with
  | nil => rfl
  | cons t rest =>
      simp [mapAll, markersAll, lineCountAll, length_markers depth t,
        length_markersAll depth rest]

end

/-- As long as the end of an invocation is not heard, what is heard are lines of its callees. -/
theorem take_callees {heard : Nat} {callees : List (Tree Execution)} {e : Ending} (depth : Nat)
    (h : heard ≤ lineCountAll callees) :
    (markersAll depth (mapAll Execution.entry callees) ++ [Marker.ended e]).take heard =
      (markersAll depth (mapAll Execution.entry callees)).take heard := by
  apply List.take_append_of_le_length
  rw [length_markersAll]
  exact h

mutual

/-- How a tree of executions is to be shown when the first `heard` lines of its log are there: each
in its place, and with its ending where the line that states it is among them. -/
def shownUpTo (heard depth top : Nat) : Tree Execution → Tree Invocation
  | .node x callees =>
      .node { id := 0, instruction := x.instruction, depth, top,
              ending := if lineCountAll callees + 2 ≤ heard then some x.ending else none }
        (shownUpToAll (heard - 1) (depth + 1) top callees)

def shownUpToAll (heard depth top : Nat) : List (Tree Execution) → List (Tree Invocation)
  | [] => []
  | t :: ts => shownUpTo heard depth top t :: shownUpToAll (heard - lineCount t) depth top ts

end

mutual

/-- With its whole log a tree is shown as it took place. -/
theorem shownUpTo_of_le {heard : Nat} (depth top : Nat) {t : Tree Execution}
    (h : lineCount t ≤ heard) : shownUpTo heard depth top t = shown depth top t := by
  obtain ⟨x, callees⟩ := t
  rw [lineCount] at h
  have hcallees : lineCountAll callees ≤ heard - 1 := by omega
  rw [shownUpTo, shown, if_pos h, shownUpToAll_of_le (depth + 1) top hcallees]

theorem shownUpToAll_of_le {heard : Nat} (depth top : Nat) {ts : List (Tree Execution)}
    (h : lineCountAll ts ≤ heard) : shownUpToAll heard depth top ts = shownAll depth top ts := by
  cases ts with
  | nil => rfl
  | cons t rest =>
      rw [lineCountAll] at h
      have hfirst : lineCount t ≤ heard := by omega
      have hrest : lineCountAll rest ≤ heard - lineCount t := by omega
      rw [shownUpToAll, shownAll, shownUpTo_of_le depth top hfirst,
        shownUpToAll_of_le depth top hrest]

end

mutual

theorem map_unplaced_shown (depth top : Nat) (t : Tree Execution) :
    (shown depth top t).map Invocation.unplaced = shown depth top t := by
  obtain ⟨x, callees⟩ := t
  rw [shown, map, mapAll_unplaced_shownAll (depth + 1) top callees]
  rfl

theorem mapAll_unplaced_shownAll (depth top : Nat) (ts : List (Tree Execution)) :
    mapAll Invocation.unplaced (shownAll depth top ts) = shownAll depth top ts := by
  cases ts with
  | nil => rfl
  | cons t rest =>
      rw [shownAll, mapAll, map_unplaced_shown depth top t, mapAll_unplaced_shownAll depth top rest]

end

theorem map_unplaced_of_unnumbered {heard depth top : Nat} {t : Tree Execution}
    {u : Tree Invocation} (hu : u.map Invocation.unnumbered = shown depth top t)
    (hheard : lineCount t ≤ heard) :
    u.map Invocation.unplaced = shownUpTo heard depth top t := by
  calc u.map Invocation.unplaced
    _ = (u.map Invocation.unnumbered).map Invocation.unplaced :=
      (map_map Invocation.unnumbered Invocation.unplaced u).symm
    _ = shown depth top t := by rw [hu, map_unplaced_shown]
    _ = shownUpTo heard depth top t := (shownUpTo_of_le depth top hheard).symm

/-! ## Filling in by height -/

/-- Whether calls, placed by height in a tree, fill in some trees as the last callees of `v`. -/
def FillsIn (tree : Tree Invocation) (calls : List InnerInstruction) (v : Invocation)
    (cs : List (Tree Invocation)) (above : List (Frame Invocation))
    (expected : List (Tree Invocation)) : Prop :=
  ∀ nextId, ∃ us, mapAll Invocation.unplaced us = expected ∧
    (Completion.placeCalls tree nextId calls).1 = plug (node v (cs ++ us)) above

variable {v : Invocation} {cs : List (Tree Invocation)} {above : List (Frame Invocation)}

/-- With no call left, just what is there is filled in. -/
theorem fillsIn_nil (us : List (Tree Invocation)) :
    FillsIn (plug (node v (cs ++ us)) above) [] v cs above (mapAll Invocation.unplaced us) :=
  fun _ => ⟨us, rfl, rfl⟩

theorem FillsIn.append {tree : Tree Invocation} {calls later : List InnerInstruction}
    {expected expected' : List (Tree Invocation)} (h : FillsIn tree calls v cs above expected)
    (h' : ∀ us, FillsIn (plug (node v (cs ++ us)) above) later v (cs ++ us) above expected') :
    FillsIn tree (calls ++ later) v cs above (expected ++ expected') := by
  intro nextId
  obtain ⟨us, hus, htree⟩ := h nextId
  obtain ⟨us', hus', htree'⟩ := h' us (Completion.placeCalls tree nextId calls).2
  refine ⟨us ++ us', ?_, ?_⟩
  · rw [mapAll_eq_map, List.map_append, ← mapAll_eq_map, ← mapAll_eq_map, hus, hus']
  · rw [Completion.placeCalls_append, htree, htree', List.append_assoc]

mutual

/-- The reported calls of an execution fill it in. -/
theorem fillsIn_reported (t : Tree Execution) {v : Invocation} {cs : List (Tree Invocation)}
    {above : List (Frame Invocation)} {calls : List InnerInstruction} {top : Nat}
    (hcalls : calls.map InnerInstruction.report = reported (above.length + 1) t)
    (htop : (plug (node v cs) above).value.top = top) :
    FillsIn (plug (node v cs) above) calls v cs above [shownUpTo 0 (above.length + 1) top t] := by
  obtain ⟨x, callees⟩ := t
  cases calls with
  | nil => simp [reported] at hcalls
  | cons call later =>
      rw [reported, List.map_cons] at hcalls
      obtain ⟨hcall, hlater⟩ := List.cons.inj hcalls
      obtain ⟨hinstruction, hheight⟩ := Prod.mk.inj hcall
      intro nextId
      have hdepth : call.height.callerDepth (nextId + 1) = above.length := by
        rw [hheight, StackHeight.callerDepth]
        omega
      -- the call is the open end now, and the calls behind it are those of its callees
      let placed : Invocation :=
        ⟨nextId, call.instruction, above.length + 1, top, some call.height, none⟩
      have hplace : Branch.place ⟨plug (node v cs) above, later⟩ nextId
          (call.height.callerDepth (nextId + 1)) call.instruction (some call.height) =
          plug (node placed []) ((v, cs) :: above) := by
        rw [hdepth, place_plug, htop]
        rfl
      have hroot : (plug (node placed []) ((v, cs) :: above)).value.top = top := by
        rw [← htop, plug, value_plug_node v _ cs above]
      obtain ⟨us, hus, htree⟩ := fillsIn_reportedAll callees hlater hroot (nextId + 1)
      refine ⟨[node placed us], ?_, ?_⟩
      · rw [mapAll, mapAll, map, hus, shownUpTo, if_neg (by omega)]
        rw [← hinstruction]
        rfl
      · rw [Completion.placeCalls, hplace, htree]
        rfl

theorem fillsIn_reportedAll (ts : List (Tree Execution)) {v : Invocation}
    {cs : List (Tree Invocation)} {above : List (Frame Invocation)}
    {calls : List InnerInstruction} {top : Nat}
    (hcalls : calls.map InnerInstruction.report = reportedAll (above.length + 1) ts)
    (htop : (plug (node v cs) above).value.top = top) :
    FillsIn (plug (node v cs) above) calls v cs above
      (shownUpToAll 0 (above.length + 1) top ts) := by
  cases ts with
  | nil =>
      obtain rfl := List.map_eq_nil_iff.mp hcalls
      intro nextId
      exact ⟨[], rfl, by rw [List.append_nil]; rfl⟩
  | cons t rest =>
      rw [reportedAll] at hcalls
      obtain ⟨first, later, rfl, hfirst, hlater⟩ := List.map_eq_append_iff.mp hcalls
      rw [shownUpToAll, Nat.zero_sub, ← List.singleton_append]
      apply (fillsIn_reported t hfirst htop).append
      intro us
      exact fillsIn_reportedAll rest hlater (by rw [value_plug_node v _ cs above, htop])

end

/-! ## A walk that breaks off -/

/-- Whether a walk has broken off where the calls left over, placed by height, fill in some trees
as the last callees of `v`. -/
structure BreaksOff (w w' : Walk) (v : Invocation) (cs : List (Tree Invocation))
    (above : List (Frame Invocation)) (rest : List InnerInstruction) (others : List Branch)
    (expected : List (Tree Invocation)) : Prop where
  filled : ∃ tree calls, w'.branches = ⟨tree, calls ++ rest⟩ :: others ∧
    FillsIn tree calls v cs above expected
  waiting : w'.waiting = w.waiting

variable {w w' : Walk} {rest : List InnerInstruction} {others : List Branch}

/-- A walk that has come out into the caller again has all there is to fill in. -/
theorem Shows.breaksOff {us : List (Tree Invocation)}
    (h : Shows w w' v cs us above rest others) :
    BreaksOff w w' v cs above rest others (mapAll Invocation.unplaced us) :=
  ⟨⟨_, [], h.inside.branches, fillsIn_nil us⟩, h.waiting⟩

mutual

/-- A part of the log of an execution, and the calls reported for the rest of it, rebuild it as the
last callee of its caller, with the endings that the part states. -/
theorem breaksOff_lines_markers (inner : List InnerInstruction) (t : Tree Execution) {w : Walk}
    {v : Invocation} {cs : List (Tree Invocation)} {above : List (Frame Invocation)}
    {calls rest : List InnerInstruction} {others : List Branch} {top : Nat}
    (h : w.Inside v cs above (calls ++ rest) others)
    (hcalls : calls.map InnerInstruction.report = reported (above.length + 1) t)
    (htop : (plug (node v cs) above).value.top = top) (heard line : Nat) :
    BreaksOff w (w.lines inner line
        (((markers (above.length + 1) (t.map Execution.entry)).take heard).map some))
      v cs above rest others [shownUpTo heard (above.length + 1) top t] := by
  by_cases hall : lineCount t ≤ heard
  · -- the log goes on to the end of the execution
    obtain ⟨u, hu, hshows⟩ :=
      shows_lines_markers inner t h (map_instruction_of_reported hcalls) htop line
    rw [List.take_of_length_le (by rw [length_markers]; exact hall),
      ← map_unplaced_of_unnumbered hu hall]
    exact hshows.breaksOff
  · obtain ⟨x, callees⟩ := t
    cases heard with
    | zero =>
        -- the log has not come to its start
        exact ⟨⟨_, calls, h.branches, fillsIn_reported _ hcalls htop⟩, rfl⟩
    | succ heard =>
        cases calls with
        | nil => simp [reported] at hcalls
        | cons call calls =>
            rw [reported, List.map_cons] at hcalls
            obtain ⟨hcall, hcalls⟩ := List.cons.inj hcalls
            obtain ⟨hinstruction, -⟩ := Prod.mk.inj hcall
            obtain ⟨hstarted, hwaiting, -⟩ := h.call inner x.instruction.program.text line
            rw [htop] at hstarted
            have hroot : (plug (node (w.nextCall top above call) []) ((v, cs) :: above)).value.top =
                top := by
              rw [← htop, plug, value_plug_node v _ cs above]
            obtain ⟨⟨tree, left, hbranches, hfills⟩, hwaiting'⟩ :=
              breaksOff_lines_markersAll inner callees hstarted hcalls hroot heard (line + 1)
            rw [lineCount] at hall
            have hheard : heard ≤ lineCountAll callees := by omega
            rw [map, markers, List.take_succ_cons, take_callees _ hheard, List.map_cons,
              Walk.lines]
            refine ⟨⟨tree, left, hbranches, ?_⟩, hwaiting'.trans hwaiting⟩
            intro nextId
            obtain ⟨us, hus, htree⟩ := hfills nextId
            refine ⟨[node (w.nextCall top above call) us], ?_, htree⟩
            rw [mapAll, mapAll, map, hus, shownUpTo, if_neg hall, ← hinstruction]
            rfl

theorem breaksOff_lines_markersAll (inner : List InnerInstruction) (ts : List (Tree Execution))
    {w : Walk} {v : Invocation} {cs : List (Tree Invocation)} {above : List (Frame Invocation)}
    {calls rest : List InnerInstruction} {others : List Branch} {top : Nat}
    (h : w.Inside v cs above (calls ++ rest) others)
    (hcalls : calls.map InnerInstruction.report = reportedAll (above.length + 1) ts)
    (htop : (plug (node v cs) above).value.top = top) (heard line : Nat) :
    BreaksOff w (w.lines inner line
        (((markersAll (above.length + 1) (mapAll Execution.entry ts)).take heard).map some))
      v cs above rest others (shownUpToAll heard (above.length + 1) top ts) := by
  cases ts with
  | nil =>
      refine ⟨⟨_, calls, ?_, fillsIn_reportedAll [] hcalls htop⟩, ?_⟩
      · rw [mapAll, markersAll, List.take_nil]
        exact h.branches
      · rw [mapAll, markersAll, List.take_nil]
        rfl
  | cons t ts =>
      rw [reportedAll] at hcalls
      obtain ⟨first, later, rfl, hfirst, hlater⟩ := List.map_eq_append_iff.mp hcalls
      rw [List.append_assoc] at h
      have hcaller : ∀ us, (plug (node v (cs ++ us)) above).value.top = top := by
        intro us
        rw [value_plug_node v _ cs above, htop]
      rw [mapAll, markersAll, shownUpToAll, List.take_append, length_markers]
      by_cases hall : lineCount t ≤ heard
      · obtain ⟨u, hu, hshows⟩ :=
          shows_lines_markers inner t h (map_instruction_of_reported hfirst) htop line
        obtain ⟨⟨tree, left, hbranches, hfills⟩, hwaiting⟩ :=
          breaksOff_lines_markersAll inner ts hshows.inside hlater (hcaller [u])
            (heard - lineCount t) (line + lineCount t)
        rw [List.take_of_length_le (by rw [length_markers]; exact hall), List.map_append,
          Walk.lines_append, List.length_map, length_markers]
        refine ⟨⟨tree, left, hbranches, ?_⟩, hwaiting.trans hshows.waiting⟩
        intro nextId
        obtain ⟨us, hus, htree⟩ := hfills nextId
        refine ⟨u :: us, ?_, ?_⟩
        · rw [mapAll, hus, map_unplaced_of_unnumbered hu hall]
        · rw [htree, List.append_assoc, List.singleton_append]
      · -- the walk breaks off in the first execution, and all later ones are placed by height
        obtain ⟨⟨tree, left, hbranches, hfills⟩, hwaiting⟩ :=
          breaksOff_lines_markers inner t h hfirst htop heard line
        have hnone : heard - lineCount t = 0 := by omega
        rw [hnone, List.take_zero, List.append_nil, ← List.singleton_append]
        refine ⟨⟨tree, left ++ later, ?_, hfills.append fun us => ?_⟩, hwaiting⟩
        · rw [hbranches, List.append_assoc]
        · exact fillsIn_reportedAll ts hlater (hcaller us)

end

end Runtime

end SolanaTx
