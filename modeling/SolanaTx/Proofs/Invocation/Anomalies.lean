import SolanaTx.Proofs.Invocation.Conservation
import SolanaTx.Proofs.Invocation.Starts
import SolanaTx.Proofs.Invocation.TopLevel

/-!
# Nothing odd goes unnoted

Where a forest is built, each start in a log places an invocation of its program at its depth, or
something is noted at its line. So a log that has starts, of which nothing is noted, is the list of
all nodes in their order, and each call that is reported has its instruction. A start whose numeral
is too long leaves no forest, and so neither a node nor a note.
-/

namespace SolanaTx

variable {instructions : List Instruction} {inner : List InnerInstruction}
  {markers : List (Option Marker)}

/-- The program and the depth of a start, where 0 stands for 1. -/
def Marker.started : Option Marker → Option (Text × Nat)
  | some (.invoke program depth) => some (program, max depth 1)
  | _ => none

/-- The program and the depth of the start that a line says. -/
def Marker.startOf (line : Text) : Option (Text × Nat) :=
  match ofLine line with
  | .ok marker => started marker
  | .error _ => none

/-- What the log says where an invocation starts. -/
def Invocation.heading (v : Invocation) : Text × Nat :=
  (v.instruction.program.text, v.depth + 1)

/-! ## Walks of which nothing is noted -/

namespace Walk

theorem map_heading_begun (vs : List Invocation) :
    (vs.map Invocation.begun).map Invocation.heading = vs.map Invocation.heading := by
  rw [List.map_map]
  rfl

/-- Where nothing is noted, the invocations are those that the log starts, in its order. -/
theorem Reaches.headings_lines {w : Walk} (h : w.Reaches) (line : Nat)
    (markers : List (Option Marker)) (hquiet : (w.lines inner line markers).warnings = []) :
    (w.lines inner line markers).inOrder.map Invocation.heading =
      w.inOrder.map Invocation.heading ++ markers.filterMap Marker.started := by
  induction markers generalizing w line with
  | nil => exact (List.append_nil _).symm
  | cons marker rest ih =>
      obtain ⟨noted, hnoted, -⟩ := (w.step inner line marker).warnings_lines inner (line + 1) rest
      have hstep : (w.step inner line marker).warnings = [] := by
        rw [Walk.lines, hnoted] at hquiet
        exact (List.append_eq_nil_iff.mp hquiet).1
      have hadded : (w.step inner line marker).inOrder.map Invocation.heading =
          w.inOrder.map Invocation.heading ++ (Marker.started marker).toList := by
        rw [← map_heading_begun, ← map_heading_begun w.inOrder]
        by_cases hinvoke : ∃ logged depth, marker = some (.invoke logged depth)
        · obtain ⟨logged, depth, rfl⟩ := hinvoke
          rcases h.noted_or_begins (w.step_invoked inner logged depth line) with
            ⟨x, hx, -⟩ | ⟨-, -, v, -, hlogged, hdepth, hmore⟩
          · rw [hstep] at hx
            cases hx
          · rw [hmore, List.map_append, List.map_singleton, Invocation.heading, hlogged, hdepth]
            rfl
        · have hnone : Marker.started marker = none := by
            cases marker with
            | none => rfl
            | some said =>
                cases said with
                | invoke logged depth => exact absurd ⟨logged, depth, rfl⟩ hinvoke
                | ended ending => rfl
          have hsame := (w.begun_step_of_not_invoke inner line
            fun logged depth heq => hinvoke ⟨logged, depth, heq⟩).2.2
          rw [hsame, hnone, Option.toList_none, List.append_nil]
      rw [Walk.lines, ih (h.step line marker) (line + 1) hquiet, hadded, List.append_assoc]
      cases hstarted : Marker.started marker with
      | none => rw [List.filterMap_cons_none hstarted]; rfl
      | some start => rw [List.filterMap_cons_some hstarted]; rfl

end Walk

/-! ## The line that placed an invocation -/

theorem walkLog_take_succ (instructions : List Instruction) (inner : List InnerInstruction)
    {i : Nat} {marker : Option Marker} (hmarker : markers[i]? = some marker) :
    walkLog instructions inner (markers.take (i + 1)) =
      (walkLog instructions inner (markers.take i)).step inner i marker := by
  have hlt : i < markers.length := (List.getElem?_eq_some_iff.mp hmarker).1
  rw [walkLog, walkLog, List.take_add_one, hmarker, Walk.lines_append, Nat.zero_add,
    List.length_take, Nat.min_eq_left (Nat.le_of_lt hlt)]
  rfl

theorem walkLog_eq_lines_take (instructions : List Instruction) (inner : List InnerInstruction)
    (markers : List (Option Marker)) (i : Nat) :
    ∃ line, walkLog instructions inner markers =
      (walkLog instructions inner (markers.take i)).lines inner line (markers.drop i) := by
  refine ⟨0 + (markers.take i).length, ?_⟩
  rw [walkLog, walkLog, ← Walk.lines_append, List.take_append_drop]

/-- The number of the invocation that a line of the log placed. -/
def placedAt (instructions : List Instruction) (inner : List InnerInstruction)
    (markers : List (Option Marker)) (line : Nat) : Option Nat :=
  let before := walkLog instructions inner (markers.take line)
  let after := walkLog instructions inner (markers.take (line + 1))
  if before.nextId < after.nextId then some before.nextId else none

theorem exists_placedAt_take {id n : Nat}
    (hid : id < (walkLog instructions inner (markers.take n)).nextId) :
    ∃ i logged depth, markers[i]? = some (some (.invoke logged depth)) ∧
      placedAt instructions inner markers i = some id := by
  induction n with
  | zero => cases hid
  | succ n ih =>
      by_cases hearlier : id < (walkLog instructions inner (markers.take n)).nextId
      · exact ih hearlier
      · cases hmarker : markers[n]? with
        | none =>
            rw [List.take_add_one, hmarker, Option.toList_none, List.append_nil] at hid
            exact absurd hid hearlier
        | some marker =>
            have hstep := walkLog_take_succ instructions inner hmarker
            by_cases hinvoke : ∃ logged depth, marker = some (.invoke logged depth)
            · obtain ⟨logged, depth, rfl⟩ := hinvoke
              refine ⟨n, logged, depth, hmarker, ?_⟩
              have hcount : (walkLog instructions inner (markers.take (n + 1))).nextId ≤
                  (walkLog instructions inner (markers.take n)).nextId + 1 := by
                rw [hstep]
                rcases Walk.begun_move (Walk.step_move _ n _) with ⟨hsame, -⟩ | ⟨hmore, -⟩
                · rw [hsame]
                  exact Nat.le_succ _
                · exact Nat.le_of_eq hmore
              rw [placedAt, if_pos (Nat.lt_of_le_of_lt (Nat.not_lt.mp hearlier) hid)]
              exact congrArg some (by omega)
            · have hsame := ((walkLog instructions inner (markers.take n)).begun_step_of_not_invoke
                inner n fun logged depth heq => hinvoke ⟨logged, depth, heq⟩).1
              rw [hstep, hsame] at hid
              exact absurd hid hearlier

/-- What the log has placed was placed at the line of a start. -/
theorem exists_placedAt {id : Nat} (hid : id < (walkLog instructions inner markers).nextId) :
    ∃ i logged depth, markers[i]? = some (some (.invoke logged depth)) ∧
      placedAt instructions inner markers i = some id := by
  apply exists_placedAt_take
  rw [List.take_length]
  exact hid

/-! ## The forest of a walk -/

/-- What the log has placed is in the forest. -/
theorem mem_walk_of_mem_inOrder {v : Invocation}
    (hv : v ∈ (walkLog instructions inner markers).inOrder) :
    v ∈ (buildForest instructions inner markers).walk := by
  obtain ⟨b, hb, hv⟩ := List.mem_flatMap.mp hv
  rw [← (Walk.Numbered.walkLog instructions inner markers).filterMap_find?] at hb
  obtain ⟨top, htop, hfind⟩ := List.mem_filterMap.mp hb
  have hlt : top < (buildForest instructions inner markers).trees.length := by
    rw [length_trees_buildForest]
    exact List.mem_range.mp htop
  have htree := List.getElem?_eq_getElem hlt
  obtain ⟨instruction, nextId, -, hbuilt⟩ := exists_treeOf_of_getElem? _ _ _ htree
  rw [Completion.treeOf, hfind] at hbuilt
  rw [Forest.walk, Tree.preorderAll_eq_flatMap]
  refine List.mem_flatMap.mpr ⟨_, List.mem_of_getElem? htree, ?_⟩
  rw [hbuilt]
  exact (Completion.preorder_prefix_placeCalls _ _ _).subset hv

/-- Whatever is begun at some point of the log is in the forest, as it is when the log is over. -/
theorem exists_mem_walk_of_begun {i : Nat} {v : Invocation}
    (hv : v ∈ (walkLog instructions inner (markers.take i)).inOrder.map Invocation.begun) :
    ∃ u ∈ (buildForest instructions inner markers).walk, u.begun = v := by
  obtain ⟨line, hwhole⟩ := walkLog_eq_lines_take instructions inner markers i
  have hkept := ((walkLog instructions inner (markers.take i)).begun_prefix_lines inner line
    (markers.drop i)).subset hv
  rw [← hwhole] at hkept
  obtain ⟨u, hu, rfl⟩ := List.mem_map.mp hkept
  exact ⟨u, mem_walk_of_mem_inOrder hu, rfl⟩

theorem mem_warnings_of_noted {i j : Nat}
    (h : (walkLog instructions inner (markers.take i)).NotedAt j) :
    ∃ x ∈ (buildForest instructions inner markers).warnings, x.line = some j := by
  obtain ⟨x, hx, hline⟩ := h
  obtain ⟨line, hwhole⟩ := walkLog_eq_lines_take instructions inner markers i
  obtain ⟨noted, hnoted, -⟩ := (walkLog instructions inner (markers.take i)).warnings_lines inner
    line (markers.drop i)
  refine ⟨x, ?_, hline⟩
  rw [warnings_buildForest, hwhole, hnoted]
  simp [hx]

/-- A start has an invocation of its program at its depth in the forest, or a warning. -/
theorem placed_or_noted {i : Nat} {logged : Text} {depth : Nat}
    (hmarker : markers[i]? = some (some (.invoke logged depth))) :
    (∃ v ∈ (buildForest instructions inner markers).walk,
      placedAt instructions inner markers i = some v.id ∧
      v.instruction.program.text = logged ∧ v.depth = max depth 1 - 1) ∨
    ∃ x ∈ (buildForest instructions inner markers).warnings, x.line = some i := by
  have hstep := walkLog_take_succ instructions inner hmarker
  have hinvoked := (walkLog instructions inner (markers.take i)).step_invoked inner logged depth i
  rw [← hstep] at hinvoked
  rcases (Walk.Reaches.walkLog instructions inner _).noted_or_begins hinvoked with
    hnoted | ⟨-, hcount, v, hid, hlogged, hdepth, hbegun⟩
  · exact Or.inr (mem_warnings_of_noted hnoted)
  · have hv : v ∈ (walkLog instructions inner (markers.take (i + 1))).inOrder.map
        Invocation.begun := by
      rw [hbegun]
      exact List.mem_append_right _ List.mem_cons_self
    obtain ⟨u, hu, rfl⟩ := exists_mem_walk_of_begun hv
    have hplaced : placedAt instructions inner markers i = some u.id := by
      rw [placedAt, if_pos (by omega)]
      exact congrArg some hid.symm
    have hlevel : u.depth + 1 = max depth 1 := hdepth
    exact Or.inl ⟨u, hu, hplaced, hlogged, by omega⟩

/-! ## Forests without warnings -/

theorem filterMap_eq_of_forall₂ {α β : Type} {g : α → Option β} {as : List α} {bs : List β}
    (h : List.Forall₂ (fun a b => g a = some b) as bs) : as.filterMap g = bs := by
  induction h with
  | nil => rfl
  | cons hab _ ih => rw [List.filterMap_cons_some hab, ih]

/-- An instruction of which nothing is odd has been started, and so have all its calls. -/
theorem exists_find?_of_notesOn {w : Walk} (hsaw : w.sawInvoke) {top : Nat}
    (hnotes : Completion.notesOn w top = []) :
    ∃ b, w.branches.find? (·.top = top) = some b ∧ b.pending = [] := by
  unfold Completion.notesOn at hnotes
  cases hfind : w.branches.find? (·.top = top) with
  | none => simp [hfind, hsaw] at hnotes
  | some b => exact ⟨b, rfl, by simpa [hfind, hsaw] using hnotes⟩

/-- Where the log has starts and nothing is odd, the forest is what the log has placed. -/
theorem walk_buildForest_of_quiet (hsaw : (walkLog instructions inner markers).sawInvoke)
    (hnotes : ∀ item ∈ instructions.zipIdx,
      Completion.notesOn (walkLog instructions inner markers) item.2 = []) :
    (buildForest instructions inner markers).walk =
      (walkLog instructions inner markers).inOrder := by
  generalize hw : walkLog instructions inner markers = w at hsaw hnotes
  have hnumbered : w.Numbered instructions.length := hw ▸ .walkLog instructions inner markers
  have htrees : List.Forall₂ (fun item tree =>
      (w.branches.find? (·.top = item.2)).map Branch.tree = some tree)
      instructions.zipIdx (buildForest instructions inner markers).trees := by
    have hbuilt := (List.forall₂_and_left _ _).mpr
      ⟨hnotes, forall₂_trees_buildForest instructions inner markers⟩
    rw [hw] at hbuilt
    apply hbuilt.imp
    rintro item tree ⟨hquiet, -, nextId, rfl⟩
    obtain ⟨b, hfind, hpending⟩ := exists_find?_of_notesOn hsaw hquiet
    rw [Completion.treeOf, hfind]
    dsimp only
    rw [hpending]
    rfl
  have hsame : (buildForest instructions inner markers).trees =
      w.branches.reverse.map Branch.tree := by
    rw [← filterMap_eq_of_forall₂ htrees, ← hnumbered.filterMap_find?, List.map_filterMap,
      List.range_eq_range', ← List.zipIdx_map_snd 0 instructions, List.filterMap_map]
    rfl
  rw [Forest.walk, hsame, Tree.preorderAll_eq_flatMap, List.flatMap_map, Walk.inOrder]

/-- Where nothing is odd, the log has all nodes in their order, and there are no orphans. -/
theorem headings_of_quiet (hinvoke : ∃ logged depth, some (.invoke logged depth) ∈ markers)
    (hquiet : (buildForest instructions inner markers).warnings = []) :
    (∀ v ∈ (buildForest instructions inner markers).walk, ∃ i logged depth,
      markers[i]? = some (some (.invoke logged depth)) ∧
        placedAt instructions inner markers i = some v.id) ∧
      (buildForest instructions inner markers).walk.map Invocation.heading =
        markers.filterMap Marker.started ∧
      ∀ call ∈ inner, ¬ call.IsOrphan instructions.length := by
  obtain ⟨logged, depth, hinvoke⟩ := hinvoke
  rw [warnings_buildForest, List.append_eq_nil_iff, List.append_eq_nil_iff,
    List.flatMap_eq_nil_iff, List.map_eq_nil_iff] at hquiet
  obtain ⟨⟨hlog, hnotes⟩, horphans⟩ := hquiet
  have hwalk := walk_buildForest_of_quiet (Walk.sawInvoke_lines_of_mem _ 0 hinvoke) hnotes
  rw [hwalk]
  refine ⟨?_, ?_, ?_⟩
  · intro v hv
    apply exists_placedAt
    have hid : v.id ∈ (walkLog instructions inner markers).inOrder.map (·.id) :=
      List.mem_map_of_mem hv
    rw [(Walk.Numbered.walkLog instructions inner markers).ids, List.mem_range] at hid
    exact hid
  · have hstart : (Walk.start instructions).Reaches := Walk.Reaches.walkLog instructions inner []
    exact hstart.headings_lines 0 markers hlog
  · intro call hcall horphan
    have hmissing : call.parent ∈ missingParents instructions.length inner :=
      mem_missingParents.mpr ⟨horphan, call, hcall, rfl⟩
    rw [horphans] at hmissing
    cases hmissing

/-! ## Logs of lines -/

theorem getElem?_markers_ofLines {lines : List Text} (h : (Log.ofLines lines).fault = none)
    {i : Nat} {marker : Option Marker} :
    (Log.ofLines lines).markers[i]? = some marker ↔
      ∃ line, lines[i]? = some line ∧ Marker.ofLine line = .ok marker := by
  have hmarkers : (Log.ofLines lines).markers.map Except.ok = lines.map Marker.ofLine := by
    rw [← List.forall₂_eq_eq_eq, List.forall₂_map_left_iff, List.forall₂_map_right_iff]
    exact (Log.forall₂_markers_ofLines h).flip.imp fun _ _ hline => hline.symm
  have hi := congrArg (·[i]?) hmarkers
  simp only [List.getElem?_map] at hi
  constructor
  · intro hmarker
    rw [hmarker] at hi
    obtain ⟨line, hline, hread⟩ := Option.map_eq_some_iff.mp hi.symm
    exact ⟨line, hline, hread⟩
  · rintro ⟨line, hline, hread⟩
    rw [hline, Option.map_some, hread] at hi
    obtain ⟨marker', hmarker, hsame⟩ := Option.map_eq_some_iff.mp hi
    rw [hmarker, Except.ok.inj hsame]

theorem filterMap_startOf {lines : List Text} (h : (Log.ofLines lines).fault = none) :
    lines.filterMap Marker.startOf = (Log.ofLines lines).markers.filterMap Marker.started := by
  have hmarkers := Log.forall₂_markers_ofLines h
  generalize (Log.ofLines lines).markers = markers at hmarkers
  clear h
  induction hmarkers with
  | nil => rfl
  | cons hline _ ih => rw [List.filterMap_cons, List.filterMap_cons, ih, Marker.startOf, hline]

theorem getElem?_markers_of_isStart {lines : List Text} (h : (Log.ofLines lines).fault = none)
    {i : Nat} {line program : Text} {depth : Nat} (hline : lines[i]? = some line)
    (hstart : Marker.IsStart line program depth) :
    (Log.ofLines lines).markers[i]? = some (some (.invoke program depth)) := by
  obtain ⟨marker, hmarker⟩ := Log.fault_ofLines_eq_none_iff.mp h line (List.mem_of_getElem? hline)
  obtain rfl := hstart.ofLine_eq hmarker
  exact (getElem?_markers_ofLines h).mpr ⟨line, hline, hmarker⟩

/-- In a forest that is built, a start has its node or its note. -/
theorem placed_or_noted_of_decodeForest {r : Registry} {lines : List Text} {f : Forest Node}
    (hf : decodeForest r instructions inner (.ofLines lines) = .ok f) {i : Nat}
    {line program : Text} {depth : Nat} (hline : lines[i]? = some line)
    (hstart : Marker.IsStart line program depth) :
    (∃ n ∈ f.walk,
      placedAt instructions inner (Log.ofLines lines).markers i = some n.invocation.id ∧
      n.instruction.program.text = program ∧ n.invocation.depth = max depth 1 - 1) ∨
    ∃ x ∈ f.warnings, x.line = some i := by
  obtain ⟨hread, hg⟩ := decodeForest_eq_ok_iff.mp hf
  rw [(Forest.decode_eq_ok_iff.mp hg).2.2.1]
  refine (placed_or_noted (getElem?_markers_of_isStart hread hline hstart)).imp_left ?_
  rintro ⟨v, hv, hplaced⟩
  rw [← Forest.map_invocation_walk_of_decode hg] at hv
  obtain ⟨n, hn, rfl⟩ := List.mem_map.mp hv
  exact ⟨n, hn, hplaced⟩

/-- What is noted of a log, where a forest is built: each start has a node of its program at its
depth, which that line has placed, or there is a warning with the number of the line. So where a log
has starts and a forest no warnings, all nodes were placed by starts, the starts are the programs
and depths of the nodes, one after the other, and each call names an instruction that there is. A
forest is built where no start is overlong, each payload can be decoded and each warning written. -/
theorem decodeForest_notes_anomalies (r : Registry) (instructions : List Instruction)
    (inner : List InnerInstruction) (lines : List Text) :
    ((∀ call ∈ inner, call.height.isUsable) →
      ((∃ f, decodeForest r instructions inner (.ofLines lines) = .ok f) ↔
        (∀ line ∈ lines, ¬ Marker.IsOverlong line) ∧
        (∀ instruction ∈ instructions, r.Answers instruction) ∧
        (∀ call ∈ inner, ¬ call.IsOrphan instructions.length → r.Answers call.instruction) ∧
        ∀ call ∈ inner, call.IsOrphan instructions.length →
          Decimal.isWritable (call.parent + 1))) ∧
    ∀ f, decodeForest r instructions inner (.ofLines lines) = .ok f →
      (∀ i line program depth, lines[i]? = some line → Marker.IsStart line program depth →
        (∃ n ∈ f.walk,
          placedAt instructions inner (Log.ofLines lines).markers i = some n.invocation.id ∧
          n.instruction.program.text = program ∧ n.invocation.depth = max depth 1 - 1) ∨
        ∃ x ∈ f.warnings, x.line = some i) ∧
      ((∃ line ∈ lines, ∃ program depth, Marker.IsStart line program depth) → f.warnings = [] →
        (∀ n ∈ f.walk, ∃ i line program depth, lines[i]? = some line ∧
          Marker.IsStart line program depth ∧
          placedAt instructions inner (Log.ofLines lines).markers i = some n.invocation.id) ∧
        f.walk.map (fun n => (n.instruction.program.text, n.invocation.depth + 1)) =
          lines.filterMap Marker.startOf ∧
        ∀ call ∈ inner, ∃ i : Nat, call.parent = i ∧ i < instructions.length) := by
  refine ⟨exists_decodeForest_ofLines_iff, fun f hf => ⟨?_, ?_⟩⟩
  · intro i line program depth hline hstart
    exact placed_or_noted_of_decodeForest hf hline hstart
  · rintro ⟨line, hline, program, depth, hstart⟩ hquiet
    obtain ⟨hread, hg⟩ := decodeForest_eq_ok_iff.mp hf
    have hwalk := Forest.map_invocation_walk_of_decode hg
    have hwarnings := (Forest.decode_eq_ok_iff.mp hg).2.2.1
    obtain ⟨i, hi⟩ := List.mem_iff_getElem?.mp hline
    have hmarker := getElem?_markers_of_isStart hread hi hstart
    obtain ⟨hplaced, hheadings, horphans⟩ := headings_of_quiet
      ⟨program, depth, List.mem_of_getElem? hmarker⟩ (hwarnings.symm.trans hquiet)
    refine ⟨?_, ?_, ?_⟩
    · intro n hn
      have hv : n.invocation ∈ (buildForest instructions inner (Log.ofLines lines).markers).walk :=
        hwalk ▸ List.mem_map_of_mem hn
      obtain ⟨i, program, depth, hmarker, hid⟩ := hplaced n.invocation hv
      obtain ⟨line, hline, hstart⟩ := (getElem?_markers_ofLines hread).mp hmarker
      exact ⟨i, line, program, depth, hline, Marker.isStart_of_ofLine hstart, hid⟩
    · rw [filterMap_startOf hread, ← hheadings, ← hwalk, List.map_map]
      rfl
    · intro call hcall
      exact InnerInstruction.not_isOrphan_iff.mp (horphans call hcall)

/-- A start at depth 0 is one at depth 1, and the call after it is placed below. -/
theorem decodeForest_notes_anomalies_quiet :
    ∃ f, decodeForest {} [⟨Pubkey.zero, [], []⟩] [⟨0, ⟨Pubkey.zero, [1], []⟩, .unreported⟩]
        (.ofLines ["Program 11111111111111111111111111111111 invoke [0]",
          "Program 11111111111111111111111111111111 invoke [2]"]) = .ok f ∧
      f.warnings = [] ∧
      f.walk.map (fun n => (n.instruction.program.text, n.invocation.depth + 1)) =
        [(Pubkey.zero.text, 1), (Pubkey.zero.text, 2)] := by
  have hread : List.Forall₂ (fun line marker => Marker.ofLine line = .ok marker)
      [("Program 11111111111111111111111111111111 invoke [0]" : Text),
        "Program 11111111111111111111111111111111 invoke [2]"]
      [some (.invoke Pubkey.zero.text 0), some (.invoke Pubkey.zero.text 2)] :=
    .cons rfl (.cons rfl .nil)
  have hbuilt : ∃ f, (buildForest [⟨Pubkey.zero, [], []⟩]
      [⟨0, ⟨Pubkey.zero, [1], []⟩, .unreported⟩]
      [some (.invoke Pubkey.zero.text 0), some (.invoke Pubkey.zero.text 2)]).decode {} =
        .ok f := by
    apply exists_decode_without_orphans
    · simp [StackHeight.isUsable]
    · simp [InnerInstruction.IsOrphan]
    · exact fun _ _ => Registry.answers_empty _
    · exact fun _ _ => Registry.answers_empty _
  obtain ⟨f, hbuilt⟩ := hbuilt
  have hf := (decodeForest_of_forall hread).trans hbuilt
  have hquiet : f.warnings = [] := by
    rw [(Forest.decode_eq_ok_iff.mp hbuilt).2.2.1]
    decide +kernel
  have hstart : Marker.IsStart "Program 11111111111111111111111111111111 invoke [0]"
      Pubkey.zero.text 0 := Marker.isStart_of_ofLine rfl
  have hheadings := (((decodeForest_notes_anomalies _ _ _ _).2 f hf).2
    ⟨_, List.mem_cons_self, _, _, hstart⟩ hquiet).2.1
  refine ⟨f, hf, hquiet, hheadings.trans ?_⟩
  decide +kernel

/-- A start with a numeral of 4301 digits leaves neither a node nor a note, since no forest is
built. -/
theorem decodeForest_notes_anomalies_overlong :
    (∃ program depth, Marker.IsStart (Marker.invokeLine "x" (List.replicate 4301 '1')) program
      depth) ∧
    ¬ ∃ f, decodeForest {} [⟨Pubkey.zero, [], []⟩] []
      (.ofLines [Marker.invokeLine "x" (List.replicate 4301 '1')]) = .ok f := by
  have hoverlong : Marker.IsOverlong (Marker.invokeLine "x" (List.replicate 4301 '1')) :=
    Marker.isOverlong_invokeLine_replicate ⟨by decide, by decide⟩ (by decide)
  refine ⟨hoverlong.exists_isStart, fun hexists => ?_⟩
  have hshort := ((exists_decodeForest_ofLines_iff (List.forall_mem_nil _)).mp hexists).1
  exact hshort _ List.mem_cons_self hoverlong

end SolanaTx
