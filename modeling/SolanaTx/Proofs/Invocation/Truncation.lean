import SolanaTx.Proofs.Invocation.Heights

/-!
# A log that is cut short

Nodes keep a limit on the length of logs, so what is there may be the first lines of
the log only, up to any point inside the execution of an instruction. Where heights
are reported, this makes no difference to the shape of the forest: it costs just the
endings that later lines would state.
-/

namespace SolanaTx

open SolanaTx.Tree

namespace Runtime

variable {inner : List InnerInstruction}

/-! ## Instructions at the top -/

/-- Executions, each with how many lines are heard from its start on, where the first `heard` lines
of all their logs are. -/
def heardOf (heard : Nat) : List (Tree Execution) → List (Tree Execution × Nat)
  | [] => []
  | t :: ts => (t, heard) :: heardOf (heard - lineCount t) ts

theorem map_fst_heardOf (heard : Nat) (ts : List (Tree Execution)) :
    (heardOf heard ts).map Prod.fst = ts := by
  induction ts generalizing heard with
  | nil => rfl
  | cons t rest ih => rw [heardOf, List.map_cons, ih]

theorem snd_of_mem_heardOf_zero {ts : List (Tree Execution)} {item : Tree Execution × Nat}
    (h : item ∈ heardOf 0 ts) : item.2 = 0 := by
  induction ts with
  | nil => cases h
  | cons t rest ih =>
      rw [heardOf, Nat.zero_sub] at h
      rcases List.mem_cons.mp h with rfl | h
      · rfl
      · exact ih h

/-- An instruction with what is heard after its start. -/
def partUpTo : Tree Execution × Nat → Part
  | (.node x _, 0) => ⟨x.instruction, none⟩
  | (.node x callees, heard + 1) => ⟨x.instruction,
      some ((markersAll 1 (mapAll Execution.entry callees) ++ [Marker.ended x.ending]).take heard)⟩

theorem instruction_partUpTo (item : Tree Execution × Nat) :
    (partUpTo item).instruction = item.1.value.instruction := by
  match item with
  | (.node _ _, 0) => rfl
  | (.node _ _, _ + 1) => rfl

theorem map_instruction_partUpTo (heard : Nat) (ts : List (Tree Execution)) :
    ((heardOf heard ts).map partUpTo).map (·.instruction) = ts.map (·.value.instruction) := by
  nth_rewrite 2 [← map_fst_heardOf heard ts]
  rw [List.map_map, List.map_map]
  exact List.map_congr_left fun item _ => instruction_partUpTo item

theorem markers_partUpTo (item : Tree Execution × Nat) :
    (partUpTo item).markers = (markers 0 (item.1.map Execution.entry)).take item.2 := by
  match item with
  | (.node _ _, 0) => rfl
  | (.node _ _, _ + 1) => rfl

/-- What is heard of the executions is what is heard of their log. -/
theorem markers_heardOf (heard : Nat) (ts : List (Tree Execution)) :
    ((heardOf heard ts).map partUpTo).flatMap Part.markers =
      (markersAll 0 (ts.map (map Execution.entry))).take heard := by
  induction ts generalizing heard with
  | nil => exact List.take_nil.symm
  | cons t rest ih =>
      rw [heardOf, List.map_cons, List.flatMap_cons, markers_partUpTo, ih, List.map_cons,
        markersAll, List.take_append, length_markers]

/-- Behind an instruction whose start is not heard no other start is. -/
theorem apart_heardOf (heard : Nat) (ts : List (Tree Execution)) :
    ((heardOf heard ts).map partUpTo).Pairwise Part.Apart := by
  induction ts generalizing heard with
  | nil => exact .nil
  | cons t rest ih =>
      rw [heardOf, List.map_cons, List.pairwise_cons]
      refine ⟨?_, ih _⟩
      intro p hp hnone hsome
      obtain ⟨⟨x, callees⟩⟩ := t
      cases heard with
      | succ heard => cases hnone
      | zero =>
          rw [Nat.zero_sub] at hp
          obtain ⟨⟨⟨x', callees'⟩, heard'⟩, hmem, rfl⟩ := List.mem_map.mp hp
          obtain rfl : heard' = 0 := snd_of_mem_heardOf_zero hmem
          cases hsome

/-- Whether a branch becomes a tree when its calls are placed by height. -/
def GrowsTo (expected : Tree Invocation) (b : Branch) : Prop :=
  ∀ nextId, (Completion.placeCalls b.tree nextId b.pending).1.map Invocation.unplaced = expected

theorem FillsIn.growsTo {tree : Tree Invocation} {calls : List InnerInstruction} {v : Invocation}
    {expected : List (Tree Invocation)} (h : FillsIn tree calls v [] [] expected) :
    GrowsTo (node v.unplaced expected) ⟨tree, calls⟩ := by
  intro nextId
  obtain ⟨us, hus, htree⟩ := h nextId
  dsimp only
  rw [htree, List.nil_append, plug, map, hus]

theorem FillsIn.value_eq {tree : Tree Invocation} {calls : List InnerInstruction} {v : Invocation}
    {expected : List (Tree Invocation)} (h : FillsIn tree calls v [] [] expected) :
    tree.value = v := by
  obtain ⟨us, -, htree⟩ := h 0
  rw [← Completion.value_placeCalls calls tree 0, htree]
  rfl

/-- What is heard of an instruction, and the calls reported for it, make its tree. -/
theorem makes_partUpTo (t : Tree Execution) (heard : Nat) {top : Nat}
    (hcalls : (callsOf inner top).map InnerInstruction.report = reportedAll 1 t.children) :
    (partUpTo (t, heard)).Makes inner False (GrowsTo (shownUpTo heard 0 top t)) top := by
  intro body hbody w others line hfresh
  obtain ⟨x, callees⟩ := t
  cases heard with
  | zero => cases hbody
  | succ heard =>
      obtain rfl := Option.some.inj hbody
      by_cases hall : lineCountAll callees < heard
      · -- the whole log of the instruction is heard
        have hwhole : lineCount (node x callees) ≤ heard + 1 := by
          rw [lineCount]
          omega
        obtain ⟨b, hbranches, htop, ⟨hpending, htree⟩, hwaiting, -⟩ :=
          (Slot.logged (node x callees)).makes_part
            (map_instruction_of_reportedAll hcalls) _ rfl w others line hfresh
        rw [List.take_of_length_le (by
          rw [List.length_append, length_markersAll, List.length_singleton]
          omega)]
        refine ⟨b, hbranches, htop, ?_, hwaiting, False.elim⟩
        intro nextId
        rw [hpending]
        exact map_unplaced_of_unnumbered htree hwhole
      · obtain ⟨⟨id, hbranches⟩, hopen⟩ := hfresh
        have hroot : w.Inside { id, instruction := x.instruction, depth := 0, top } [] []
            (callsOf inner top ++ []) others := by
          refine ⟨?_, ?_⟩
          · rw [List.append_nil]
            exact hbranches
          · rw [hopen]
            exact Nat.one_pos
        obtain ⟨⟨tree, left, htree, hfills⟩, hwaiting⟩ :=
          breaksOff_lines_markersAll inner callees hroot hcalls rfl heard line
        rw [List.append_nil] at htree
        rw [take_callees 1 (Nat.not_lt.mp hall)]
        refine ⟨⟨tree, left⟩, htree, congrArg Invocation.top hfills.value_eq, ?_, hwaiting,
          False.elim⟩
        rw [shownUpTo, if_neg (by omega)]
        exact hfills.growsTo

/-- An instruction whose start is not heard gets its tree from the calls alone. -/
theorem growsTo_leaf (t : Tree Execution) {top : Nat}
    (hcalls : (callsOf inner top).map InnerInstruction.report = reportedAll 1 t.children)
    (id : Nat) :
    GrowsTo (shownUpTo 0 0 top t)
      ⟨.leaf { id, instruction := t.value.instruction, depth := 0, top }, callsOf inner top⟩ := by
  obtain ⟨x, callees⟩ := t
  have hfills := @fillsIn_reportedAll callees { id, instruction := x.instruction, depth := 0, top }
    [] [] (callsOf inner top) top hcalls rfl
  rw [shownUpTo, if_neg (by omega)]
  exact hfills.growsTo

/-- The trees of executions of which the first `heard` lines of the log are there. -/
def treesUpTo (heard : Nat) (ts : List (Tree Execution)) : List (Tree Invocation) :=
  (heardOf heard ts).zipIdx.map fun item => shownUpTo item.1.2 0 item.2 item.1.1

/-- Whether a branch becomes the tree of the execution at its place. -/
def Regrown (heard : Nat) (ts : List (Tree Execution)) (top : Nat) (b : Branch) : Prop :=
  ∀ item, (heardOf heard ts)[top]? = some item → GrowsTo (shownUpTo item.2 0 top item.1) b

/-- What is heard of a log and the reported calls rebuild all trees, with the endings heard. -/
theorem trees_buildForest_heard {ts : List (Tree Execution)}
    (hcalls : ∀ item ∈ ts.zipIdx,
      (callsOf inner item.2).map InnerInstruction.report = reportedAll 1 item.1.children)
    (heard : Nat) :
    mapAll Invocation.unplaced (buildForest (ts.map (·.value.instruction)) inner
      (((markersAll 0 (ts.map (map Execution.entry))).take heard).map some)).trees =
        treesUpTo heard ts := by
  have hcallsOf : ∀ item top, (heardOf heard ts)[top]? = some item →
      (callsOf inner top).map InnerInstruction.report = reportedAll 1 item.1.children := by
    intro item top hitem
    apply hcalls (item.1, top)
    rw [List.mem_zipIdx_iff_getElem?, ← map_fst_heardOf heard ts, List.getElem?_map, hitem]
    rfl
  have hmakes : ∀ item ∈ ((heardOf heard ts).map partUpTo).zipIdx,
      item.1.Makes inner False (Regrown heard ts item.2) item.2 := by
    intro item hitem
    rw [List.zipIdx_map] at hitem
    obtain ⟨⟨⟨t, k⟩, top⟩, hmem, rfl⟩ := List.mem_map.mp hitem
    have hat : (heardOf heard ts)[top]? = some (t, k) := List.mem_zipIdx_iff_getElem?.mp hmem
    apply (makes_partUpTo t k (hcallsOf _ _ hat)).mono
    intro b hb item' hitem'
    obtain rfl := Option.some.inj (hat.symm.trans hitem')
    exact hb
  rw [← markers_heardOf, ← map_instruction_partUpTo heard ts, mapAll_eq_map]
  apply List.ext_getElem?
  intro i
  rw [List.getElem?_map, treesUpTo, List.getElem?_map, List.getElem?_zipIdx]
  cases htree : (buildForest (((heardOf heard ts).map partUpTo).map (·.instruction)) inner
      ((((heardOf heard ts).map partUpTo).flatMap Part.markers).map some)).trees[i]? with
  | none =>
      rw [List.getElem?_eq_none_iff, length_trees_buildForest, List.length_map, List.length_map]
        at htree
      rw [List.getElem?_eq_none_iff.mpr htree]
      rfl
  | some tree =>
      obtain ⟨p, nextId, hp, hgrown⟩ := exists_tree_of_parts (apart_heardOf heard ts) hmakes htree
      rw [List.getElem?_map] at hp
      obtain ⟨⟨t, k⟩, hitem, rfl⟩ := Option.map_eq_some_iff.mp hp
      rw [hitem, Option.map_some, Option.map_some, Option.map_some, Nat.zero_add]
      congr 1
      match t, k with
      | .node x callees, 0 =>
          obtain rfl := hgrown
          exact growsTo_leaf (.node x callees) (hcallsOf _ _ hitem) nextId (nextId + 1)
      | .node x callees, k + 1 =>
          obtain ⟨b, hb, rfl⟩ := hgrown
          exact hb _ hitem nextId

/-! ## Shape -/

/-- What of an invocation belongs to the shape of a forest: its depth, its instruction and the place
of the one at the top. -/
def outline (v : Invocation) : Nat × Nat × Instruction :=
  (v.depth, v.entry)

mutual

theorem map_outline_shownUpTo (heard depth top : Nat) (t : Tree Execution) :
    (shownUpTo heard depth top t).map outline = (shown depth top t).map outline := by
  obtain ⟨x, callees⟩ := t
  rw [shownUpTo, shown, map, map, mapAll_outline_shownUpToAll (heard - 1) (depth + 1) top callees]
  rfl

theorem mapAll_outline_shownUpToAll (heard depth top : Nat) (ts : List (Tree Execution)) :
    mapAll outline (shownUpToAll heard depth top ts) = mapAll outline (shownAll depth top ts) := by
  cases ts with
  | nil => rfl
  | cons t rest =>
      rw [shownUpToAll, shownAll, mapAll, mapAll, map_outline_shownUpTo heard depth top t,
        mapAll_outline_shownUpToAll (heard - lineCount t) depth top rest]

end

/-- The shape does not depend on how much of the log is there. -/
theorem mapAll_outline_treesUpTo (heard : Nat) (ts : List (Tree Execution)) :
    mapAll outline (treesUpTo heard ts) =
      ts.zipIdx.map fun item => (shown 0 item.2 item.1).map outline := by
  nth_rewrite 2 [← map_fst_heardOf heard ts]
  rw [mapAll_eq_map, treesUpTo, List.zipIdx_map, List.map_map, List.map_map]
  exact List.map_congr_left fun item _ => map_outline_shownUpTo _ 0 _ _

/-! ## Lines -/

/-- How many of the first `n` lines say something. -/
def spokenAmong (lines : List Text) (n : Nat) : Nat :=
  ((lines.take n).filter fun line => !isSilent line).length

theorem filter_take_eq_take_filter {α : Type} (p : α → Bool) (as : List α) (n : Nat) :
    (as.take n).filter p = (as.filter p).take ((as.take n).filter p).length := by
  have hsplit : as.filter p = (as.take n).filter p ++ (as.drop n).filter p := by
    rw [← List.filter_append, List.take_append_drop]
  rw [hsplit, List.take_left]

/-- As many lines are spoken as there are markers. -/
theorem length_filter_of_forall₂ {lines : List Text} {markers : List (Option Marker)}
    (h : List.Forall₂ (fun line marker => Marker.ofLine line = .ok marker) lines markers) :
    (markers.filter (·.isSome)).length = (lines.filter fun line => !isSilent line).length := by
  induction h with
  | nil => rfl
  | @cons line marker _ _ hline _ ih =>
      cases marker <;> simp [isSilent, hline, ih]

/-- The first lines of a log of the runtime say the first of its starts and ends. -/
theorem Logs.exists_markers_take {lines : List Text} {trees : List (Tree Entry)}
    (h : Logs lines trees) (n : Nat) :
    ∃ all, List.Forall₂ (fun line marker => Marker.ofLine line = .ok marker) (lines.take n) all ∧
      all.filter (·.isSome) = ((markersAll 0 trees).take (spokenAmong lines n)).map some := by
  obtain ⟨all, hall, hfilter⟩ := h.exists_markers
  have htake := List.forall₂_take n hall
  refine ⟨all.take n, htake, ?_⟩
  rw [filter_take_eq_take_filter, length_filter_of_forall₂ htake, hfilter, List.map_take]
  rfl

/-! ## Transactions -/

/-- Whether lines and reported calls are those of some executions: the log is that of the runtime,
and the calls of each instruction are reported in order, each with its height, under the place of
the instruction. -/
structure ReportsHeights (ts : List (Tree Execution)) (inner : List InnerInstruction)
    (lines : List Text) : Prop where
  log : Logs lines (ts.map (map Execution.entry))
  calls : ∀ item ∈ ts.zipIdx,
    (callsOf inner item.2).map InnerInstruction.report = reportedAll 1 item.1.children
  parents : ∀ call ∈ inner, ¬ call.IsOrphan ts.length

variable {ts : List (Tree Execution)} {lines : List Text}

theorem ReportsHeights.isUsable (h : ReportsHeights ts inner lines) :
    ∀ call ∈ inner, call.height.isUsable := by
  intro call hcall
  obtain ⟨i, hparent, hi⟩ := InnerInstruction.not_isOrphan_iff.mp (h.parents call hcall)
  have hmem : call ∈ callsOf inner i := List.mem_filter.mpr ⟨hcall, by simpa using hparent⟩
  have hitem : (ts[i], i) ∈ ts.zipIdx :=
    List.mem_zipIdx_iff_getElem?.mpr (List.getElem?_eq_getElem hi)
  have hreport : call.report ∈ reportedAll 1 ts[i].children := by
    rw [← h.calls _ hitem]
    exact List.mem_map_of_mem hmem
  exact isUsable_of_mem_reportedAll hreport

theorem ReportsHeights.exists_decodeForest_iff (h : ReportsHeights ts inner lines) (r : Registry)
    (n : Nat) :
    (∃ f, decodeForest r (ts.map (·.value.instruction)) inner (.ofLines (lines.take n)) = .ok f) ↔
      (∀ t ∈ ts, r.Answers t.value.instruction) ∧ ∀ call ∈ inner, r.Answers call.instruction := by
  obtain ⟨all, hall, -⟩ := h.log.exists_markers_take n
  have hplaced : ∀ call ∈ inner, ¬ call.IsOrphan (ts.map (·.value.instruction)).length := by
    rw [List.length_map]
    exact h.parents
  rw [decodeForest_of_forall hall, Forest.exists_decode_iff, forall_walk_decode_iff h.isUsable,
    forall_isWritable_iff, List.forall_mem_map]
  constructor
  · rintro ⟨⟨hinstructions, hcalls⟩, -⟩
    exact ⟨hinstructions, fun call hcall => hcalls call hcall (hplaced call hcall)⟩
  · rintro ⟨hinstructions, hcalls⟩
    exact ⟨⟨hinstructions, fun call hcall _ => hcalls call hcall⟩,
      fun call hcall horphan => absurd horphan (hplaced call hcall)⟩

theorem ReportsHeights.mapAll_path (h : ReportsHeights ts inner lines) {r : Registry} {n : Nat}
    {f : Forest Node}
    (hf : decodeForest r (ts.map (·.value.instruction)) inner (.ofLines (lines.take n)) = .ok f) :
    mapAll (fun node => (node.path, node.invocation.unplaced)) f.trees =
      numberedFrom [] 1 (treesUpTo (spokenAmong lines n) ts) := by
  obtain ⟨all, hall, hfilter⟩ := h.log.exists_markers_take n
  rw [decodeForest_of_forall hall] at hf
  rw [Forest.mapAll_path_of_decode hf, trees_buildForest_filter_isSome, hfilter,
    trees_buildForest_heard h.calls]

/-- The first lines of a log give a forest just where the whole log does, and it is the one that
took place: each invocation stands in its place at its depth, and has the ending that its line
states where that line is among the first, and else none. So it has the shape of the forest of the
whole log, whether the rest of it was placed by the log or by heights. -/
theorem decodeForest_of_first_lines (r : Registry) {ts : List (Tree Execution)}
    {inner : List InnerInstruction} {lines : List Text} (h : ReportsHeights ts inner lines)
    (n : Nat) :
    ((∃ f, decodeForest r (ts.map (·.value.instruction)) inner (.ofLines (lines.take n)) =
        .ok f) ↔
      (∀ t ∈ ts, r.Answers t.value.instruction) ∧ ∀ call ∈ inner, r.Answers call.instruction) ∧
    ∀ f, decodeForest r (ts.map (·.value.instruction)) inner (.ofLines (lines.take n)) = .ok f →
      mapAll (fun node => (node.path, node.invocation.unplaced)) f.trees =
        numberedFrom [] 1 (treesUpTo (spokenAmong lines n) ts) ∧
      ∃ whole, decodeForest r (ts.map (·.value.instruction)) inner (.ofLines lines) = .ok whole ∧
        mapAll (fun node => (node.path, outline node.invocation)) f.trees =
          mapAll (fun node => (node.path, outline node.invocation)) whole.trees := by
  refine ⟨h.exists_decodeForest_iff r n, ?_⟩
  intro f hf
  have hwhole : ∃ whole, decodeForest r (ts.map (·.value.instruction)) inner
      (.ofLines (lines.take lines.length)) = .ok whole :=
    (h.exists_decodeForest_iff r lines.length).mpr ((h.exists_decodeForest_iff r n).mp ⟨f, hf⟩)
  obtain ⟨whole, hwhole⟩ := hwhole
  -- the outline is seen in both forests through their trees without numbers and heights
  have hview : ∀ {g : Forest Node} {m : Nat},
      decodeForest r (ts.map (·.value.instruction)) inner (.ofLines (lines.take m)) = .ok g →
      mapAll (fun node => (node.path, outline node.invocation)) g.trees =
        numberedFrom [] 1 (ts.zipIdx.map fun item => (shown 0 item.2 item.1).map outline) := by
    intro g m hg
    have hsame := congrArg (mapAll fun item => (item.1, outline item.2)) (h.mapAll_path hg)
    rw [mapAll_mapAll, ← numberedFrom_mapAll, mapAll_outline_treesUpTo] at hsame
    exact hsame
  refine ⟨h.mapAll_path hf, whole, ?_, (hview hf).trans (hview hwhole).symm⟩
  rw [List.take_length] at hwhole
  exact hwhole

/-- A log that stops inside the second call of a program to itself: the third call, which the log
does not start, stands behind the first by its height. -/
theorem decodeForest_of_first_lines_self_call :
    ReportsHeights
        [.node ⟨⟨Pubkey.zero, [], []⟩, .failed "out of funds"⟩
          [.node ⟨⟨Pubkey.zero, [1], []⟩, .success⟩ [.leaf ⟨⟨Pubkey.zero, [2], []⟩, .success⟩],
            .leaf ⟨⟨Pubkey.zero, [3], []⟩, .failed "no"⟩]]
        [⟨0, ⟨Pubkey.zero, [1], []⟩, .level 2⟩, ⟨0, ⟨Pubkey.zero, [2], []⟩, .level 3⟩,
          ⟨0, ⟨Pubkey.zero, [3], []⟩, .level 2⟩]
        ["Program 11111111111111111111111111111111 invoke [1]",
          "Program log: hello",
          "Program 11111111111111111111111111111111 invoke [2]",
          "Program 11111111111111111111111111111111 invoke [3]",
          "Program 11111111111111111111111111111111 success",
          "Program 11111111111111111111111111111111 success",
          "Program 11111111111111111111111111111111 invoke [2]",
          "Program 11111111111111111111111111111111 failed: no",
          "Program 11111111111111111111111111111111 failed: out of funds"] ∧
      ∃ f, decodeForest {} [⟨Pubkey.zero, [], []⟩]
          [⟨0, ⟨Pubkey.zero, [1], []⟩, .level 2⟩, ⟨0, ⟨Pubkey.zero, [2], []⟩, .level 3⟩,
            ⟨0, ⟨Pubkey.zero, [3], []⟩, .level 2⟩]
          (.ofLines ["Program 11111111111111111111111111111111 invoke [1]",
            "Program log: hello",
            "Program 11111111111111111111111111111111 invoke [2]",
            "Program 11111111111111111111111111111111 invoke [3]",
            "Program 11111111111111111111111111111111 success"]) = .ok f ∧
        mapAll (fun node => (node.path, node.invocation.unplaced)) f.trees =
          [.node ([1], ⟨0, ⟨Pubkey.zero, [], []⟩, 0, 0, none, none⟩)
            [.node ([1, 1], ⟨0, ⟨Pubkey.zero, [1], []⟩, 1, 0, none, none⟩)
              [.leaf ([1, 1, 1], ⟨0, ⟨Pubkey.zero, [2], []⟩, 2, 0, none, some .success⟩)],
              .leaf ([1, 2], ⟨0, ⟨Pubkey.zero, [3], []⟩, 1, 0, none, none⟩)]] := by
  have hreports : ReportsHeights
      [.node ⟨⟨Pubkey.zero, [], []⟩, .failed "out of funds"⟩
        [.node ⟨⟨Pubkey.zero, [1], []⟩, .success⟩ [.leaf ⟨⟨Pubkey.zero, [2], []⟩, .success⟩],
          .leaf ⟨⟨Pubkey.zero, [3], []⟩, .failed "no"⟩]]
      [⟨0, ⟨Pubkey.zero, [1], []⟩, .level 2⟩, ⟨0, ⟨Pubkey.zero, [2], []⟩, .level 3⟩,
        ⟨0, ⟨Pubkey.zero, [3], []⟩, .level 2⟩]
      ["Program 11111111111111111111111111111111 invoke [1]",
        "Program log: hello",
        "Program 11111111111111111111111111111111 invoke [2]",
        "Program 11111111111111111111111111111111 invoke [3]",
        "Program 11111111111111111111111111111111 success",
        "Program 11111111111111111111111111111111 success",
        "Program 11111111111111111111111111111111 invoke [2]",
        "Program 11111111111111111111111111111111 failed: no",
        "Program 11111111111111111111111111111111 failed: out of funds"] := by
    refine ⟨⟨by decide +kernel, ?_, by decide +kernel⟩, ?_, ?_⟩
    · have hwords : ∀ e ∈ preorderAll [.node (⟨Pubkey.zero.text, .failed "out of funds"⟩ : Entry)
          [.node ⟨Pubkey.zero.text, .success⟩ [.leaf ⟨Pubkey.zero.text, .success⟩],
            .leaf ⟨Pubkey.zero.text, .failed "no"⟩]], e.IsLoggable := by
        simp only [preorderAll, preorder, Tree.leaf, List.append_nil, List.cons_append,
          List.nil_append, List.forall_mem_cons, List.not_mem_nil, false_implies, implies_true,
          and_true]
        refine ⟨⟨Pubkey.isWord_text _, ?_⟩, ⟨Pubkey.isWord_text _, trivial⟩,
          ⟨Pubkey.isWord_text _, trivial⟩, ⟨Pubkey.isWord_text _, ?_⟩⟩
        · exact ⟨by decide, by decide, by decide⟩
        · exact ⟨by decide, by decide, by decide⟩
      exact hwords
    · intro item hitem
      obtain rfl := List.mem_singleton.mp hitem
      rfl
    · simp [InnerInstruction.IsOrphan]
  obtain ⟨hexists, hforest⟩ := decodeForest_of_first_lines {} hreports 5
  obtain ⟨f, hf⟩ := hexists.mpr
    ⟨fun t _ => Registry.answers_empty t.value.instruction, fun call _ => Registry.answers_empty _⟩
  obtain ⟨htrees, -⟩ := hforest f hf
  have hspoken : spokenAmong ["Program 11111111111111111111111111111111 invoke [1]",
      "Program log: hello",
      "Program 11111111111111111111111111111111 invoke [2]",
      "Program 11111111111111111111111111111111 invoke [3]",
      "Program 11111111111111111111111111111111 success",
      "Program 11111111111111111111111111111111 success",
      "Program 11111111111111111111111111111111 invoke [2]",
      "Program 11111111111111111111111111111111 failed: no",
      "Program 11111111111111111111111111111111 failed: out of funds"] 5 = 4 := by
    decide +kernel
  rw [hspoken] at htrees
  exact ⟨hreports, f, hf, htrees⟩

end Runtime

end SolanaTx
