import SolanaTx.Proofs.Invocation.Conservation
import SolanaTx.Proofs.Invocation.Runtime
import SolanaTx.Proofs.Invocation.TopLevel

/-!
# The forest that took place

Where the calls of every instruction are reported and its log is that of the runtime,
the walk rebuilds each tree of invocations. The walk is kept inside the invocation
that runs: its start takes the next reported call, its callees fill it in, and its end
marks it and makes it the last callee of its caller.
-/

namespace SolanaTx

open SolanaTx.Tree

/-- An invocation without the number of its placing. -/
def Invocation.unnumbered (v : Invocation) : Invocation :=
  { v with id := 0 }

namespace Runtime

/-- An invocation that took place. -/
structure Execution where
  instruction : Instruction
  ending : Ending

def Execution.entry (x : Execution) : Entry :=
  ⟨x.instruction.program.text, x.ending⟩

mutual

/-- How a tree of executions is to be shown: each at its depth, with its own ending. -/
def shown (depth top : Nat) : Tree Execution → Tree Invocation
  | .node x callees =>
      .node { id := 0, instruction := x.instruction, depth, top, ending := some x.ending }
        (shownAll (depth + 1) top callees)

def shownAll (depth top : Nat) : List (Tree Execution) → List (Tree Invocation)
  | [] => []
  | t :: ts => shown depth top t :: shownAll depth top ts

end

mutual

theorem of_mem_shown {depth top : Nat} {t : Tree Execution} {v : Invocation}
    (hv : v ∈ (shown depth top t).preorder) : v.ending.isSome ∧ v.placedBy = none := by
  obtain ⟨x, callees⟩ := t
  rw [shown, preorder] at hv
  rcases List.mem_cons.mp hv with rfl | hv
  · exact ⟨rfl, rfl⟩
  · exact of_mem_shownAll hv

theorem of_mem_shownAll {depth top : Nat} {ts : List (Tree Execution)} {v : Invocation}
    (hv : v ∈ preorderAll (shownAll depth top ts)) : v.ending.isSome ∧ v.placedBy = none := by
  cases ts with
  | nil => cases hv
  | cons t rest =>
      rw [shownAll, preorderAll] at hv
      rcases List.mem_append.mp hv with hv | hv
      · exact of_mem_shown hv
      · exact of_mem_shownAll hv

end

theorem allEnded_of_shownAll {depth top : Nat} {ts : List (Tree Execution)}
    {us : List (Tree Invocation)}
    (hus : mapAll Invocation.unnumbered us = shownAll depth top ts) : AllEnded us := by
  intro v hv
  have hmem : v.unnumbered ∈ preorderAll (shownAll depth top ts) := by
    rw [← hus, preorderAll_mapAll]
    exact List.mem_map_of_mem hv
  have hended : v.unnumbered.ending.isSome := (of_mem_shownAll hmem).1
  exact hended

/-! ## One invocation inside another -/

/-- Whether a walk has come out of some invocations into their caller, where they are shown as they
took place. -/
structure Shows (w w' : Walk) (v : Invocation) (cs us : List (Tree Invocation))
    (above : List (Frame Invocation)) (pending : List InnerInstruction) (others : List Branch) :
    Prop where
  inside : w'.Inside v (cs ++ us) above pending others
  waiting : w'.waiting = w.waiting
  warnings : w'.warnings = w.warnings

theorem Shows.trans {w w' w'' : Walk} {v : Invocation} {cs us us' : List (Tree Invocation)}
    {above : List (Frame Invocation)} {pending pending' : List InnerInstruction}
    {others : List Branch} (h : Shows w w' v cs us above pending others)
    (h' : Shows w' w'' v (cs ++ us) us' above pending' others) :
    Shows w w'' v cs (us ++ us') above pending' others := by
  refine ⟨?_, h'.waiting.trans h.waiting, h'.warnings.trans h.warnings⟩
  have hinside := h'.inside
  rw [List.append_assoc] at hinside
  exact hinside

mutual

/-- The log of an execution rebuilds it as the last callee of its caller. -/
theorem shows_lines_markers (inner : List InnerInstruction) (t : Tree Execution) {w : Walk}
    {v : Invocation} {cs : List (Tree Invocation)} {above : List (Frame Invocation)}
    {calls rest : List InnerInstruction} {others : List Branch} {top : Nat}
    (h : w.Inside v cs above (calls ++ rest) others)
    (hcalls : calls.map (·.instruction) = t.preorder.map (·.instruction))
    (htop : (plug (node v cs) above).value.top = top) (line : Nat) :
    ∃ u, u.map Invocation.unnumbered = shown (above.length + 1) top t ∧
      Shows w (w.lines inner line
        ((markers (above.length + 1) (t.map Execution.entry)).map some)) v cs [u] above rest
        others := by
  obtain ⟨x, callees⟩ := t
  cases calls with
  | nil => simp [preorder] at hcalls
  | cons call calls =>
      rw [preorder, List.map_cons, List.map_cons] at hcalls
      obtain ⟨hcall, hcalls⟩ := List.cons.inj hcalls
      obtain ⟨hstarted, hwaiting, hwarnings⟩ := h.call inner x.instruction.program.text line
      rw [htop] at hstarted
      -- the call is the open end now, and its log up to the end is that of its callees
      have hroot : (plug (node (w.nextCall top above call) []) ((v, cs) :: above)).value.top =
          top := by
        rw [← htop, plug, value_plug_node v _ cs above]
      obtain ⟨us, hus, hcallees⟩ :=
        shows_lines_markersAll inner callees hstarted hcalls hroot (line + 1)
      -- they have all ended, so the end that follows is for the call itself
      have hended : AllEnded ([] ++ us) := allEnded_of_shownAll hus
      obtain ⟨hmarked, hwaiting', hwarnings'⟩ := hcallees.inside.finish rfl hended x.ending
      refine ⟨node { w.nextCall top above call with ending := some x.ending } us, ?_, ?_⟩
      · rw [map, hus, shown, Invocation.unnumbered, Walk.nextCall, hcall]
        rfl
      · rw [map, markers, List.map_cons, List.map_append, List.map_singleton, Walk.lines,
          Walk.lines_append]
        exact ⟨hmarked.close, hwaiting'.trans (hcallees.waiting.trans hwaiting),
          hwarnings'.trans (hcallees.warnings.trans (hwarnings (by rw [hcall])))⟩

theorem shows_lines_markersAll (inner : List InnerInstruction) (ts : List (Tree Execution))
    {w : Walk} {v : Invocation} {cs : List (Tree Invocation)} {above : List (Frame Invocation)}
    {calls rest : List InnerInstruction} {others : List Branch} {top : Nat}
    (h : w.Inside v cs above (calls ++ rest) others)
    (hcalls : calls.map (·.instruction) = (preorderAll ts).map (·.instruction))
    (htop : (plug (node v cs) above).value.top = top) (line : Nat) :
    ∃ us, mapAll Invocation.unnumbered us = shownAll (above.length + 1) top ts ∧
      Shows w (w.lines inner line
        ((markersAll (above.length + 1) (mapAll Execution.entry ts)).map some)) v cs us above rest
        others := by
  cases ts with
  | nil =>
      obtain rfl := List.map_eq_nil_iff.mp hcalls
      refine ⟨[], rfl, ⟨?_, rfl, rfl⟩⟩
      rw [List.append_nil]
      exact h
  | cons t ts =>
      rw [preorderAll, List.map_append] at hcalls
      -- the reported calls are split as the trees are: those of the first, and those of the rest
      obtain ⟨first, later, rfl, hfirst, hlater⟩ := List.map_eq_append_iff.mp hcalls
      rw [List.append_assoc] at h
      obtain ⟨u, hu, hshows⟩ := shows_lines_markers inner t h hfirst htop line
      have htop' : (plug (node v (cs ++ [u])) above).value.top = top := by
        rw [value_plug_node v _ cs above, htop]
      obtain ⟨us, hus, hshows'⟩ :=
        shows_lines_markersAll inner ts hshows.inside hlater htop' _
      refine ⟨u :: us, ?_, ?_⟩
      · rw [mapAll, hu, hus, shownAll]
      · rw [mapAll, markersAll, List.map_append, Walk.lines_append]
        exact hshows.trans hshows'

end

/-! ## Transactions -/

/-- An instruction at the top: executed as the log tells, or not logged. -/
inductive Slot where
  | logged (t : Tree Execution)
  | unlogged (instruction : Instruction)

namespace Slot

def instruction : Slot → Instruction
  | logged t => t.value.instruction
  | unlogged instruction => instruction

/-- What the instruction has called, each call before what it has called in turn. -/
def calls : Slot → List Instruction
  | logged t => (preorderAll t.children).map (·.instruction)
  | unlogged _ => []

def execution? : Slot → Option (Tree Execution)
  | logged t => some t
  | unlogged _ => none

/-- How an instruction is to be shown. One that is not logged has no ending. -/
def tree (top : Nat) : Slot → Tree Invocation
  | logged t => shown 0 top t
  | unlogged instruction => .leaf { id := 0, instruction, depth := 0, top }

/-- What is noted on an instruction when the log is over. -/
def notes (top : Nat) : Slot → List Warning
  | logged _ => []
  | unlogged _ => [⟨.notLogged top, none⟩]

/-- An instruction with what the log says after its start. -/
def part : Slot → Part
  | logged (.node x callees) => ⟨x.instruction,
      some (markersAll 1 (mapAll Execution.entry callees) ++ [.ended x.ending])⟩
  | unlogged instruction => ⟨instruction, none⟩

theorem instruction_part (s : Slot) : s.part.instruction = s.instruction := by
  match s with
  | logged (.node _ _) => rfl
  | unlogged _ => rfl

theorem isSome_body_part (s : Slot) : s.part.body.isSome = s.execution?.isSome := by
  match s with
  | logged (.node _ _) => rfl
  | unlogged _ => rfl

end Slot

/-- The trees of entries that the log tells of. -/
def entries (slots : List Slot) : List (Tree Entry) :=
  (slots.filterMap Slot.execution?).map (map Execution.entry)

theorem markers_parts (slots : List Slot) :
    (slots.map Slot.part).flatMap Part.markers = markersAll 0 (entries slots) := by
  induction slots with
  | nil => rfl
  | cons s rest ih =>
      match s with
      | .logged (.node x callees) =>
          rw [List.map_cons, List.flatMap_cons, ih]
          rfl
      | .unlogged instruction => exact ih

/-- Whether lines and reported calls are those of a transaction: the log is that of the runtime, and
the calls of each instruction are reported in order, under the place of the instruction. What is not
logged is of another program than all that is. -/
structure Reports (slots : List Slot) (inner : List InnerInstruction) (lines : List Text) :
    Prop where
  log : lines.filter (fun line => !isSilent line) = logAll 0 (entries slots)
  endings : ∀ e ∈ preorderAll (entries slots), e.ending.IsLoggable
  depths : (Decimal.ofNat (heightAll (entries slots))).length ≤ Decimal.maxDigits
  calls : ∀ item ∈ slots.zipIdx, (callsOf inner item.2).map (·.instruction) = item.1.calls
  parents : ∀ call ∈ inner, ¬ call.IsOrphan slots.length
  unlogged : ∀ instruction, .unlogged instruction ∈ slots → ∀ t, .logged t ∈ slots →
    instruction.program ≠ t.value.instruction.program

variable {slots : List Slot} {inner : List InnerInstruction} {lines : List Text}

theorem Reports.logs (h : Reports slots inner lines) : Logs lines (entries slots) := by
  refine ⟨h.log, ?_, h.depths⟩
  intro e he
  refine ⟨?_, h.endings e he⟩
  rw [entries, ← mapAll_eq_map, preorderAll_mapAll] at he
  obtain ⟨x, -, rfl⟩ := List.mem_map.mp he
  exact Pubkey.isWord_text x.instruction.program

/-- What the log says of an instruction makes its tree as it took place, with no call left. -/
theorem Slot.makes_part (s : Slot) {top : Nat}
    (hcalls : (callsOf inner top).map (·.instruction) = s.calls) :
    s.part.Makes inner True
      (fun b => b.pending = [] ∧ b.tree.map Invocation.unnumbered = s.tree top) top := by
  intro body hbody w others line hfresh
  match s with
  | .unlogged instruction => cases hbody
  | .logged (.node x callees) =>
      obtain rfl := Option.some.inj hbody
      obtain ⟨⟨id, hbranches⟩, hopen⟩ := hfresh
      have hroot : w.Inside { id, instruction := x.instruction, depth := 0, top } [] []
          (callsOf inner top ++ []) others := by
        refine ⟨?_, ?_⟩
        · rw [List.append_nil]
          exact hbranches
        · rw [hopen]
          exact Nat.one_pos
      obtain ⟨us, hus, hcallees⟩ := shows_lines_markersAll inner callees hroot hcalls rfl line
      have hended : AllEnded ([] ++ us) := allEnded_of_shownAll hus
      obtain ⟨hmarked, hwaiting, hwarnings⟩ := hcallees.inside.finish rfl hended x.ending
      rw [List.map_append, List.map_singleton, Walk.lines_append]
      exact ⟨_, hmarked.branches, rfl, ⟨rfl, congrArg (Tree.node _) hus⟩,
        hwaiting.trans hcallees.waiting, fun _ => hwarnings.trans hcallees.warnings⟩

/-- Whether a branch is an instruction as it took place, with no call left. -/
def Rebuilt (slots : List Slot) (top : Nat) (b : Branch) : Prop :=
  b.pending = [] ∧ ∀ s, slots[top]? = some s → b.tree.map Invocation.unnumbered = s.tree top

theorem Reports.makes (h : Reports slots inner lines) :
    ∀ item ∈ (slots.map Slot.part).zipIdx,
      item.1.Makes inner True (Rebuilt slots item.2) item.2 := by
  intro item hitem
  rw [List.zipIdx_map] at hitem
  obtain ⟨⟨s, top⟩, hs, rfl⟩ := List.mem_map.mp hitem
  apply (s.makes_part (h.calls _ hs)).mono
  rintro b ⟨hpending, htree⟩
  refine ⟨hpending, ?_⟩
  intro s' hs'
  have hsame : slots[top]? = some s := List.mem_zipIdx_iff_getElem?.mp hs
  obtain rfl := Option.some.inj (hsame.symm.trans hs')
  exact htree

theorem Reports.apart (h : Reports slots inner lines) :
    (slots.map Slot.part).Pairwise Part.Apart := by
  apply List.pairwise_of_forall_mem_list
  intro p hp p' hp' hnone hsome
  obtain ⟨s, hs, rfl⟩ := List.mem_map.mp hp
  obtain ⟨s', hs', rfl⟩ := List.mem_map.mp hp'
  -- only an instruction that is not logged has no body, and only a logged one has one
  match s, s' with
  | .unlogged instruction, .logged (.node x callees) => exact h.unlogged instruction hs _ hs'
  | .logged (.node _ _), _ => cases hnone
  | .unlogged _, .unlogged _ => cases hsome

/-- The forest that a walk of the starts and ends builds. -/
def builtFrom (slots : List Slot) (inner : List InnerInstruction) : Forest Invocation :=
  buildForest (slots.map Slot.instruction) inner ((markersAll 0 (entries slots)).map some)

theorem builtFrom_eq (slots : List Slot) (inner : List InnerInstruction) :
    builtFrom slots inner = buildForest ((slots.map Slot.part).map (·.instruction)) inner
      (((slots.map Slot.part).flatMap Part.markers).map some) := by
  rw [builtFrom, markers_parts, List.map_map]
  congr 1
  exact (List.map_congr_left fun s _ => s.instruction_part).symm

theorem Reports.callsOf_unlogged (h : Reports slots inner lines) {top : Nat}
    {instruction : Instruction} (hs : slots[top]? = some (.unlogged instruction)) :
    callsOf inner top = [] := by
  have hcalls := h.calls (.unlogged instruction, top) (List.mem_zipIdx_iff_getElem?.mpr hs)
  exact List.map_eq_nil_iff.mp hcalls

theorem Reports.tree_getElem? (h : Reports slots inner lines) {i : Nat} {tree : Tree Invocation}
    (htree : (builtFrom slots inner).trees[i]? = some tree) :
    ∃ s, slots[i]? = some s ∧ tree.map Invocation.unnumbered = s.tree i := by
  rw [builtFrom_eq] at htree
  obtain ⟨p, nextId, hp, hgrown⟩ := exists_tree_of_parts h.apart h.makes htree
  rw [List.getElem?_map] at hp
  obtain ⟨s, hs, rfl⟩ := Option.map_eq_some_iff.mp hp
  refine ⟨s, hs, ?_⟩
  match s with
  | .logged (.node x callees) =>
      obtain ⟨b, ⟨hpending, hrebuilt⟩, rfl⟩ := hgrown
      rw [hpending, Completion.placeCalls]
      exact hrebuilt _ hs
  | .unlogged instruction =>
      obtain rfl := hgrown
      rw [h.callsOf_unlogged hs]
      rfl

/-- The trees are the executions in their places. -/
theorem Reports.trees (h : Reports slots inner lines) :
    mapAll Invocation.unnumbered (builtFrom slots inner).trees =
      slots.zipIdx.map fun item => item.1.tree item.2 := by
  rw [mapAll_eq_map]
  apply List.ext_getElem?
  intro i
  rw [List.getElem?_map, List.getElem?_map, List.getElem?_zipIdx]
  cases htree : (builtFrom slots inner).trees[i]? with
  | none =>
      rw [List.getElem?_eq_none_iff, builtFrom, length_trees_buildForest, List.length_map]
        at htree
      rw [List.getElem?_eq_none_iff.mpr htree]
      rfl
  | some tree =>
      obtain ⟨s, hs, hshown⟩ := h.tree_getElem? htree
      rw [hs, Option.map_some, Option.map_some, Option.map_some, hshown, Nat.zero_add]

/-- What is odd about a transaction: the instructions that are not logged, where any is. -/
def notes (slots : List Slot) : List Warning :=
  if slots.any (·.execution?.isSome) then
    slots.zipIdx.flatMap fun item => item.1.notes item.2
  else []

theorem missingParents_eq_nil {count : Nat} (h : ∀ call ∈ inner, ¬ call.IsOrphan count) :
    missingParents count inner = [] := by
  rw [List.eq_nil_iff_forall_not_mem]
  intro p hp
  obtain ⟨horphan, call, hcall, rfl⟩ := mem_missingParents.mp hp
  exact h call hcall horphan

theorem Reports.warnings (h : Reports slots inner lines) :
    (builtFrom slots inner).warnings = notes slots := by
  obtain ⟨w, hwalk, hshown, hquiet, hsaw⟩ := walkLog_parts h.apart h.makes
  have hany : w.sawInvoke = slots.any (·.execution?.isSome) := by
    rw [hsaw, List.any_map]
    congr 1
    funext s
    exact s.isSome_body_part
  have hnotes : ∀ item ∈ slots.zipIdx, Completion.notesOn w item.2 =
      if slots.any (·.execution?.isSome) then item.1.notes item.2 else [] := by
    rintro ⟨s, top⟩ hs
    have hpart := hshown (s.part, top) (by
      rw [List.zipIdx_map]
      exact List.mem_map_of_mem (f := Prod.map Slot.part id) hs)
    match s with
    | .logged (.node x callees) =>
        obtain ⟨b, hfind, hpending, -⟩ := hpart
        rw [Completion.notesOn, hfind]
        dsimp only
        rw [hpending, List.isEmpty_nil, Bool.not_true, Bool.and_false]
        simp [Slot.notes]
    | .unlogged instruction =>
        have hfind : w.branches.find? (·.top = top) = none := hpart
        rw [Completion.notesOn, hfind, hany]
        rfl
  have hzip : ((slots.map Slot.part).map (·.instruction)).zipIdx.flatMap
      (fun item => Completion.notesOn w item.2) =
      slots.zipIdx.flatMap fun item => Completion.notesOn w item.2 := by
    rw [List.map_map, List.zipIdx_map, List.flatMap_map]
    rfl
  have hparents : missingParents ((slots.map Slot.part).map (·.instruction)).length inner = [] := by
    apply missingParents_eq_nil
    rw [List.length_map, List.length_map]
    exact h.parents
  -- neither the walk nor an orphan gives a warning, so what is left are the notes
  rw [builtFrom_eq, warnings_buildForest, ← hwalk, hquiet trivial, hzip, hparents, List.map_nil,
    List.append_nil, List.nil_append, notes, List.flatMap_congr hnotes]
  split
  · rfl
  · exact List.flatMap_eq_nil_iff.mpr fun _ _ => rfl

theorem Reports.line_of_mem_warnings (h : Reports slots inner lines) {x : Warning}
    (hx : x ∈ (builtFrom slots inner).warnings) : x.line = none := by
  rw [h.warnings, notes] at hx
  split at hx
  · obtain ⟨⟨s, top⟩, -, hx⟩ := List.mem_flatMap.mp hx
    match s with
    | .logged _ => cases hx
    | .unlogged _ =>
        obtain rfl := List.mem_singleton.mp hx
        rfl
  · cases hx

/-- Lines of programs in between make no difference. -/
theorem Reports.decodeForest_eq (h : Reports slots inner lines) (r : Registry) :
    decodeForest r (slots.map Slot.instruction) inner (.ofLines lines) =
      (builtFrom slots inner).decode r := by
  obtain ⟨all, hall, hfilter⟩ := h.logs.exists_markers
  have hsilent : buildForest (slots.map Slot.instruction) inner all =
      buildForest (slots.map Slot.instruction) inner (all.filter (·.isSome)) := by
    apply buildForest_eq_of_filter
    rw [hfilter]
    intro x hx
    exact h.line_of_mem_warnings hx
  rw [decodeForest_of_forall hall, hsilent, hfilter]
  rfl

/-- No call was placed by its height. -/
theorem Reports.placedBy (h : Reports slots inner lines) {v : Invocation}
    (hv : v ∈ (builtFrom slots inner).walk) : v.placedBy = none := by
  have hmem : v.unnumbered ∈ preorderAll (slots.zipIdx.map fun item => item.1.tree item.2) := by
    rw [← h.trees, preorderAll_mapAll]
    exact List.mem_map_of_mem hv
  rw [preorderAll_eq_flatMap] at hmem
  obtain ⟨tree, htree, hmem⟩ := List.mem_flatMap.mp hmem
  obtain ⟨⟨s, top⟩, -, rfl⟩ := List.mem_map.mp htree
  match s with
  | .logged t => exact (of_mem_shown hmem).2
  | .unlogged instruction =>
      have hself : v.unnumbered.placedBy = none := by
        rw [List.mem_singleton.mp hmem]
      exact hself

theorem Reports.exists_decode_iff (h : Reports slots inner lines) (r : Registry) :
    (∃ f, (builtFrom slots inner).decode r = .ok f) ↔
      (∀ s ∈ slots, r.Answers s.instruction) ∧ ∀ call ∈ inner, r.Answers call.instruction := by
  have hwritable : ∀ x ∈ (builtFrom slots inner).warnings, x.anomaly.isWritable := by
    rw [builtFrom, forall_isWritable_iff, List.length_map]
    intro call hcall horphan
    exact absurd horphan (h.parents call hcall)
  have hdecode : (∀ v ∈ (builtFrom slots inner).walk, ∃ outcome, v.decode r = .ok outcome) ↔
      ∀ v ∈ (builtFrom slots inner).walk, r.Answers v.instruction := by
    apply forall₂_congr
    intro v hv
    apply Invocation.exists_decode_iff
    rw [h.placedBy hv]
    rfl
  rw [Forest.exists_decode_iff, hdecode, builtFrom, forall_walk_answers_iff, List.length_map,
    List.forall_mem_map]
  constructor
  · rintro ⟨⟨hslots, hcalls⟩, -⟩
    exact ⟨hslots, fun call hcall => hcalls call hcall (h.parents call hcall)⟩
  · rintro ⟨hslots, hcalls⟩
    exact ⟨⟨hslots, fun call hcall _ => hcalls call hcall⟩, hwritable⟩

/-- From the log of the runtime and the reported calls comes just the forest that took place, with
each invocation in its place, at its depth and with its own ending, whatever lines of programs stand
in between and whatever heights are reported. An instruction that is not logged is alone in its
tree, and this is all that is noted. -/
theorem decodeForest_reconstructs (r : Registry) {slots : List Slot}
    {inner : List InnerInstruction} {lines : List Text} (h : Reports slots inner lines) :
    ((∃ f, decodeForest r (slots.map Slot.instruction) inner (.ofLines lines) = .ok f) ↔
      (∀ s ∈ slots, r.Answers s.instruction) ∧ ∀ call ∈ inner, r.Answers call.instruction) ∧
    ∀ f, decodeForest r (slots.map Slot.instruction) inner (.ofLines lines) = .ok f →
      mapAll (fun n => (n.path, n.invocation.unnumbered)) f.trees =
        numberedFrom [] 1 (slots.zipIdx.map fun item => item.1.tree item.2) ∧
      f.warnings = notes slots := by
  rw [h.decodeForest_eq r]
  refine ⟨h.exists_decode_iff r, ?_⟩
  intro f hf
  refine ⟨?_, ?_⟩
  · rw [Forest.mapAll_path_of_decode hf, h.trees]
  · rw [(Forest.decode_eq_ok_iff.mp hf).2.2.1, h.warnings]

/-- A program that calls itself and then fails, behind an instruction that is not logged. -/
theorem decodeForest_reconstructs_self_call :
    ∃ f, decodeForest {}
        [⟨⟨List.replicate 32 1, rfl⟩, [], []⟩, ⟨Pubkey.zero, [], []⟩]
        [⟨1, ⟨Pubkey.zero, [7], []⟩, .unreported⟩]
        (.ofLines ["Program 11111111111111111111111111111111 invoke [1]",
          "Program log: hello",
          "Program 11111111111111111111111111111111 invoke [2]",
          "Program 11111111111111111111111111111111 success",
          "Program 11111111111111111111111111111111 failed: out of funds"]) = .ok f ∧
      mapAll (fun n => (n.path, n.invocation.unnumbered)) f.trees =
        [.leaf ([1], ⟨0, ⟨⟨List.replicate 32 1, rfl⟩, [], []⟩, 0, 0, none, none⟩),
          .node ([2], ⟨0, ⟨Pubkey.zero, [], []⟩, 0, 1, none, some (.failed "out of funds")⟩)
            [.leaf ([2, 1], ⟨0, ⟨Pubkey.zero, [7], []⟩, 1, 1, none, some .success⟩)]] ∧
      f.warnings = [⟨.notLogged 0, none⟩] := by
  have hreports : Reports [.unlogged ⟨⟨List.replicate 32 1, rfl⟩, [], []⟩,
      .logged (.node ⟨⟨Pubkey.zero, [], []⟩, .failed "out of funds"⟩
        [.leaf ⟨⟨Pubkey.zero, [7], []⟩, .success⟩])]
      [⟨1, ⟨Pubkey.zero, [7], []⟩, .unreported⟩]
      ["Program 11111111111111111111111111111111 invoke [1]",
        "Program log: hello",
        "Program 11111111111111111111111111111111 invoke [2]",
        "Program 11111111111111111111111111111111 success",
        "Program 11111111111111111111111111111111 failed: out of funds"] := by
    refine ⟨by decide +kernel, ?_, by decide +kernel, ?_, ?_, ?_⟩
    · intro e he
      rcases List.mem_cons.mp he with rfl | he
      · exact ⟨by decide, by decide, by decide⟩
      · obtain rfl := List.mem_singleton.mp he
        exact trivial
    · intro item hitem
      rcases List.mem_cons.mp hitem with rfl | hitem
      · rfl
      · obtain rfl := List.mem_singleton.mp hitem
        rfl
    · intro call hcall
      obtain rfl := List.mem_singleton.mp hcall
      simp [InnerInstruction.IsOrphan]
    · intro instruction hunlogged t hlogged
      obtain rfl : instruction = ⟨⟨List.replicate 32 1, rfl⟩, [], []⟩ := by simpa using hunlogged
      obtain rfl : t = .node ⟨⟨Pubkey.zero, [], []⟩, .failed "out of funds"⟩
        [.leaf ⟨⟨Pubkey.zero, [7], []⟩, .success⟩] := by simpa using hlogged
      decide
  obtain ⟨hexists, hforest⟩ := decodeForest_reconstructs {} hreports
  obtain ⟨f, hf⟩ := hexists.mpr
    ⟨fun s _ => Registry.answers_empty s.instruction, fun call _ => Registry.answers_empty _⟩
  exact ⟨f, hf, hforest f hf⟩

end Runtime

end SolanaTx
