import SolanaTx.Proofs.Invocation.Conservation
import SolanaTx.Proofs.Invocation.Runtime
import SolanaTx.Proofs.Invocation.TopLevel

/-!
# Endings under incomplete lists of calls

A start without a reported call makes no invocation, but the end that belongs to it is
taken all the same, by an invocation further out. So the root of a tree does not end
with its own line when calls are missing: after `k` reported calls it takes the
ending that comes as number `k`, counted from zero, and the later ones are lost.
-/

namespace SolanaTx

open SolanaTx.Tree

namespace Runtime

mutual

/-- The endings that a log states, in its order: of each invocation after those of its callees. -/
def endings : Tree Entry → List Ending
  | .node e callees => endingsAll callees ++ [e.ending]

def endingsAll : List (Tree Entry) → List Ending
  | [] => []
  | t :: ts => endings t ++ endingsAll ts

end

mutual

theorem length_endings (t : Tree Entry) : (endings t).length = t.preorder.length := by
  obtain ⟨e, callees⟩ := t
  rw [endings, preorder, List.length_append, List.length_singleton, List.length_cons,
    length_endingsAll callees]

theorem length_endingsAll (ts : List (Tree Entry)) :
    (endingsAll ts).length = (preorderAll ts).length := by
  cases ts with
  | nil => rfl
  | cons t rest =>
      rw [endingsAll, preorderAll, List.length_append, List.length_append, length_endings t,
        length_endingsAll rest]

end

end Runtime

/-! ## How many invocations still run -/

/-- Whether the first `running` invocations on the last branch have not ended and all others have.
The first `count` there count as open, which is no fewer. -/
inductive Running : Nat → Nat → Tree Invocation → Prop where
  | idle {count : Nat} {t : Tree Invocation} (ht : AllEnded [t]) : Running count 0 t
  | inside {count : Nat} {v : Invocation} {cs : List (Tree Invocation)}
      {above : List (Frame Invocation)}
      (hframes : ∀ frame ∈ (v, cs) :: above, frame.1.ending = none ∧ AllEnded frame.2)
      (hcount : above.length < count) :
      Running count (above.length + 1) (plug (node v cs) above)

theorem Running.of_le {count count' running : Nat} {t : Tree Invocation}
    (h : Running count running t) (hle : running ≤ count') : Running count' running t := by
  cases h with
  | idle ht => exact .idle ht
  | inside hframes hcount => exact .inside hframes hle

theorem Running.le {count running : Nat} {t : Tree Invocation} (h : Running count running t) :
    running ≤ count := by
  cases h with
  | idle ht => exact Nat.zero_le count
  | inside hframes hcount => exact hcount

namespace Walk

variable {w : Walk} {b : Branch} {others : List Branch} {running : Nat}

/-- With no invocation running, an end is lost. -/
theorem finish_of_allEnded (hw : w.branches = b :: others) (hb : AllEnded [b.tree])
    (ending : Ending) : w.finish ending = w := by
  have hnone : b.tree.updateDeepest (Invocation.settle ending) w.openCount = none := by
    apply updateDeepest_eq_none
    intro v hv
    apply Invocation.settle_of_isSome
    apply hb
    rw [preorderAll, preorderAll, List.append_nil]
    exact hv
  rw [finish_cons ending hw, hnone]

/-- An end is taken by the deepest running invocation; by the root where that is the only one. -/
theorem running_finish (hw : w.branches = b :: others)
    (hb : Running w.openCount (running + 1) b.tree) (ending : Ending) :
    ∃ b', (w.finish ending).branches = b' :: others ∧ b'.top = b.top ∧
      b'.pending = b.pending ∧ Running (w.finish ending).openCount running b'.tree ∧
      b'.tree.value.ending = if running = 0 then some ending else b.tree.value.ending := by
  obtain ⟨tree, pending⟩ := b
  cases hb with
  | @inside v cs above hframes hcount =>
      have hself := hframes _ List.mem_cons_self
      have hinside : w.Inside v cs above pending others := ⟨hw, hcount⟩
      obtain ⟨hmarked, -, -⟩ := hinside.finish hself.1 hself.2 ending
      cases above with
      | nil =>
          refine ⟨_, hmarked.branches, rfl, rfl, ?_, rfl⟩
          exact .idle (.singleton rfl hself.2)
      | cons frame above =>
          -- the caller becomes the open end, and what has ended its last callee
          obtain ⟨caller, earlier⟩ := frame
          have hclosed := hmarked.close
          have hcaller := hframes (caller, earlier) (by simp)
          have hvalue : (plug (node caller (earlier ++ [node { v with ending := some ending } cs]))
              above).value = (plug (node caller (earlier ++ [node v cs])) above).value :=
            value_plug_node caller _ _ above
          refine ⟨_, hclosed.branches, congrArg Invocation.top hvalue, rfl, ?_, ?_⟩
          · apply Running.inside _ hclosed.depth
            rw [List.forall_mem_cons]
            refine ⟨⟨hcaller.1, hcaller.2.append (.singleton rfl hself.2)⟩, ?_⟩
            intro outer houter
            exact hframes outer (by simp [houter])
          · rw [if_neg (by simp)]
            exact congrArg Invocation.ending hvalue

/-- How far a walk is in the log of an instruction with `k` reported calls: past its own start,
`calls` starts of calls, and some ends. -/
structure Tracks (w : Walk) (b : Branch) (k calls : Nat) (ended : List Ending)
    (others : List Branch) : Prop where
  branches : w.branches = b :: others
  pending : b.pending.length = k - calls
  running : Running w.openCount (1 + min k calls - ended.length) b.tree
  root : b.tree.value.ending = ended[min k calls]?

variable {k calls : Nat} {ended : List Ending}

/-- A start adds a running invocation as long as there are reported calls. -/
theorem Tracks.invoke (h : w.Tracks b k calls ended others) {depth : Nat} (hpos : 0 < depth)
    (hdepth : depth + ended.length = calls + 1) (inner : List InnerInstruction) (logged : Text)
    (line : Nat) :
    ∃ b', (w.step inner line (some (.invoke logged (depth + 1)))).Tracks b' k (calls + 1) ended
        others ∧ b'.top = b.top ∧
      (w.step inner line (some (.invoke logged (depth + 1)))).waiting = w.waiting := by
  obtain ⟨hbranches, hpending, hrunning, hroot⟩ := h
  obtain ⟨tree, pending⟩ := b
  dsimp only at hpending hrunning hroot
  by_cases hk : calls < k
  · -- all running invocations have a place, so the call hangs under the deepest of them
    have hmin : min k calls = calls := by omega
    have hmin' : min k (calls + 1) = calls + 1 := by omega
    have hnone : ∀ i, ended.length ≤ i → ended[i]? = none :=
      fun i hi => List.getElem?_eq_none_iff.mpr hi
    obtain ⟨u, rfl⟩ : ∃ u, depth = u + 1 := ⟨depth - 1, by omega⟩
    have hu : 1 + min k calls - ended.length = u + 1 := by omega
    rw [hu] at hrunning
    cases pending with
    | nil =>
        rw [List.length_nil] at hpending
        omega
    | cons call pending =>
        rw [List.length_cons] at hpending
        cases hrunning with
        | @inside v cs above hframes hcount =>
            have hinside : w.Inside v cs above (call :: pending) others := ⟨hbranches, hcount⟩
            obtain ⟨hcalled, hwaiting, -⟩ := hinside.call inner logged line
            have hvalue := value_plug_node v (cs ++ [.leaf (w.nextCall
              (plug (node v cs) above).value.top above call)]) cs above
            refine ⟨_, ⟨hcalled.branches, ?_, ?_, ?_⟩, congrArg Invocation.top hvalue, hwaiting⟩
            · dsimp only
              omega
            · have hcount' : 1 + min k (calls + 1) - ended.length =
                  ((v, cs) :: above).length + 1 := by
                rw [List.length_cons]
                omega
              rw [hcount']
              apply Running.inside _ hcalled.depth
              rw [List.forall_mem_cons]
              exact ⟨⟨rfl, .nil⟩, hframes⟩
            · rw [hmin', hnone _ (by omega)]
              rw [hmin, hnone _ (by omega)] at hroot
              exact (congrArg Invocation.ending hvalue).trans hroot
  · -- the reported calls are used up: what counts as open shrinks, but not below what runs
    have hmin : min k calls = k := by omega
    have hmin' : min k (calls + 1) = k := by omega
    obtain rfl : pending = [] := List.eq_nil_of_length_eq_zero (by omega)
    obtain ⟨hsame, hopen, hwaiting⟩ :=
      step_invoke_exhausted hbranches inner logged (show 2 ≤ depth + 1 by omega) line
    refine ⟨⟨tree, []⟩, ⟨hsame.trans hbranches, ?_, ?_, ?_⟩, rfl, hwaiting⟩
    · rw [List.length_nil]
      omega
    · have hle := hrunning.le
      rw [hmin] at hrunning hle
      rw [hopen, hmin', Nat.add_sub_cancel]
      apply hrunning.of_le
      omega
    · rw [hmin']
      rw [hmin] at hroot
      exact hroot

/-- An end is stated for whoever still runs. -/
theorem Tracks.finish (h : w.Tracks b k calls ended others) (ending : Ending) :
    ∃ b', (w.finish ending).Tracks b' k calls (ended ++ [ending]) others ∧ b'.top = b.top ∧
      (w.finish ending).waiting = w.waiting := by
  obtain ⟨hbranches, hpending, hrunning, hroot⟩ := h
  have hlength : (ended ++ [ending]).length = ended.length + 1 := by
    rw [List.length_append, List.length_singleton]
  cases hu : 1 + min k calls - ended.length with
  | zero =>
      -- all have ended, the root with an earlier line
      rw [hu] at hrunning
      have hall : AllEnded [b.tree] := by
        cases hrunning with
        | idle ht => exact ht
      have hsame := finish_of_allEnded hbranches hall ending
      refine ⟨b, ⟨?_, hpending, ?_, ?_⟩, rfl, w.waiting_finish ending⟩
      · rw [hsame, hbranches]
      · have hzero : 1 + min k calls - (ended ++ [ending]).length = 0 := by omega
        rw [hsame, hzero]
        exact hrunning
      · rw [hroot, List.getElem?_append_left (by omega)]
  | succ running =>
      -- the root takes this line just where as many have ended as calls have a place
      rw [hu] at hrunning
      obtain ⟨b', hbranches', htop, hkept, hrunning', hroot'⟩ :=
        running_finish hbranches hrunning ending
      refine ⟨b', ⟨hbranches', ?_, ?_, ?_⟩, htop, w.waiting_finish ending⟩
      · rw [hkept, hpending]
      · have hless : 1 + min k calls - (ended ++ [ending]).length = running := by omega
        rw [hless]
        exact hrunning'
      · rw [hroot']
        split
        · next hlast =>
          have hat : min k calls = ended.length := by omega
          rw [hat, List.getElem?_concat_length]
        · next hmore =>
          rw [hroot, List.getElem?_eq_none_iff.mpr (by omega),
            List.getElem?_eq_none_iff.mpr (by omega)]

mutual

/-- The log of a call, followed to its end. -/
theorem Tracks.lines_markers (inner : List InnerInstruction) (t : Tree Runtime.Entry) {w : Walk}
    {b : Branch} {others : List Branch} {k calls : Nat} {ended : List Ending} {depth : Nat}
    (h : w.Tracks b k calls ended others) (hpos : 0 < depth)
    (hdepth : depth + ended.length = calls + 1) (line : Nat) :
    ∃ b', (w.lines inner line ((Runtime.markers depth t).map some)).Tracks b' k
        (calls + t.preorder.length) (ended ++ Runtime.endings t) others ∧ b'.top = b.top ∧
      (w.lines inner line ((Runtime.markers depth t).map some)).waiting = w.waiting := by
  obtain ⟨e, callees⟩ := t
  obtain ⟨b₁, hstarted, htop₁, hwaiting₁⟩ := h.invoke hpos hdepth inner e.program line
  obtain ⟨b₂, hcallees, htop₂, hwaiting₂⟩ :=
    Tracks.lines_markersAll inner callees hstarted (Nat.succ_pos depth) (by omega) (line + 1)
  obtain ⟨b₃, hended, htop₃, hwaiting₃⟩ := hcallees.finish e.ending
  have hcalls : calls + (node e callees).preorder.length =
      calls + 1 + (preorderAll callees).length := by
    rw [preorder, List.length_cons]
    omega
  rw [Runtime.markers, List.map_cons, List.map_append, List.map_singleton, lines, lines_append,
    hcalls, Runtime.endings, ← List.append_assoc]
  exact ⟨b₃, hended, htop₃.trans (htop₂.trans htop₁),
    hwaiting₃.trans (hwaiting₂.trans hwaiting₁)⟩

theorem Tracks.lines_markersAll (inner : List InnerInstruction) (ts : List (Tree Runtime.Entry))
    {w : Walk} {b : Branch} {others : List Branch} {k calls : Nat} {ended : List Ending}
    {depth : Nat} (h : w.Tracks b k calls ended others) (hpos : 0 < depth)
    (hdepth : depth + ended.length = calls + 1) (line : Nat) :
    ∃ b', (w.lines inner line ((Runtime.markersAll depth ts).map some)).Tracks b' k
        (calls + (preorderAll ts).length) (ended ++ Runtime.endingsAll ts) others ∧
      b'.top = b.top ∧
      (w.lines inner line ((Runtime.markersAll depth ts).map some)).waiting = w.waiting := by
  cases ts with
  | nil =>
      refine ⟨b, ?_, rfl, rfl⟩
      rw [Runtime.endingsAll, List.append_nil]
      exact h
  | cons t rest =>
      obtain ⟨b₁, hfirst, htop₁, hwaiting₁⟩ := Tracks.lines_markers inner t h hpos hdepth line
      have hbalance : depth + (ended ++ Runtime.endings t).length =
          calls + t.preorder.length + 1 := by
        rw [List.length_append, Runtime.length_endings]
        omega
      obtain ⟨b₂, hrest, htop₂, hwaiting₂⟩ :=
        Tracks.lines_markersAll inner rest hfirst hpos hbalance
          (line + ((Runtime.markers depth t).map some).length)
      rw [Runtime.markersAll, List.map_append, lines_append, preorderAll, List.length_append,
        ← Nat.add_assoc, Runtime.endingsAll, ← List.append_assoc]
      exact ⟨b₂, hrest, htop₂.trans htop₁, hwaiting₂.trans hwaiting₁⟩

end

end Walk

namespace Runtime

/-- How many calls are made under an instruction. -/
def callCount (t : Tree Entry) : Nat :=
  (preorderAll t.children).length

/-- The ending that the root of a tree takes when `reported` calls are known. -/
def takenEnding (reported : Nat) (t : Tree Entry) : Option Ending :=
  (endings t)[min reported (callCount t)]?

/-- With all calls reported the root takes the ending that its own line states. -/
theorem takenEnding_of_le {reported : Nat} {t : Tree Entry} (h : callCount t ≤ reported) :
    takenEnding reported t = some t.value.ending := by
  obtain ⟨e, callees⟩ := t
  have hlast : min reported (callCount (node e callees)) = (endingsAll callees).length := by
    rw [length_endingsAll]
    exact Nat.min_eq_right h
  rw [takenEnding, hlast, endings, List.getElem?_concat_length]
  rfl

/-- With calls missing it takes that of an invocation inside. -/
theorem takenEnding_of_lt {reported : Nat} {t : Tree Entry} (h : reported < callCount t) :
    takenEnding reported t = (endings t)[reported]? := by
  rw [takenEnding, Nat.min_eq_left (Nat.le_of_lt h)]

/-- An instruction with what the log says after its start. -/
def part (instruction : Instruction) (t : Tree Entry) : Part :=
  ⟨instruction, some (markersAll 1 t.children ++ [.ended t.value.ending])⟩

variable {inner : List InnerInstruction}

theorem makes_part (instruction : Instruction) (t : Tree Entry) (top : Nat) :
    (part instruction t).Makes inner False
      (fun b => b.tree.value.ending = takenEnding (callsOf inner top).length t) top := by
  intro body hbody w others line hfresh
  obtain ⟨e, callees⟩ := t
  obtain rfl := Option.some.inj hbody
  obtain ⟨⟨id, hbranches⟩, hopen⟩ := hfresh
  have hstart : w.Tracks ⟨.leaf { id, instruction, depth := 0, top }, callsOf inner top⟩
      (callsOf inner top).length 0 [] others := by
    refine ⟨hbranches, rfl, ?_, rfl⟩
    have hroot : ∀ frame ∈ [((⟨id, instruction, 0, top, none, none⟩ : Invocation),
        ([] : List (Tree Invocation)))], frame.1.ending = none ∧ AllEnded frame.2 := by
      rw [List.forall_mem_singleton]
      exact ⟨rfl, .nil⟩
    rw [hopen, Nat.min_zero]
    exact Running.inside hroot Nat.one_pos
  obtain ⟨b, hcallees, htop, hwaiting⟩ :=
    hstart.lines_markersAll inner callees Nat.one_pos rfl line
  obtain ⟨b', hended, htop', hwaiting'⟩ := hcallees.finish e.ending
  have hroot := hended.root
  rw [Nat.zero_add, List.nil_append] at hroot
  rw [List.map_append, List.map_singleton, Walk.lines_append]
  exact ⟨b', hended.branches, htop'.trans htop, hroot, hwaiting'.trans hwaiting, False.elim⟩

theorem map_instruction_parts {instructions : List Instruction} {trees : List (Tree Entry)}
    (h : List.Forall₂ (fun i t => i.program.text = t.value.program) instructions trees) :
    (List.zipWith part instructions trees).map (·.instruction) = instructions := by
  induction h with
  | nil => rfl
  | cons _ _ ih => rw [List.zipWith_cons_cons, List.map_cons, ih, part]

theorem markers_zipWith_part {instructions : List Instruction} {trees : List (Tree Entry)}
    (h : List.Forall₂ (fun i t => i.program.text = t.value.program) instructions trees) :
    (List.zipWith part instructions trees).flatMap Part.markers = markersAll 0 trees := by
  induction h with
  | nil => rfl
  | @cons i t _ _ hprogram _ ih =>
      obtain ⟨e, callees⟩ := t
      have hname : i.program.text = e.program := hprogram
      rw [List.zipWith_cons_cons, List.flatMap_cons, ih, markersAll, markers, Part.markers, part]
      dsimp only
      rw [hname]
      rfl

variable {instructions : List Instruction} {lines : List Text} {trees : List (Tree Entry)}
  {r : Registry} {f : Forest Node}

/-- Whether the root of a branch has the ending that the number of reported calls gives it. -/
def TakesEnding (inner : List InnerInstruction) (trees : List (Tree Entry)) (top : Nat)
    (b : Branch) : Prop :=
  ∀ t, trees[top]? = some t → b.tree.value.ending = takenEnding (callsOf inner top).length t

/-- The root of a tree takes the ending that the number of reported calls gives it. -/
theorem ending_root_buildForest
    (h : List.Forall₂ (fun i t => i.program.text = t.value.program) instructions trees) {i : Nat}
    {t : Tree Entry} (ht : trees[i]? = some t) {root : Tree Invocation}
    (hroot : (buildForest instructions inner ((markersAll 0 trees).map some)).trees[i]? =
      some root) :
    root.value.ending = takenEnding (callsOf inner i).length t := by
  rw [← markers_zipWith_part h] at hroot
  nth_rewrite 1 [← map_instruction_parts h] at hroot
  have hmakes : ∀ item ∈ (List.zipWith part instructions trees).zipIdx,
      item.1.Makes inner False (TakesEnding inner trees item.2) item.2 := by
    rintro ⟨p, j⟩ hitem
    obtain ⟨i', t', -, ht', rfl⟩ :=
      List.getElem?_zipWith_eq_some.mp (List.mem_zipIdx_iff_getElem?.mp hitem)
    apply (makes_part i' t' j).mono
    intro b hb t'' ht''
    obtain rfl := Option.some.inj (ht'.symm.trans ht'')
    exact hb
  have hapart : (List.zipWith part instructions trees).Pairwise Part.Apart := by
    apply List.pairwise_of_forall_mem_list
    intro p hp p' _ hnone
    obtain ⟨j, hj⟩ := List.mem_iff_getElem?.mp hp
    obtain ⟨i', t', -, -, rfl⟩ := List.getElem?_zipWith_eq_some.mp hj
    cases hnone
  obtain ⟨p, nextId, hp, hgrown⟩ := exists_tree_of_parts hapart hmakes hroot
  obtain ⟨i', t', -, -, rfl⟩ := List.getElem?_zipWith_eq_some.mp hp
  obtain ⟨b, hb, rfl⟩ := hgrown
  rw [Completion.value_placeCalls]
  exact hb t ht

theorem forall₂_of_map_eq
    (h : instructions.map (·.program.text) = trees.map (·.value.program)) :
    List.Forall₂ (fun i t => i.program.text = t.value.program) instructions trees := by
  rw [← List.forall₂_eq_eq_eq, List.forall₂_map_left_iff, List.forall₂_map_right_iff] at h
  exact h

theorem Logs.decodeForest_eq (h : Logs lines trees) (r : Registry)
    (instructions : List Instruction) (inner : List InnerInstruction) :
    ∃ all, decodeForest r instructions inner (.ofLines lines) =
        (buildForest instructions inner all).decode r ∧
      (buildForest instructions inner all).trees =
        (buildForest instructions inner ((markersAll 0 trees).map some)).trees := by
  obtain ⟨all, hall, hfilter⟩ := h.exists_markers
  refine ⟨all, decodeForest_of_forall hall, ?_⟩
  rw [trees_buildForest_filter_isSome, hfilter]

theorem Logs.ending_root (h : Logs lines trees)
    (hprograms : instructions.map (·.program.text) = trees.map (·.value.program))
    (hf : decodeForest r instructions inner (.ofLines lines) = .ok f) {i : Nat} {t : Tree Entry}
    (ht : trees[i]? = some t) {root : Tree Node} (hroot : f.trees[i]? = some root) :
    root.value.invocation.ending = takenEnding (callsOf inner i).length t := by
  obtain ⟨all, hdecode, htrees⟩ := h.decodeForest_eq r instructions inner
  rw [hdecode] at hf
  have hnodes := Forest.mapAll_invocation_of_decode hf
  rw [htrees, mapAll_eq_map] at hnodes
  have hbuilt : (buildForest instructions inner ((markersAll 0 trees).map some)).trees[i]? =
      some (root.map Node.invocation) := by
    rw [← hnodes, List.getElem?_map, hroot, Option.map_some]
  rw [← ending_root_buildForest (forall₂_of_map_eq hprograms) ht hbuilt, value_map]

/-- Whatever calls are reported, the root of each tree takes the ending that the log states as
number `k`, counted from zero, where `k` calls of it are reported, or the ending of its own line
where that comes before. So it ends as its own line states just where no call is missing or the
other line states the same. -/
theorem ending_of_runtime_log (r : Registry) (instructions : List Instruction)
    (inner : List InnerInstruction) {lines : List Text} {trees : List (Tree Entry)}
    (h : Logs lines trees)
    (hprograms : instructions.map (·.program.text) = trees.map (·.value.program)) :
    ((∀ call ∈ inner, call.height.isUsable) →
      ((∃ f, decodeForest r instructions inner (.ofLines lines) = .ok f) ↔
        (∀ instruction ∈ instructions, r.Answers instruction) ∧
        (∀ call ∈ inner, ¬ call.IsOrphan instructions.length → r.Answers call.instruction) ∧
        ∀ call ∈ inner, call.IsOrphan instructions.length →
          Decimal.isWritable (call.parent + 1))) ∧
    ∀ f, decodeForest r instructions inner (.ofLines lines) = .ok f →
      f.trees.length = trees.length ∧
      ∀ (i : Nat) (t : Tree Entry) (root : Tree Node), trees[i]? = some t →
        f.trees[i]? = some root →
          root.value.invocation.ending = takenEnding (callsOf inner i).length t ∧
          (root.value.invocation.ending = some t.value.ending ↔
            callCount t ≤ (callsOf inner i).length ∨
              (endings t)[(callsOf inner i).length]? = some t.value.ending) := by
  refine ⟨?_, ?_⟩
  · intro hheights
    obtain ⟨all, hdecode, -⟩ := h.decodeForest_eq r instructions inner
    rw [hdecode, Forest.exists_decode_iff, forall_walk_decode_iff hheights, forall_isWritable_iff,
      and_assoc]
  · intro f hf
    -- the lists of a forest count its trees, one for each instruction
    refine ⟨?_, ?_⟩
    · have hlength := congrArg List.length (preorder_tree_of_decodeForest hf)
      have hcount := congrArg List.length hprograms
      rw [List.length_map, List.length_map, List.length_zipIdx] at hlength
      rw [List.length_map, List.length_map] at hcount
      rw [hlength, hcount]
    · intro i t root ht hroot
      have hending := h.ending_root hprograms hf ht hroot
      refine ⟨hending, ?_⟩
      rw [hending]
      by_cases hall : callCount t ≤ (callsOf inner i).length
      · rw [takenEnding_of_le hall]
        exact iff_of_true rfl (Or.inl hall)
      · rw [takenEnding_of_lt (Nat.lt_of_not_le hall)]
        exact ⟨Or.inr, fun hor => hor.resolve_left hall⟩

theorem logs_self_call :
    Logs ["Program 11111111111111111111111111111111 invoke [1]",
        "Program 11111111111111111111111111111111 invoke [2]",
        "Program 11111111111111111111111111111111 success",
        "Program 11111111111111111111111111111111 failed: out of funds"]
      [.node ⟨Pubkey.zero.text, .failed "out of funds"⟩ [.leaf ⟨Pubkey.zero.text, .success⟩]] := by
  refine ⟨by decide +kernel, ?_, by decide +kernel⟩
  intro e he
  rcases List.mem_cons.mp he with rfl | he
  · exact ⟨Pubkey.isWord_text _, by decide, by decide, by decide⟩
  · obtain rfl := List.mem_singleton.mp he
    exact ⟨Pubkey.isWord_text _, trivial⟩

/-- With its call reported, an instruction that calls its own program and then fails is shown to
have failed. -/
theorem ending_with_reported_call :
    ∃ f root, decodeForest {} [⟨Pubkey.zero, [], []⟩] [⟨0, ⟨Pubkey.zero, [7], []⟩, .unreported⟩]
        (.ofLines ["Program 11111111111111111111111111111111 invoke [1]",
          "Program 11111111111111111111111111111111 invoke [2]",
          "Program 11111111111111111111111111111111 success",
          "Program 11111111111111111111111111111111 failed: out of funds"]) = .ok f ∧
      f.trees = [root] ∧ root.value.invocation.ending = some (.failed "out of funds") := by
  obtain ⟨hexists, hforest⟩ := ending_of_runtime_log {} [⟨Pubkey.zero, [], []⟩]
    [⟨0, ⟨Pubkey.zero, [7], []⟩, .unreported⟩] logs_self_call rfl
  have hparent : ∀ call ∈ [(⟨0, ⟨Pubkey.zero, [7], []⟩, .unreported⟩ : InnerInstruction)],
      call.IsOrphan 1 → Decimal.isWritable (call.parent + 1) := by
    intro call hcall horphan
    obtain rfl := List.mem_singleton.mp hcall
    simp [InnerInstruction.IsOrphan] at horphan
  obtain ⟨f, hf⟩ := (hexists (by decide)).mpr
    ⟨fun _ _ => Registry.answers_empty _, fun _ _ _ => Registry.answers_empty _, hparent⟩
  obtain ⟨hlength, hroots⟩ := hforest f hf
  obtain ⟨root, htrees⟩ := List.length_eq_one_iff.mp hlength
  refine ⟨f, root, hf, htrees, ?_⟩
  have hroot : f.trees[0]? = some root := by
    rw [htrees]
    rfl
  exact (hroots 0 _ root rfl hroot).1

/-- With its call missing, the same instruction is shown to have succeeded: it takes the end of the
call, and its own is lost. -/
theorem ending_with_missing_call :
    Logs ["Program 11111111111111111111111111111111 invoke [1]",
        "Program 11111111111111111111111111111111 invoke [2]",
        "Program 11111111111111111111111111111111 success",
        "Program 11111111111111111111111111111111 failed: out of funds"]
      [.node ⟨Pubkey.zero.text, .failed "out of funds"⟩ [.leaf ⟨Pubkey.zero.text, .success⟩]] ∧
    ∃ f root, decodeForest {} [⟨Pubkey.zero, [], []⟩] []
        (.ofLines ["Program 11111111111111111111111111111111 invoke [1]",
          "Program 11111111111111111111111111111111 invoke [2]",
          "Program 11111111111111111111111111111111 success",
          "Program 11111111111111111111111111111111 failed: out of funds"]) = .ok f ∧
      f.trees = [root] ∧ root.value.invocation.ending = some .success ∧
      root.value.hasFailed = false := by
  obtain ⟨all, hdecode, -⟩ := logs_self_call.decodeForest_eq {} [⟨Pubkey.zero, [], []⟩] []
  obtain ⟨f, hf⟩ := exists_decode_without_calls
    (fun instruction _ => Registry.answers_empty instruction) all
  rw [← hdecode] at hf
  have hlength := congrArg List.length (preorder_tree_of_decodeForest hf)
  rw [List.length_map, List.length_map] at hlength
  obtain ⟨root, htrees⟩ := List.length_eq_one_iff.mp hlength
  have hroot : f.trees[0]? = some root := by
    rw [htrees]
    rfl
  have hending := logs_self_call.ending_root rfl hf rfl hroot
  refine ⟨logs_self_call, f, root, hf, htrees, hending, ?_⟩
  rw [Node.hasFailed, hending]
  rfl

end Runtime

end SolanaTx
