import SolanaTx.Proofs.Invocation.Depth
import SolanaTx.Proofs.Report.Drawing
import SolanaTx.Proofs.Transaction.Decoding
import SolanaTx.Proofs.Tree.Linked

/-!
# Views of a transaction

The walk over the nodes of a transaction, its summary and the drawn forest of its report list
the same nodes in the same order. A summary and a report can be had up to some height of the
trees only, a report moreover of numbers that can be written, and the walk of any forest.
-/

namespace SolanaTx

open Fallible

/-! ## The walk -/

namespace Tree

variable {α : Type}

/-- The values met by a walk that keeps the trees it has still to visit: it takes the first of them
and puts the children of its root in front of the others. -/
def visit : List (Tree α) → List α
  | [] => []
  | .node v cs :: rest => v :: visit (cs ++ rest)
termination_by ts => (preorderAll ts).length
decreasing_by simp [preorderAll, preorder]

/-- Such a walk meets each value before those below it. -/
theorem visit_eq_preorderAll (ts : List (Tree α)) : visit ts = preorderAll ts := by
  fun_induction visit ts with
  | case1 => rfl
  | case2 v cs rest ih => rw [ih, preorderAll_append, preorderAll, preorder, List.cons_append]

end Tree

/-! ## The summary -/

namespace Json

mutual

/-- An entry of a summary and the entries below it, each before those of its calls. -/
def entries : Json → List Json
  | .object fields => .object fields :: entriesOfFields fields
  | _ => []

/-- The entries of the calls that fields list. -/
def entriesOfFields : Fields → List Json
  | [] => []
  | (key, .list calls) :: rest =>
      if key = "inner_instructions" then entriesOfAll calls else entriesOfFields rest
  | _ :: rest => entriesOfFields rest

def entriesOfAll : List Json → List Json
  | [] => []
  | entry :: rest => entry.entries ++ entriesOfAll rest

end

end Json

namespace DecodedTransaction

/-- Whether an entry of a summary says what there is to say of the node at the root of a tree. -/
structure Summarizes (entry : Json) (t : Tree Node) : Prop where
  program : entry.get? "program_id" = some (.text t.value.instruction.program.text)
  label : entry.get? "program_name" = some (.text t.value.label)
  accounts : entry.get? "accounts" = some (.list (t.value.instruction.accounts.map fun a =>
    .object [("pubkey", .text a.pubkey.text), ("is_signer", .bool a.isSigner),
      ("is_writable", .bool a.isWritable)]))
  /-- What was not decoded has no name. -/
  name : entry.get? "instruction_name" = t.value.decoded?.map fun d => .text d.name
  /-- What was not decoded has no fields. -/
  fields : entry.get? "decoded_fields" = t.value.decoded?.map fun d => .list (d.fields.map fun f =>
    .object [("name", f.name), ("value", .text f.value)])
  calls : (entry.get? "inner_instructions").isSome ↔ t.children ≠ []

theorem summarizes_nodeSummary (t : Tree Node) : Summarizes (nodeSummary t) t := by
  obtain ⟨n, calls⟩ := t
  refine ⟨rfl, rfl, ?_, ?_, ?_, ?_⟩
  · rw [nodeSummary]
    cases n.decoded? <;> rfl
  · rw [nodeSummary, Tree.value]
    cases n.decoded? <;> cases calls <;> rfl
  · rw [nodeSummary, Tree.value]
    cases n.decoded? <;> cases calls <;> rfl
  · rw [nodeSummary, Tree.children]
    cases calls with
    | nil => cases n.decoded? <;> exact iff_of_false Bool.false_ne_true (not_not_intro rfl)
    | cons t rest => cases n.decoded? <;> exact iff_of_true rfl (List.cons_ne_nil t rest)

mutual

theorem entries_nodeSummary (t : Tree Node) :
    (nodeSummary t).entries = t.subtrees.map nodeSummary := by
  obtain ⟨n, calls⟩ := t
  have hcalls := entriesOfAll_nodeSummaries calls
  rw [Tree.subtrees, List.map_cons, ← hcalls, nodeSummary]
  -- none of the fields in front of the calls lists entries
  cases n.decoded? <;> cases calls <;> rfl

theorem entriesOfAll_nodeSummaries (ts : List (Tree Node)) :
    Json.entriesOfAll (nodeSummaries ts) = (Tree.subtreesAll ts).map nodeSummary := by
  cases ts with
  | nil => rfl
  | cons t rest =>
      rw [nodeSummaries, Json.entriesOfAll, Tree.subtreesAll, List.map_append,
        entries_nodeSummary t, entriesOfAll_nodeSummaries rest]

end

theorem summary_eq_ok_iff {log : DecodedTransaction} {doc : Json} :
    log.summary = .ok doc ↔ Tree.heightAll log.forest.trees ≤ maxSummaryHeight ∧
      doc = .object [("signature", log.source.signature), ("status", .text log.source.status.text),
        ("fee", .int log.source.fee), ("compute_used", .int log.source.computeUsed),
        ("instructions", .list (nodeSummaries log.forest.trees))] := by
  rw [summary]
  split
  · next htall => simp [Nat.not_le.mpr htall]
  · next hheight => simp [Nat.not_lt.mp hheight, eq_comm]

/-- Whether the entries of a summary are those of some trees, one for each of their nodes. -/
def IsListing (doc : Json) (trees : List (Tree Node)) : Prop :=
  ∃ instructions, doc.get? "instructions" = some (.list instructions) ∧
    List.Forall₂ Summarizes (Json.entriesOfAll instructions) trees

theorem isListing_of_summary {log : DecodedTransaction} {doc : Json} (h : log.summary = .ok doc) :
    IsListing doc log.forest.subtrees := by
  obtain ⟨-, rfl⟩ := summary_eq_ok_iff.mp h
  refine ⟨_, rfl, ?_⟩
  rw [entriesOfAll_nodeSummaries, List.forall₂_map_left_iff]
  exact List.forall₂_same.mpr fun t _ => summarizes_nodeSummary t

theorem summary_of_lt {log : DecodedTransaction}
    (h : maxSummaryHeight < Tree.heightAll log.forest.trees) : log.summary = .error .endless :=
  if_pos h

/-- Whether the forest in the sections of a report is drawn node by node. Of each node there is a
block of lines, and there are no lines between blocks but empty ones. -/
def IsDrawing (body : Option (Node → Except Fault (List Text))) (parts : List (List Text))
    (nodes : List Node) : Prop :=
  ∃ head count lines rest blocks, parts = head :: (count :: lines) :: rest ∧
    (lines.filter fun line => !line.isEmpty) = blocks.flatten ∧
      List.Forall₂ (Report.Draws body) nodes blocks

theorem isDrawing_of_sections {style : Report.Style} {log : DecodedTransaction}
    {number : Option Int} {full : Bool} {deltas : Option Deltas} {parts : List (List Text)}
    (h : Report.sections style log number full deltas = .ok parts) :
    IsDrawing (Report.shownBody style deltas full) parts log.forest.walk := by
  obtain ⟨head, lines, -, hlines, rfl⟩ := Report.sections_eq_ok_iff.mp h
  obtain ⟨blocks, hblocks, hdraws⟩ := Report.draws_of_forestLines hlines
  exact ⟨head, _, lines, _, blocks, rfl, hblocks, hdraws⟩

end DecodedTransaction

open DecodedTransaction

/-- A transaction is decoded where its log can be read, its payloads have outcomes and the parents
of its orphans can be written. Then a walk meets each instruction and each of its calls once; the
summary, where the trees are not too high for one, lists the same nodes in the same order; and so
does a report, condensed or in full, where they are not too high for it and its tables can be
written. -/
theorem Transaction.views_agree (t : Transaction) (r : Registry) (pre post : Option Snapshots) :
    ((∀ call ∈ t.inner, call.height.isUsable) →
      ((∃ log, t.decode r pre post = .ok log) ↔ t.IsDecodable r)) ∧
    ∀ log, t.decode r pre post = .ok log →
      log.forest.walk.map Node.entry =
        (t.instructions.zipIdx.flatMap fun item => (item.2, item.1) ::
          (t.inner.filter fun call => call.parent = (item.2 : Int)).map
            fun call => (item.2, call.instruction)) ∧
      Tree.visit log.forest.trees = log.forest.walk ∧
      log.forest.subtrees.map Tree.value = log.forest.walk ∧
      ((∃ doc, log.summary = .ok doc) ↔
        Tree.heightAll log.forest.trees ≤ maxSummaryHeight) ∧
      (∀ doc, log.summary = .ok doc → IsListing doc log.forest.subtrees) ∧
      ∀ style number full deltas,
        ((∃ parts, Report.sections style log number full deltas = .ok parts) ↔
          Report.HasHeader t number ∧ Tree.heightAll log.forest.trees ≤ Report.maxHeight ∧
            (full → ∀ n ∈ log.forest.walk, Report.IsDrawable style deltas n)) ∧
        ∀ parts, Report.sections style log number full deltas = .ok parts →
          IsDrawing (Report.shownBody style deltas full) parts log.forest.walk := by
  refine ⟨exists_decode_iff, fun log hlog => ⟨map_entry_walk_of_decode hlog,
    Tree.visit_eq_preorderAll _, Tree.map_value_subtreesAll _, ?_, fun doc => isListing_of_summary,
    fun style number full deltas => ⟨?_, fun parts => isDrawing_of_sections⟩⟩⟩
  · simp only [summary_eq_ok_iff, exists_and_left, exists_eq, and_true]
  · rw [← (decode_eq_ok_iff.mp hlog).2.1]
    exact Report.exists_sections_iff

/-- A transaction of one instruction, with calls that are each made by the one before. -/
def Transaction.nested (count : Nat) : Transaction :=
  { signature := "1", instructions := [⟨Pubkey.zero, [], []⟩],
    inner := nestedCalls ⟨Pubkey.zero, [], []⟩ 0 count }

theorem Transaction.length_walk_nested {count : Nat} {log : DecodedTransaction}
    (h : (Transaction.nested count).decode {} none none = .ok log) :
    log.forest.walk.length = count + 1 := by
  have hlength := congrArg List.length (map_entry_walk_of_decode h)
  rw [List.length_map] at hlength
  rw [hlength, nested, List.zipIdx_singleton, List.flatMap_singleton, entriesOf, callEntries,
    callsOf_nestedCalls, List.length_cons, List.length_map, nestedCalls, List.length_map,
    List.length_range']

/-- Nested calls of a program without a decoder have nothing that a table could not show. -/
theorem Transaction.isDrawable_nested {count : Nat} {log : DecodedTransaction}
    (h : (Transaction.nested count).decode {} none none = .ok log) (style : Report.Style)
    (deltas : Option Deltas) : ∀ n ∈ log.forest.walk, Report.IsDrawable style deltas n := by
  intro n hn
  have hentry : n.entry ∈ log.forest.walk.map Node.entry := List.mem_map_of_mem hn
  rw [map_entry_walk_of_decode h, nested, List.zipIdx_singleton, List.flatMap_singleton, entriesOf,
    callEntries, callsOf_nestedCalls, nestedCalls, List.map_map] at hentry
  have hinstruction : n.instruction = ⟨Pubkey.zero, [], []⟩ := by
    rcases List.mem_cons.mp hentry with hroot | hcall
    · exact congrArg Prod.snd hroot
    · obtain ⟨d, -, hd⟩ := List.mem_map.mp hcall
      exact (congrArg Prod.snd hd).symm
  have hundecoded : n.decoded? = none := by
    have hforest := (decode_eq_ok_iff.mp h).1
    obtain ⟨outcome, houtcome, hshown⟩ :=
      Forest.exists_outcome_of_decode (decodeForest_eq_ok_iff.mp hforest).2 hn
    unfold Invocation.decode at houtcome
    split at houtcome
    · obtain rfl := Except.ok.inj houtcome
      rw [Node.decoded?, hshown]
    · cases houtcome
  refine ⟨?_, ?_, ?_⟩
  · simp [hinstruction]
  · simp [hinstruction]
  · simp [hundecoded]

/-- There are no views at all of a log that cannot be read. Of 999 nested calls there is the walk,
which meets all of them, and neither a summary nor a report. -/
theorem Transaction.views_missing :
    (¬ ∃ log, Transaction.overlong.decode {} none none = .ok log) ∧
    ∃ log, (Transaction.nested 999).decode {} none none = .ok log ∧
      log.forest.walk.length = 1000 ∧ log.summary = .error .endless ∧
      ∀ style number full deltas,
        (∀ parts, Report.sections style log number full deltas ≠ .ok parts) ∧
        ((∀ n, number = some n → Decimal.isWritable n) →
          Report.sections style log number full deltas = .error .endless) := by
  obtain ⟨f, hf, hheight⟩ := exists_decodeForest_nestedCalls ⟨Pubkey.zero, [], []⟩ 999
  have hlog : (Transaction.nested 999).decode {} none none = .ok ⟨nested 999, f, none⟩ :=
    decode_eq_ok_iff.mpr ⟨hf, rfl, rfl⟩
  have hsummary : maxSummaryHeight < Tree.heightAll f.trees := Nat.lt_trans (by decide) hheight
  have hreport : Report.maxHeight < Tree.heightAll f.trees := Nat.lt_trans (by decide) hheight
  refine ⟨not_exists_decode_overlong, _, hlog, length_walk_nested hlog, summary_of_lt hsummary,
    fun style number full deltas => ⟨fun parts hparts => ?_, fun hnumber => ?_⟩⟩
  · have htall := (Report.exists_sections_iff.mp ⟨parts, hparts⟩).2.1
    exact absurd htall (Nat.not_le.mpr hreport)
  · have hheader : Report.HasHeader (nested 999) number :=
      ⟨hnumber, by decide +kernel, by decide, by decide +kernel, by decide +kernel⟩
    exact Report.sections_of_lt hheader (fun _ => isDrawable_nested hlog style deltas) hreport

end SolanaTx
