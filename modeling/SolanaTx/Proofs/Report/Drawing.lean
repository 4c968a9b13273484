import Mathlib.Data.List.Forall2
import SolanaTx.Proofs.Report.Connectors
import SolanaTx.Proofs.Report.States
import SolanaTx.Proofs.Report.Table

/-!
# Drawn forests

A drawn forest holds a block of lines for each node, in the order of the nodes: its title
behind a lead, and below it what a full report says of the node. It can be drawn where it is not too
high and the tables of each node can be written.
-/

namespace SolanaTx.Report

open Fallible Text

variable {style : Style} {deltas : Option Deltas}

/-! ## What is said of a node -/

/-- A state can be shown where its numbers can be written. -/
theorem exists_states_iff {key : Pubkey} :
    (∃ cells, states style deltas key = .ok cells) ↔
      ∀ known, deltas = some known → ∀ d, known.get? key = some d → d.IsWritable := by
  cases deltas with
  | none => simp [states]
  | some known =>
      simp only [states, Option.some.injEq, forall_eq']
      cases known.get? key with
      | none => simp [stateCells]
      | some d => simpa using exists_stateCells_iff

theorem length_states {key : Pubkey} {cells : List Text}
    (h : states style deltas key = .ok cells) :
    cells.length + 4 = (accountHeaders deltas).length := by
  cases deltas with
  | none =>
      obtain rfl := Except.ok.inj h
      rfl
  | some known =>
      rw [length_stateCells h]
      rfl

/-- What the tables of a node need: names that are texts, and states that can be written. -/
structure IsDrawable (style : Style) (deltas : Option Deltas) (n : Node) : Prop where
  accounts : ∀ item ∈ n.instruction.accounts.zipIdx,
    ∃ t, accountName style n item.2 item.1.pubkey = .text t
  states : ∀ item ∈ n.instruction.accounts.zipIdx, ∀ known, deltas = some known →
    ∀ d, known.get? item.1.pubkey = some d → d.IsWritable
  fields : ∀ d, n.decoded? = some d → ∀ f ∈ d.fields, ∃ t, f.name = .text t

theorem exists_accountTable_iff {n : Node} :
    (∃ lines, accountTable style n deltas = .ok lines) ↔
      ∀ item ∈ n.instruction.accounts.zipIdx,
        (∃ t, accountName style n item.2 item.1.pubkey = .text t) ∧
        ∃ cells, states style deltas item.1.pubkey = .ok cells := by
  have halignments : accountAlignments deltas = [] ∨
      (accountAlignments deltas).length = (accountHeaders deltas).length := by
    cases deltas <;> exact .inr rfl
  have hlength : ∀ item row, accountRow style n deltas item = .ok row →
      row.length = (accountHeaders deltas).length := by
    intro item row hrow
    obtain ⟨state, hstate, rfl⟩ := map_eq_ok.mp hrow
    simpa using length_states hstate
  rw [accountTable, Table.exists_mapM_ofCells_iff hlength halignments]
  refine forall₂_congr fun item _ => ?_
  simp only [accountRow, map_eq_ok]
  constructor
  · rintro ⟨_, ⟨state, hstate, rfl⟩, htexts⟩
    exact ⟨htexts _ (by simp), state, hstate⟩
  · rintro ⟨hname, state, hstate⟩
    exact ⟨_, ⟨state, hstate, rfl⟩, by simpa using hname⟩

theorem exists_fieldTable_iff {fields : List DecodedField} :
    (∃ lines, fieldTable fields = .ok lines) ↔ ∀ f ∈ fields, ∃ t, f.name = .text t := by
  have hrows : ∀ row ∈ fields.map fun f => [f.name, .text f.label, .text f.value],
      row.length = (["Field", "Type", "Value"] : List Text).length := by
    simp
  exact (Table.exists_ofCells_iff hrows (.inl rfl)).trans (by simp)

theorem body_eq_ok_iff {n : Node} {lines : List Text} :
    body style deltas n = .ok lines ↔ ∃ accounts payload,
      accountLines style deltas n = .ok accounts ∧ payloadLines style n = .ok payload ∧
        lines = accounts ++ payload :=
  bind_bind_eq_ok

theorem exists_accountLines_iff {n : Node} :
    (∃ lines, accountLines style deltas n = .ok lines) ↔
      ∀ item ∈ n.instruction.accounts.zipIdx,
        (∃ t, accountName style n item.2 item.1.pubkey = .text t) ∧
        ∃ cells, states style deltas item.1.pubkey = .ok cells := by
  rw [← exists_accountTable_iff]
  simp only [accountLines]
  split
  · next hnone =>
    rw [List.length_eq_zero_iff] at hnone
    rw [exists_accountTable_iff]
    simp [hnone]
  · simp [map_eq_ok]

theorem exists_payloadLines_iff {n : Node} :
    (∃ lines, payloadLines style n = .ok lines) ↔
      ∀ d, n.decoded? = some d → ∀ f ∈ d.fields, ∃ t, f.name = .text t := by
  unfold payloadLines
  cases n.decoded? with
  | none => simp
  | some d =>
      simp only [Option.some.injEq, forall_eq', ← exists_fieldTable_iff]
      split
      · next hnone =>
        rw [List.isEmpty_iff] at hnone
        rw [exists_fieldTable_iff]
        simp [hnone]
      · simp [map_eq_ok]

/-- What is said of a node can be written where its tables can. -/
theorem exists_body_iff {n : Node} :
    (∃ lines, body style deltas n = .ok lines) ↔ IsDrawable style deltas n := by
  simp only [body_eq_ok_iff]
  constructor
  · rintro ⟨_, accounts, payload, haccounts, hpayload, -⟩
    have hrows := exists_accountLines_iff.mp ⟨accounts, haccounts⟩
    exact ⟨fun item hitem => (hrows item hitem).1,
      fun item hitem => exists_states_iff.mp (hrows item hitem).2,
      exists_payloadLines_iff.mp ⟨payload, hpayload⟩⟩
  · intro h
    obtain ⟨accounts, haccounts⟩ := exists_accountLines_iff.mpr fun item hitem =>
      ⟨h.accounts item hitem, exists_states_iff.mpr (h.states item hitem)⟩
    obtain ⟨payload, hpayload⟩ := exists_payloadLines_iff.mpr h.fields
    exact ⟨_, accounts, payload, haccounts, hpayload, rfl⟩

/-! ## Blocks of lines -/

/-- Whether a text only leads from one node to the next. -/
def IsLead (lead : Text) : Prop :=
  ∀ c ∈ lead, c ∈ Text.ofString "├└│─ "

instance : DecidablePred IsLead := fun lead =>
  inferInstanceAs (Decidable (∀ c ∈ lead, c ∈ Text.ofString "├└│─ "))

theorem isLead_nil : IsLead [] := by
  simp [IsLead]

theorem IsLead.append {lead mark : Text} (hlead : IsLead lead) (hmark : IsLead mark) :
    IsLead (lead ++ mark) :=
  List.forall_mem_append.mpr ⟨hlead, hmark⟩

/-- Whether lines are the block of a node: its title, and all that is said of it. -/
def Draws (body : Option (Node → Except Fault (List Text))) (n : Node) (lines : List Text) : Prop :=
  ∃ lead mark below, IsLead lead ∧ IsLead mark ∧ mark ≠ [] ∧ details body n = .ok below ∧
    lines = (lead ++ title n) :: below.map (mark ++ ·)

theorem isLead_column (last : Bool) : IsLead (column last) := by
  cases last <;> decide

theorem isLead_columns (lineage : List Bool) : IsLead (lineage.flatMap column) := by
  intro c hc
  obtain ⟨last, -, hc⟩ := List.mem_flatMap.mp hc
  exact isLead_column last c hc

theorem isLead_titleLead (lineage : List Bool) : IsLead (titleLead lineage) := by
  rcases List.eq_nil_or_concat' lineage with rfl | ⟨above, last, rfl⟩
  · exact isLead_nil
  · have hbranch : IsLead (branch last) := by cases last <;> decide
    rw [titleLead_concat]
    exact (isLead_columns above).append hbranch

section

variable {body : Option (Node → Except Fault (List Text))}

theorem draws_of_nodeLines {t : Tree (List Bool × Node)} {lines : List Text}
    (h : nodeLines body t = .ok lines) : Draws body t.value.2 lines := by
  obtain ⟨said, hsaid, rfl⟩ := map_eq_ok.mp h
  have hne : column t.children.isEmpty ≠ [] := by cases t.children.isEmpty <;> decide
  exact ⟨_, _, said, isLead_titleLead _, (isLead_columns _).append (isLead_column _),
    List.append_ne_nil_of_right_ne_nil _ hne, hsaid, rfl⟩

variable {levels : Nat} {t : Tree Node}

/-- The lines of a tree are the blocks of its nodes. -/
theorem draws_of_treeLines {lines : List Text} (h : treeLines body levels [] [] t = .ok lines) :
    ∃ blocks, lines = blocks.flatten ∧ List.Forall₂ (Draws body) t.preorder blocks := by
  rw [treeLines_root (height_le_of_treeLines t h)] at h
  obtain ⟨blocks, hblocks, rfl⟩ := map_eq_ok.mp h
  refine ⟨blocks, rfl, ?_⟩
  rw [← Tree.map_value_subtrees_lineage [] t, List.forall₂_map_left_iff]
  exact (mapM_eq_ok_iff.mp hblocks).imp fun _ _ => draws_of_nodeLines

/-- A tree is drawn where it is not too high and all that is said of its nodes can be written. -/
theorem exists_treeLines_iff : (∃ lines, treeLines body levels [] [] t = .ok lines) ↔
    t.height ≤ levels ∧ ∀ n ∈ t.preorder, ∃ said, details body n = .ok said := by
  by_cases hheight : t.height ≤ levels
  · rw [treeLines_root hheight, exists_map_iff, exists_mapM_iff, and_iff_right hheight,
      ← Tree.map_value_subtrees_lineage [] t, List.forall_mem_map]
    simp only [nodeLines, exists_map_iff]
  · refine iff_of_false ?_ fun h => hheight h.1
    rintro ⟨lines, hlines⟩
    exact hheight (height_le_of_treeLines t hlines)

end

theorem Draws.ne_nil {body : Option (Node → Except Fault (List Text))} {n : Node}
    {lines : List Text} (h : Draws body n lines) : ∀ line ∈ lines, line ≠ [] := by
  obtain ⟨lead, mark, below, -, -, hmark, -, rfl⟩ := h
  rw [List.forall_mem_cons, List.forall_mem_map]
  refine ⟨List.append_ne_nil_of_right_ne_nil lead ?_, fun line _ =>
    List.append_ne_nil_of_left_ne_nil hmark line⟩
  simp only [title, List.append_assoc]
  exact List.cons_ne_nil _ _

theorem ne_nil_of_draws {body : Option (Node → Except Fault (List Text))} {ns : List Node}
    {blocks : List (List Text)} (h : List.Forall₂ (Draws body) ns blocks) :
    ∀ line ∈ blocks.flatten, line ≠ [] := by
  induction h with
  | nil => exact List.forall_mem_nil _
  | cons hdraws _ ih => exact List.forall_mem_append.mpr ⟨hdraws.ne_nil, ih⟩

/-! ## All trees -/

/-- The forest is drawn where it is not too high and all that is said of its nodes can be
written. -/
theorem exists_forestLines_iff {body : Option (Node → Except Fault (List Text))}
    {trees : List (Tree Node)} : (∃ lines, forestLines body trees = .ok lines) ↔
      Tree.heightAll trees ≤ maxHeight ∧
        ∀ n ∈ Tree.preorderAll trees, ∃ said, details body n = .ok said := by
  have hparts : (∃ lines, forestLines body trees = .ok lines) ↔
      ∃ parts, trees.mapM (treeLines body maxHeight [] []) = .ok parts := by
    simp only [forestLines_eq_ok_iff]
    exact ⟨fun ⟨_, parts, hparts, _⟩ => ⟨parts, hparts⟩,
      fun ⟨parts, hparts⟩ => ⟨_, parts, hparts, rfl⟩⟩
  rw [hparts, exists_mapM_iff, Tree.heightAll_le_iff]
  simp only [exists_treeLines_iff, Tree.preorderAll_eq_flatMap, List.mem_flatMap]
  constructor
  · intro h
    exact ⟨fun t ht => (h t ht).1, fun n ⟨t, ht, hn⟩ => (h t ht).2 n hn⟩
  · rintro ⟨hheights, hsaid⟩ t ht
    exact ⟨hheights t ht, fun n hn => hsaid n ⟨t, ht, hn⟩⟩

/-- What is no separator is kept apart from separators. -/
theorem filter_intercalate {α : Type} {p : α → Bool} {separator : List α}
    (h : separator.filter p = []) (parts : List (List α)) :
    (List.intercalate separator parts).filter p = parts.flatten.filter p := by
  induction parts with
  | nil => rfl
  | cons part rest ih =>
      cases rest with
      | nil => simp
      | cons next rest =>
          rw [List.intercalate_cons_cons, List.filter_append, List.filter_append, h, ih,
            List.append_nil, ← List.filter_append]
          rfl

/-- Apart from the empty lines between trees, a drawn forest is the blocks of its nodes. -/
theorem draws_of_forestLines {body : Option (Node → Except Fault (List Text))}
    {trees : List (Tree Node)} {lines : List Text} (h : forestLines body trees = .ok lines) :
    ∃ blocks, (lines.filter fun line => !line.isEmpty) = blocks.flatten ∧
      List.Forall₂ (Draws body) (Tree.preorderAll trees) blocks := by
  obtain ⟨parts, hparts, rfl⟩ := forestLines_eq_ok_iff.mp h
  have hflat : ∃ blocks, parts.flatten = blocks.flatten ∧
      List.Forall₂ (Draws body) (Tree.preorderAll trees) blocks := by
    clear h
    induction mapM_eq_ok_iff.mp hparts with
    | nil => exact ⟨[], rfl, .nil⟩
    | cons hpart hrest ih =>
        obtain ⟨first, rfl, hfirst⟩ := draws_of_treeLines hpart
        obtain ⟨blocks, hblocks, hdraws⟩ := ih (mapM_eq_ok_iff.mpr hrest)
        refine ⟨first ++ blocks, ?_, List.rel_append hfirst hdraws⟩
        rw [List.flatten_cons, hblocks, List.flatten_append]
  obtain ⟨blocks, hblocks, hdraws⟩ := hflat
  have hfull : ∀ line ∈ parts.flatten, (!line.isEmpty) = true := by
    rw [hblocks]
    simpa using ne_nil_of_draws hdraws
  refine ⟨blocks, ?_, hdraws⟩
  rw [← hblocks]
  split
  · rw [filter_intercalate rfl, List.filter_eq_self.mpr hfull]
  · exact List.filter_eq_self.mpr hfull

/-! ## Sections -/

/-- The body of the nodes in a report, which only a full one has. -/
def shownBody (style : Style) (deltas : Option Deltas) (full : Bool) :
    Option (Node → Except Fault (List Text)) :=
  if full then some (body style deltas) else none

theorem exists_details_shownBody_iff {full : Bool} {n : Node} :
    (∃ said, details (shownBody style deltas full) n = .ok said) ↔
      (full → IsDrawable style deltas n) := by
  cases full with
  | false => simp [shownBody, details]
  | true => simpa [shownBody, details] using exists_body_iff

variable {t : DecodedTransaction} {number : Option Int} {full : Bool}

/-- Whether the numbers in the head of a report can be written. A fee has a limit of its own. -/
structure HasHeader (t : Transaction) (number : Option Int) : Prop where
  number : ∀ n, number = some n → Decimal.isWritable n
  slot : Decimal.isWritable t.slot
  fee : (Decimal.numeral (Amount.exactLamports t.fee.natAbs)).length ≤ Amount.maxLength
  computeUsed : Decimal.isWritable t.computeUsed
  computeLimit : Decimal.isWritable t.computeLimit

instance (t : Transaction) (number : Option Int) : Decidable (HasHeader t number) :=
  decidable_of_iff
    (number.all Decimal.isWritable = true ∧ Decimal.isWritable t.slot = true ∧
      (Decimal.numeral (Amount.exactLamports t.fee.natAbs)).length ≤ Amount.maxLength ∧
      Decimal.isWritable t.computeUsed = true ∧ Decimal.isWritable t.computeLimit = true)
    ⟨fun h => ⟨(Option.all_eq_true _ _).mp h.1, h.2.1, h.2.2.1, h.2.2.2.1, h.2.2.2.2⟩,
      fun h => ⟨(Option.all_eq_true _ _).mpr h.number, h.slot, h.fee, h.computeUsed,
        h.computeLimit⟩⟩

theorem exists_reportName_iff :
    (∃ name, reportName number = .ok name) ↔ ∀ n, number = some n → Decimal.isWritable n := by
  cases number with
  | none => simp [reportName]
  | some n => simpa [reportName, exists_map_iff] using Decimal.exists_written_iff

/-- The places of a summary are admitted for all amounts that are not too long. -/
theorem exists_solText_iff {lamports : Int} :
    (∃ fee, Amount.solText lamports Amount.summaryPlaces = .ok fee) ↔
      (Decimal.numeral (Amount.exactLamports lamports.natAbs)).length ≤ Amount.maxLength := by
  unfold Amount.solText
  split
  · next hlong => simp [Nat.not_le.mpr hlong]
  · next hshort =>
    have hadmits : Amount.admitsPlaces lamports.natAbs Amount.summaryPlaces = true := by
      rw [Amount.admitsPlaces, decide_eq_true_eq]
      unfold Amount.maxLength at hshort
      unfold Amount.maxUnits Amount.greatestPlaces Amount.summaryPlaces
      omega
    rw [if_pos hadmits]
    exact iff_of_true ⟨_, rfl⟩ (Nat.not_lt.mp hshort)

/-- The lines of a head. All numbers in them can be written where there is one. -/
theorem header_eq_ok_iff {head : List Text} : header t number = .ok head ↔
    Decimal.isWritable t.source.slot = true ∧ Decimal.isWritable t.source.computeUsed = true ∧
      Decimal.isWritable t.source.computeLimit = true ∧ ∃ name fee,
        reportName number = .ok name ∧
        Amount.solText t.source.fee Amount.summaryPlaces = .ok fee ∧ head = [
          name ++ " │ " ++ t.source.signature.plain ++ " │ Slot " ++
            Decimal.ofInt t.source.slot ++ " │ " ++ t.source.status.text,
          "Fee: " ++ fee ++ " SOL │ Compute: " ++ Decimal.grouped t.source.computeUsed ++ " / " ++
            Decimal.grouped t.source.computeLimit ++ " CU"] := by
  simp only [header, bind_eq_ok, pure_eq_ok, Decimal.written_eq_ok_iff]
  constructor
  · rintro ⟨name, hname, _, ⟨hslot, rfl⟩, fee, hfee, _, ⟨hused, rfl⟩, _, ⟨hlimit, rfl⟩, rfl⟩
    exact ⟨hslot, hused, hlimit, name, fee, hname, hfee, rfl⟩
  · rintro ⟨hslot, hused, hlimit, name, fee, hname, hfee, rfl⟩
    exact ⟨name, hname, _, ⟨hslot, rfl⟩, fee, hfee, _, ⟨hused, rfl⟩, _, ⟨hlimit, rfl⟩, rfl⟩

theorem exists_header_iff : (∃ head, header t number = .ok head) ↔ HasHeader t.source number := by
  simp only [header_eq_ok_iff]
  constructor
  · rintro ⟨_, hslot, hused, hlimit, name, fee, hname, hfee, -⟩
    exact ⟨exists_reportName_iff.mp ⟨name, hname⟩, hslot, exists_solText_iff.mp ⟨fee, hfee⟩,
      hused, hlimit⟩
  · intro h
    obtain ⟨name, hname⟩ := exists_reportName_iff.mpr h.number
    obtain ⟨fee, hfee⟩ := exists_solText_iff.mpr h.fee
    exact ⟨_, h.slot, h.computeUsed, h.computeLimit, name, fee, hname, hfee, rfl⟩

/-- The sections of a report: its head, the drawn forest, the warnings and the log. -/
theorem sections_eq_ok_iff {parts : List (List Text)} :
    sections style t number full deltas = .ok parts ↔ ∃ head tree,
      header t number = .ok head ∧
      forestLines (shownBody style deltas full) t.forest.trees = .ok tree ∧
      parts = [head, ("Instructions (" ++ Decimal.ofNat t.forest.trees.length ++ ")") :: tree] ++
        warningSection t ++ logSection style t full :=
  bind_bind_eq_ok

/-- A report has its sections where its numbers can be written, its trees are not too high and, in a
full report, all tables can be written. -/
theorem exists_sections_iff :
    (∃ parts, sections style t number full deltas = .ok parts) ↔
      HasHeader t.source number ∧ Tree.heightAll t.forest.trees ≤ maxHeight ∧
        (full → ∀ n ∈ t.forest.walk, IsDrawable style deltas n) := by
  have htree : (∃ tree, forestLines (shownBody style deltas full) t.forest.trees = .ok tree) ↔
      Tree.heightAll t.forest.trees ≤ maxHeight ∧
        (full → ∀ n ∈ t.forest.walk, IsDrawable style deltas n) := by
    rw [exists_forestLines_iff]
    simp only [exists_details_shownBody_iff]
    exact and_congr_right fun _ =>
      ⟨fun h hfull n hn => h n hn hfull, fun h n hn hfull => h hfull n hn⟩
  rw [← htree, ← exists_header_iff]
  simp only [sections_eq_ok_iff]
  constructor
  · rintro ⟨_, head, tree, hhead, htree, -⟩
    exact ⟨⟨head, hhead⟩, tree, htree⟩
  · rintro ⟨⟨head, hhead⟩, tree, htree⟩
    exact ⟨_, head, tree, hhead, htree, rfl⟩

/-- A forest that is too high is not drawn, whatever else could be shown of it. -/
theorem sections_of_lt (hhead : HasHeader t.source number)
    (hdrawable : full → ∀ n ∈ t.forest.walk, IsDrawable style deltas n)
    (h : maxHeight < Tree.heightAll t.forest.trees) :
    sections style t number full deltas = .error .endless := by
  obtain ⟨head, hhead⟩ := exists_header_iff.mpr hhead
  have htree : forestLines (shownBody style deltas full) t.forest.trees = .error .endless :=
    forestLines_of_lt
      (fun n hn => exists_details_shownBody_iff.mpr fun hfull => hdrawable hfull n hn) h
  rw [sections, hhead, ok_bind]
  exact bind_eq_error.mpr (.inl htree)

/-! ## Reports -/

/-- The text of sections in a border. -/
def blockText (parts : List (List Text)) : Text :=
  Text.join "\n" (block parts) ++ "\n"

theorem blockText_ne_nil (parts : List (List Text)) : blockText parts ≠ [] :=
  List.append_ne_nil_of_right_ne_nil _ (by decide)

/-- A report is the block of its sections, or nothing where a quiet one is asked for. -/
theorem render_eq_ok_iff {asked : Option Verbosity} {text : Text} :
    render style t number asked deltas = .ok text ↔
      (style.level t asked = .quiet ∧ text = []) ∨
        (style.level t asked ≠ .quiet ∧ ∃ parts,
          sections style t number (style.level t asked == .full) (deltas <|> t.deltas) =
            .ok parts ∧ text = blockText parts) := by
  have hblock : ∀ full : Bool, (sections style t number full (deltas <|> t.deltas) >>= fun parts =>
      pure (blockText parts)) = .ok text ↔
        ∃ parts, sections style t number full (deltas <|> t.deltas) = .ok parts ∧
          text = blockText parts := by
    intro full
    simp only [bind_eq_ok, pure_eq_ok, @eq_comm _ text]
  unfold render
  cases style.level t asked with
  | quiet => simp [eq_comm]
  | condensed =>
      rw [or_iff_right (by simp), and_iff_right (by simp)]
      exact hblock false
  | full =>
      rw [or_iff_right (by simp), and_iff_right (by simp)]
      exact hblock true

/-- A report is had where it is quiet, or where it has its sections. -/
theorem exists_render_iff {asked : Option Verbosity} :
    (∃ text, render style t number asked deltas = .ok text) ↔
      (style.level t asked ≠ .quiet →
        HasHeader t.source number ∧ Tree.heightAll t.forest.trees ≤ maxHeight ∧
          (style.level t asked = .full →
            ∀ n ∈ t.forest.walk, IsDrawable style (deltas <|> t.deltas) n)) := by
  have hsections : (∃ parts, sections style t number (style.level t asked == .full)
      (deltas <|> t.deltas) = .ok parts) ↔
        HasHeader t.source number ∧ Tree.heightAll t.forest.trees ≤ maxHeight ∧
          (style.level t asked = .full →
            ∀ n ∈ t.forest.walk, IsDrawable style (deltas <|> t.deltas) n) := by
    rw [exists_sections_iff, beq_iff_eq]
  rw [← hsections]
  simp only [render_eq_ok_iff]
  constructor
  · rintro ⟨_, ⟨hquiet, -⟩ | ⟨-, parts, hparts, -⟩⟩ hlevel
    · exact absurd hquiet hlevel
    · exact ⟨parts, hparts⟩
  · intro h
    by_cases hquiet : style.level t asked = .quiet
    · exact ⟨[], .inl ⟨hquiet, rfl⟩⟩
    · obtain ⟨parts, hparts⟩ := h hquiet
      exact ⟨_, .inr ⟨hquiet, parts, hparts, rfl⟩⟩

/-- Nothing but a quiet report is empty. -/
theorem ne_nil_of_render {asked : Option Verbosity} {text : Text}
    (h : render style t number asked deltas = .ok text) (hlevel : style.level t asked ≠ .quiet) :
    text ≠ [] := by
  rcases render_eq_ok_iff.mp h with ⟨hquiet, -⟩ | ⟨-, parts, -, rfl⟩
  · exact absurd hquiet hlevel
  · exact blockText_ne_nil parts

end SolanaTx.Report
