import Mathlib.Data.List.Forall2
import Mathlib.Data.Option.Basic
import SolanaTx.Proofs.Fallible
import SolanaTx.Proofs.Json.Access
import SolanaTx.Proofs.Text.Lines
import SolanaTx.Report.Table

/-!
# Tables that are written

A table of unchecked cells is written where all of them are texts and no row is longer
than the headers. Its lines hold nothing but its cells, blanks and box characters.
-/

namespace SolanaTx.Table

open Fallible Text

/-! ## Which tables are written -/

theorem exists_widen {ws : List Nat} {cells : List Text} (h : cells.length ≤ ws.length) :
    ∃ wider, widen ws cells = .ok wider ∧ wider.length = ws.length := by
  induction cells generalizing ws with
  | nil => exact ⟨ws, by cases ws <;> rfl, rfl⟩
  | cons cell rest ih =>
      cases ws with
      | nil => simp at h
      | cons w ws =>
          obtain ⟨wider, hwider, hlength⟩ := ih (Nat.le_of_succ_le_succ h)
          refine ⟨max w cell.length :: wider, ?_, by simp [hlength]⟩
          rw [widen, hwider]
          rfl

theorem exists_foldlM_widen {rows : List (List Text)} {ws : List Nat}
    (h : ∀ row ∈ rows, row.length ≤ ws.length) : ∃ wider, rows.foldlM widen ws = .ok wider := by
  induction rows generalizing ws with
  | nil => exact ⟨ws, rfl⟩
  | cons row rest ih =>
      rw [List.forall_mem_cons] at h
      obtain ⟨wider, hwider, hlength⟩ := exists_widen h.1
      rw [List.foldlM_cons, hwider, ok_bind]
      exact ih fun other hother => hlength ▸ h.2 other hother

/-- The lines of a grid of texts in columns of some widths. -/
def gridLines (headers : List Text) (rows : List (List Text)) (alignments : List Alignment)
    (ws : List Nat) : List Text :=
  [rule "┌" "┬" "┐" ws, line ws (headers.map fun _ => .left) headers, rule "├" "┼" "┤" ws] ++
    rows.map (line ws alignments) ++ [rule "└" "┴" "┘" ws]

theorem getElem?_gridLines {headers : List Text} {rows : List (List Text)} {ws : List Nat}
    {alignments : List Alignment} {r : Nat} {row : List Text} (h : rows[r]? = some row) :
    (gridLines headers rows alignments ws)[r + 3]? = some (line ws alignments row) := by
  have hbound : r < rows.length := (List.getElem?_eq_some_iff.mp h).1
  rw [gridLines, List.append_assoc, List.getElem?_append_right (Nat.le_add_left 3 r),
    List.getElem?_append_left (by simpa using hbound)]
  simp [h]

/-- Without alignments a table is written with all columns on the left. -/
theorem render_of_widths {headers : List Text} {rows : List (List Text)} {ws : List Nat}
    {alignments : List Alignment} (h : widths headers rows = .ok ws) :
    render headers rows alignments = .ok (gridLines headers rows
      (if alignments.isEmpty then headers.map fun _ => .left else alignments) ws) := by
  rw [render, h, ok_bind]
  rfl

theorem exists_gridLines_of_render {headers : List Text} {rows : List (List Text)}
    {alignments : List Alignment} {lines : List Text}
    (h : render headers rows alignments = .ok lines) :
    ∃ ws, lines = gridLines headers rows
      (if alignments.isEmpty then headers.map fun _ => .left else alignments) ws := by
  obtain ⟨ws, hws, -⟩ := bind_eq_ok.mp h
  rw [render_of_widths hws] at h
  exact ⟨ws, (Except.ok.inj h).symm⟩

theorem exists_render {headers : List Text} {rows : List (List Text)}
    (h : ∀ row ∈ rows, row.length ≤ headers.length) (alignments : List Alignment) :
    ∃ lines, render headers rows alignments = .ok lines := by
  have hshort : ∀ row ∈ rows, row.length ≤ (headers.map List.length).length := by
    simpa using h
  obtain ⟨ws, hws⟩ := exists_foldlM_widen hshort
  exact ⟨_, render_of_widths hws⟩

theorem measureFault?_map_text {columns : Nat} {cells : List Text} (h : cells.length ≤ columns) :
    measureFault? columns (cells.map .text) = none := by
  induction cells generalizing columns with
  | nil => cases columns <;> rfl
  | cons cell rest ih =>
      cases columns with
      | zero => simp at h
      | succ columns =>
          rw [List.map_cons, measureFault?]
          exact ih (Nat.le_of_succ_le_succ h)

theorem writeFault?_eq_none_iff {columns : Nat} {cells : List Json} :
    writeFault? columns cells = none ↔ ∃ ts : List Text, cells.take columns = ts.map .text := by
  unfold writeFault?
  simp only [← Json.texts_eq_ok_iff]
  cases Json.texts (cells.take columns) <;> simp

theorem writeFault?_map_text (columns : Nat) (cells : List Text) :
    writeFault? columns (cells.map .text) = none :=
  writeFault?_eq_none_iff.mpr ⟨cells.take columns, List.map_take.symm⟩

theorem cellFault?_map_text {headers : List Text} {rows : List (List Text)}
    (h : ∀ row ∈ rows, row.length ≤ headers.length) (alignments : List Alignment) :
    cellFault? (headers.map .text) (rows.map fun row => row.map .text) alignments = none := by
  have hmeasure : (rows.map fun row => row.map Json.text).findSome?
      (measureFault? headers.length) = none := by
    simp only [List.findSome?_eq_none_iff, List.forall_mem_map]
    exact fun row hrow => measureFault?_map_text (h row hrow)
  have hwrite : ∀ columns : Nat, (rows.map fun row => row.map Json.text).findSome?
      (writeFault? columns) = none := by
    intro columns
    simp only [List.findSome?_eq_none_iff, List.forall_mem_map]
    exact fun row _ => writeFault?_map_text columns row
  simp only [cellFault?, List.length_map, measureFault?_map_text (Nat.le_refl _), hmeasure,
    writeFault?_map_text, hwrite]
  rfl

theorem ofCells_map_text {headers : List Text} {rows : List (List Text)}
    (h : ∀ row ∈ rows, row.length ≤ headers.length) (alignments : List Alignment) :
    ofCells (headers.map .text) (rows.map fun row => row.map .text) alignments =
      render headers rows alignments := by
  rw [ofCells, cellFault?_map_text h]
  simp [Function.comp_def, cellText]

theorem ofCells_eq_ok_iff {headers : List Json} {rows : List (List Json)}
    {alignments : List Alignment} {lines : List Text} :
    ofCells headers rows alignments = .ok lines ↔ cellFault? headers rows alignments = none ∧
      render (headers.map cellText) (rows.map fun row => row.map cellText) alignments =
        .ok lines := by
  unfold ofCells
  cases cellFault? headers rows alignments <;> simp

/-- A table whose rows are as long as its headers, which are texts, is written where each cell is a
text. -/
theorem exists_ofCells_iff {headers : List Text} {rows : List (List Json)}
    {alignments : List Alignment} (hrows : ∀ row ∈ rows, row.length = headers.length)
    (halignments : alignments = [] ∨ alignments.length = headers.length) :
    (∃ lines, ofCells (headers.map .text) rows alignments = .ok lines) ↔
      ∀ row ∈ rows, ∀ cell ∈ row, ∃ t, cell = .text t := by
  simp only [← Json.exists_map_text_iff]
  constructor
  · rintro ⟨lines, hlines⟩ row hrow
    have hfault := (ofCells_eq_ok_iff.mp hlines).1
    have hwritten : (if alignments.isEmpty then headers.length
        else min headers.length alignments.length) = headers.length := by
      rcases halignments with rfl | h
      · rfl
      · rw [h, Nat.min_self, ite_self]
    simp only [cellFault?, List.length_map, hwritten, Option.orElse_eq_none,
      List.findSome?_eq_none_iff] at hfault
    obtain ⟨ts, hts⟩ := writeFault?_eq_none_iff.mp (hfault.2.2.2 row hrow)
    rw [← hrows row hrow, List.take_length] at hts
    exact ⟨ts, hts⟩
  · intro h
    obtain ⟨texts, rfl⟩ :
        ∃ texts : List (List Text), rows = texts.map fun row => row.map .text := by
      choose! texts htexts using h
      refine ⟨rows.map texts, ?_⟩
      rw [List.map_map]
      exact (List.map_id rows).symm.trans (List.map_congr_left htexts)
    have hshort : ∀ row ∈ texts, row.length ≤ headers.length := by
      intro row hrow
      simpa using (hrows _ (List.mem_map_of_mem hrow)).le
    obtain ⟨lines, hlines⟩ := exists_render hshort alignments
    exact ⟨lines, (ofCells_map_text hshort alignments).trans hlines⟩

/-- The same of a table whose rows come of steps that may fail. -/
theorem exists_mapM_ofCells_iff {α : Type} {f : α → Except Fault (List Json)} {xs : List α}
    {headers : List Text} {alignments : List Alignment}
    (hrows : ∀ x row, f x = .ok row → row.length = headers.length)
    (halignments : alignments = [] ∨ alignments.length = headers.length) :
    (∃ lines, (xs.mapM f >>= fun rows => ofCells (headers.map .text) rows alignments) =
        .ok lines) ↔
      ∀ x ∈ xs, ∃ row, f x = .ok row ∧ ∀ cell ∈ row, ∃ t, cell = .text t := by
  have htable : ∀ {rows : List (List Json)}, xs.mapM f = .ok rows →
      ((∃ lines, ofCells (headers.map .text) rows alignments = .ok lines) ↔
        ∀ row ∈ rows, ∀ cell ∈ row, ∃ t, cell = .text t) := by
    intro rows h
    refine exists_ofCells_iff (fun row hrow => ?_) halignments
    obtain ⟨x, -, hx⟩ := exists_of_mem_mapM h row hrow
    exact hrows x row hx
  simp only [bind_eq_ok]
  constructor
  · rintro ⟨lines, rows, h, hlines⟩ x hx
    obtain ⟨row, hrow, hfx⟩ := exists_mem_of_mapM h x hx
    exact ⟨row, hfx, (htable h).mp ⟨lines, hlines⟩ row hrow⟩
  · intro h
    obtain ⟨rows, hrows⟩ := exists_mapM_iff.mpr fun x hx => (h x hx).imp fun _ => And.left
    obtain ⟨lines, hlines⟩ := (htable hrows).mpr (by
      intro row hrow
      obtain ⟨x, hx, hfx⟩ := exists_of_mem_mapM hrows row hrow
      obtain ⟨row', hfx', htexts⟩ := h x hx
      obtain rfl := Except.ok.inj (hfx.symm.trans hfx')
      exact htexts)
    exact ⟨lines, rows, hrows, hlines⟩

/-! ## What the lines of a table hold -/

theorem oneLine_pad {cell : Text} (h : cell.OneLine) (width : Nat) (alignment : Alignment) :
    (pad cell width alignment).OneLine := by
  have hblanks : (blanks (width - cell.length)).OneLine := oneLine_replicate (by decide) _
  cases alignment with
  | left => exact oneLine_append h hblanks
  | right => exact oneLine_append hblanks h

theorem oneLine_rule {left middle right : Text} (hleft : left.OneLine) (hmiddle : middle.OneLine)
    (hright : right.OneLine) (ws : List Nat) : (rule left middle right ws).OneLine := by
  rw [rule, oneLine_append_iff, oneLine_append_iff]
  refine ⟨⟨hleft, oneLine_join hmiddle ?_⟩, hright⟩
  rw [List.forall_mem_map]
  exact fun w _ => oneLine_replicate (by decide) (w + 2)

theorem oneLine_line {cells : List Text} (h : ∀ cell ∈ cells, cell.OneLine) (ws : List Nat)
    (alignments : List Alignment) : (line ws alignments cells).OneLine := by
  rw [line, oneLine_append_iff, oneLine_append_iff]
  refine ⟨⟨by decide, oneLine_join (by decide) ?_⟩, by decide⟩
  rw [List.forall_mem_map]
  rintro ⟨⟨cell, width⟩, alignment⟩ hmem
  exact oneLine_pad (h cell (List.of_mem_zip (List.of_mem_zip hmem).1).1) width alignment

theorem oneLine_of_mem_render {headers : List Text} {rows : List (List Text)}
    {alignments : List Alignment} {lines : List Text}
    (hlines : render headers rows alignments = .ok lines)
    (hheaders : ∀ header ∈ headers, header.OneLine)
    (hrows : ∀ row ∈ rows, ∀ cell ∈ row, cell.OneLine) : ∀ line ∈ lines, line.OneLine := by
  obtain ⟨ws, rfl⟩ := exists_gridLines_of_render hlines
  have hrule : ∀ left middle right : String, OneLine left → OneLine middle → OneLine right →
      (rule left middle right ws).OneLine := fun _ _ _ hl hm hr => oneLine_rule hl hm hr ws
  simp only [gridLines, List.forall_mem_append, List.forall_mem_cons, List.forall_mem_map]
  exact ⟨⟨⟨hrule _ _ _ (by decide) (by decide) (by decide), oneLine_line hheaders ws _,
    hrule _ _ _ (by decide) (by decide) (by decide), List.forall_mem_nil _⟩,
    fun row hrow => oneLine_line (hrows row hrow) ws _⟩,
    hrule _ _ _ (by decide) (by decide) (by decide), List.forall_mem_nil _⟩

theorem oneLine_cellText {cell : Json} (h : ∀ t, cell = .text t → t.OneLine) :
    (cellText cell).OneLine := by
  cases cell with
  | text t => exact h t rfl
  | null | bool | int | real | list | object => exact oneLine_replicate (by decide) _

/-- The lines of a table have no line feed where its texts have none. -/
theorem oneLine_of_mem_ofCells {headers : List Text} {rows : List (List Json)}
    {alignments : List Alignment} {lines : List Text}
    (hlines : ofCells (headers.map .text) rows alignments = .ok lines)
    (hheaders : ∀ header ∈ headers, header.OneLine)
    (hrows : ∀ row ∈ rows, ∀ t, .text t ∈ row → t.OneLine) : ∀ line ∈ lines, line.OneLine := by
  apply oneLine_of_mem_render (ofCells_eq_ok_iff.mp hlines).2
  · simpa [List.forall_mem_map, cellText] using hheaders
  · rw [List.forall_mem_map]
    intro row hrow
    rw [List.forall_mem_map]
    exact fun cell hcell => oneLine_cellText fun t ht => hrows row hrow t (ht ▸ hcell)

end SolanaTx.Table
