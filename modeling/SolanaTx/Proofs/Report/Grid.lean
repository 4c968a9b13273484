import Mathlib.Order.Bounds.Basic
import SolanaTx.Proofs.Report.Table

/-!
# The grid of a table

The separators of all lines of a table stand under each other. Between them each column has
the width of its longest entry, and each cell stands whole on one side of its place.
-/

namespace SolanaTx.Table

open Fallible

/-! ## Parts between marks -/

/-- Parts of a line between marks: one in front, one between each two parts and one at the end. -/
def framed (left middle right : CodePoint) : List Text → Text
  | [] => [right]
  | part :: rest => left :: part ++ framed middle middle right rest

/-- Where the mark in front of part `i` stands. -/
def markPlace (lengths : List Nat) (i : Nat) : Nat :=
  ((lengths.take i).map (· + 1)).sum

/-- The mark in front of part `i` of `count` parts, of which `count` itself is the one at the end. -/
def markAt (left middle right : CodePoint) (count i : Nat) : CodePoint :=
  if i = 0 then left else if i < count then middle else right

section Framed

variable {left middle right : CodePoint}

@[simp] theorem markPlace_zero (lengths : List Nat) : markPlace lengths 0 = 0 := by
  simp [markPlace]

@[simp] theorem markPlace_cons_succ (n : Nat) (lengths : List Nat) (i : Nat) :
    markPlace (n :: lengths) (i + 1) = n + 1 + markPlace lengths i := by
  simp [markPlace]

theorem markAt_succ {count i : Nat} (h : 0 < count) :
    markAt left middle right (count + 1) (i + 1) = markAt middle middle right count i := by
  cases i <;> simp [markAt, h]

theorem length_framed (parts : List Text) :
    (framed left middle right parts).length =
      markPlace (parts.map List.length) parts.length + 1 := by
  induction parts generalizing left with
  | nil => simp [framed]
  | cons part rest ih =>
      simp only [framed, List.length_append, List.length_cons, ih, List.map_cons,
        markPlace_cons_succ]
      omega

theorem head?_framed (parts : List Text) :
    (framed left middle right parts).head? = some (if parts = [] then right else left) := by
  cases parts <;> simp [framed]

theorem take_one_framed (parts : List Text) :
    (framed left middle right parts).take 1 = [if parts = [] then right else left] := by
  rw [List.take_one, head?_framed, Option.toList_some]

/-- Each part stands between its two marks. -/
theorem part_framed (left middle right : CodePoint) {parts : List Text} {i : Nat} {part : Text}
    (h : parts[i]? = some part) :
    ((framed left middle right parts).drop (markPlace (parts.map List.length) i)).take
        (part.length + 2) =
      markAt left middle right parts.length i ::
        (part ++ [markAt left middle right parts.length (i + 1)]) := by
  induction parts generalizing left i with
  | nil => simp at h
  | cons first rest ih =>
      cases i with
      | zero =>
          obtain rfl : first = part := by simpa using h
          have hlast : (if rest = [] then right else middle) =
              markAt left middle right (rest.length + 1) 1 := by
            cases rest <;> simp [markAt]
          rw [framed, markPlace_zero, List.drop_zero, List.cons_append, List.take_succ_cons,
            List.take_length_add_append, take_one_framed, hlast]
          simp [markAt]
      | succ i =>
          rw [List.getElem?_cons_succ] at h
          have hrest : 0 < rest.length :=
            Nat.zero_lt_of_lt (List.getElem?_eq_some_iff.mp h).1
          rw [framed, List.map_cons, markPlace_cons_succ, ← List.length_cons (a := left),
            List.drop_length_add_append, ih _ h, List.length_cons, markAt_succ hrest,
            markAt_succ hrest]

end Framed

theorem framed_eq_join (left middle right : CodePoint) {parts : List Text} (h : parts ≠ []) :
    framed left middle right parts = left :: (Text.join [middle] parts ++ [right]) := by
  induction parts generalizing left with
  | nil => exact absurd rfl h
  | cons part rest ih =>
      cases rest with
      | nil => simp [framed, Text.join]
      | cons next rest =>
          rw [framed, ih middle (List.cons_ne_nil next rest), Text.join, Text.join,
            List.intercalate_cons_cons]
          simp

/-! ## Widths of columns -/

/-- The lengths of the entries of a column. -/
def entryLengths (lists : List (List Text)) (i : Nat) : Set Nat :=
  {n | ∃ cells ∈ lists, ∃ cell, cells[i]? = some cell ∧ cell.length = n}

theorem entryLengths_concat {lists : List (List Text)} {cells : List Text} {i : Nat}
    (h : i < cells.length) :
    entryLengths (lists ++ [cells]) i = insert cells[i].length (entryLengths lists i) := by
  ext n
  simp [entryLengths, h, or_and_right, exists_or, or_comm, eq_comm]

theorem getElem?_widen {ws wider : List Nat} {cells : List Text} (h : widen ws cells = .ok wider)
    (i : Nat) : wider[i]? = ws[i]?.map fun w => max w ((cells[i]?.map List.length).getD 0) := by
  induction cells generalizing ws wider i with
  | nil =>
      obtain rfl : ws = wider := by cases ws <;> simpa [widen] using h
      simp
  | cons cell rest ih =>
      cases ws with
      | nil => cases h
      | cons w ws =>
          obtain ⟨others, hothers, rfl⟩ := map_eq_ok.mp h
          cases i with
          | zero => simp
          | succ i => simpa using ih hothers i

/-- Each column is as wide as its longest entry. -/
theorem exists_widths {headers : List Text} {rows : List (List Text)}
    (h : ∀ row ∈ rows, row.length = headers.length) :
    ∃ ws, widths headers rows = .ok ws ∧ ws.length = headers.length ∧
      ∀ i w, ws[i]? = some w → IsGreatest (entryLengths (headers :: rows) i) w := by
  induction rows using List.reverseRecOn with
  | nil =>
      refine ⟨headers.map List.length, rfl, List.length_map _, fun i w hw => ?_⟩
      obtain ⟨header, hheader, rfl⟩ := by simpa using hw
      constructor
      · exact ⟨headers, List.mem_singleton_self headers, header, hheader, rfl⟩
      · rintro n ⟨cells, hcells, cell, hcell, rfl⟩
        obtain rfl := List.mem_singleton.mp hcells
        simp_all
  | append_singleton rows row ih =>
      rw [List.forall_mem_append] at h
      obtain ⟨ws, hws, hlength, hgreatest⟩ := ih h.1
      have hrow : row.length = headers.length := h.2 row (List.mem_singleton_self row)
      obtain ⟨wider, hwider, hsame⟩ := exists_widen (hrow.trans hlength.symm).le
      refine ⟨wider, ?_, hsame.trans hlength, fun i n hn => ?_⟩
      · rw [widths, List.foldlM_append, ← widths, hws, ok_bind, List.foldlM_cons, hwider]
        rfl
      · rw [getElem?_widen hwider] at hn
        obtain ⟨w, hw, rfl⟩ := Option.map_eq_some_iff.mp hn
        have hi : i < row.length := by
          have := (List.getElem?_eq_some_iff.mp hw).1
          omega
        rw [← List.cons_append, entryLengths_concat hi, List.getElem?_eq_getElem hi, max_comm]
        exact (hgreatest i w hw).insert row[i].length

/-! ## Lines of cells -/

/-- Whether a cell stands whole on one side of a field, and nothing but blanks on the other. -/
def IsFlush (right : Prop) (cell field : Text) (width : Nat) : Prop :=
  field.length = width ∧
    ((right ∧ ∃ n, field = blanks n ++ cell) ∨ (¬right ∧ ∃ n, field = cell ++ blanks n))

theorem isFlush_pad {cell : Text} {width : Nat} (h : cell.length ≤ width) (a : Alignment) :
    IsFlush (a = .right) cell (pad cell width a) width := by
  cases a with
  | left => exact ⟨by simp [pad, blanks, h], .inr ⟨by simp, _, rfl⟩⟩
  | right => exact ⟨by simp [pad, blanks, h], .inl ⟨rfl, _, rfl⟩⟩

/-- The cells of a row, filled up to the widths. -/
def fields (ws : List Nat) (alignments : List Alignment) (cells : List Text) : List Text :=
  ((cells.zip ws).zip alignments).map fun ((cell, width), a) => pad cell width a

/-- Whether the cells of a row fit the widths, one for each. -/
def Fit (ws : List Nat) (cells : List Text) : Prop :=
  List.Forall₂ (fun cell width => cell.length ≤ width) cells ws

section Line

variable {ws : List Nat} {cells : List Text} {alignments : List Alignment}

theorem getElem?_fields {i : Nat} {cell : Text} {width : Nat} {a : Alignment}
    (hcell : cells[i]? = some cell) (hwidth : ws[i]? = some width) (ha : alignments[i]? = some a) :
    (fields ws alignments cells)[i]? = some (pad cell width a) := by
  have hzip : ((cells.zip ws).zip alignments)[i]? = some ((cell, width), a) := by
    simp [List.getElem?_zip_eq_some, hcell, hwidth, ha]
  rw [fields, List.getElem?_map, hzip, Option.map_some]

/-- Cells that fit are filled up to the widths. -/
theorem map_length_fields (h : Fit ws cells) (halignments : alignments.length = ws.length) :
    (fields ws alignments cells).map List.length = ws := by
  induction h generalizing alignments with
  | nil => simp [fields]
  | cons hle _ ih =>
      cases alignments with
      | nil => simp at halignments
      | cons a rest =>
          have hrest := ih (Nat.succ_inj.mp halignments)
          simp only [fields] at hrest
          simp [fields, hrest, (isFlush_pad hle a).1]

/-- A part of a line with a blank on both sides. -/
def spaced (part : Text) : Text :=
  " " ++ part ++ " "

theorem join_spaced {parts : List Text} (h : parts ≠ []) :
    Text.join "│" (parts.map spaced) = spaced (Text.join " │ " parts) := by
  induction parts with
  | nil => exact absurd rfl h
  | cons part rest ih =>
      cases rest with
      | nil => simp [Text.join]
      | cons next rest =>
          have hrest := ih (List.cons_ne_nil next rest)
          have hmark : (" │ " : Text) = " " ++ "│" ++ " " := rfl
          simp only [Text.join, List.map_cons, List.intercalate_cons_cons] at hrest ⊢
          rw [hrest, hmark]
          simp [spaced]

theorem line_eq_framed (h : Fit ws cells) (halignments : alignments.length = ws.length)
    (hws : ws ≠ []) : line ws alignments cells =
      framed '│' '│' '│' ((fields ws alignments cells).map spaced) := by
  have hfields : fields ws alignments cells ≠ [] := by
    rintro hnil
    exact hws (by simpa [hnil] using (map_length_fields h halignments).symm)
  rw [framed_eq_join _ _ _ (by simpa using hfields)]
  have hleft : ("│ " : Text) = CodePoint.char '│' :: " " := rfl
  have hright : (" │" : Text) = " " ++ [CodePoint.char '│'] := rfl
  have hmark : [CodePoint.char '│'] = ("│" : Text) := rfl
  rw [hmark, join_spaced hfields, line, hleft, hright, ← hmark]
  simp [spaced, fields]

theorem map_length_spaced (parts : List Text) :
    (parts.map spaced).map List.length = (parts.map List.length).map (· + 2) := by
  have hspaced : ∀ part : Text, (spaced part).length = part.length + 2 := by
    intro part
    have hblank : (" " : Text).length = 1 := rfl
    simp only [spaced, List.length_append, hblank]
    omega
  simp [Function.comp_def, hspaced]

end Line

/-! ## Places of columns -/

/-- Where the separator in front of a column stands in each line. There is a blank on both sides of
the column. -/
def columnStart (ws : List Nat) (i : Nat) : Nat :=
  markPlace (ws.map (· + 2)) i

/-- What a line has from the separator in front of a column to the one behind it. -/
def column (ws : List Nat) (i width : Nat) (line : Text) : Text :=
  (line.drop (columnStart ws i)).take (width + 4)

section Line

variable {ws : List Nat} {cells : List Text} {alignments : List Alignment}

theorem length_line (h : Fit ws cells) (halignments : alignments.length = ws.length)
    (hws : ws ≠ []) : (line ws alignments cells).length = columnStart ws ws.length + 1 := by
  have hcount : (fields ws alignments cells).length = ws.length := by
    simpa using congrArg List.length (map_length_fields h halignments)
  rw [line_eq_framed h halignments hws, length_framed, map_length_spaced,
    map_length_fields h halignments, List.length_map, hcount, columnStart]

theorem Fit.le (h : Fit ws cells) {i : Nat} {cell : Text} {width : Nat}
    (hcell : cells[i]? = some cell) (hwidth : ws[i]? = some width) : cell.length ≤ width :=
  (List.forall₂_iff_zip.mp h).2
    (List.mem_of_getElem? (List.getElem?_zip_eq_some.mpr ⟨hcell, hwidth⟩))

/-- Each cell of a line stands filled up between its separators. -/
theorem column_line (h : Fit ws cells) (halignments : alignments.length = ws.length) {i : Nat}
    {cell : Text} {width : Nat} {a : Alignment} (hcell : cells[i]? = some cell)
    (hwidth : ws[i]? = some width) (ha : alignments[i]? = some a) :
    column ws i width (line ws alignments cells) = "│ " ++ pad cell width a ++ " │" := by
  have hws : ws ≠ [] := by
    rintro rfl
    simp at hwidth
  have hwide : (spaced (pad cell width a)).length = width + 2 := by
    simp [spaced, (isFlush_pad (h.le hcell hwidth) a).1, Text.ofString, Text.ofChars]
  have hpart : ((fields ws alignments cells).map spaced)[i]? = some (spaced (pad cell width a)) := by
    rw [List.getElem?_map, getElem?_fields hcell hwidth ha, Option.map_some]
  have hframed := part_framed '│' '│' '│' hpart
  rw [hwide, map_length_spaced, map_length_fields h halignments] at hframed
  rw [column, columnStart, line_eq_framed h halignments hws, hframed]
  simp [markAt, spaced, Text.ofString, Text.ofChars]

end Line

/-! ## Rules -/

section Rule

variable {ws : List Nat} (left middle right : Char)

/-- The line between two marks of a rule, over a column and its blanks. -/
def dashes (width : Nat) : Text :=
  List.replicate (width + 2) '─'

theorem rule_eq_framed (hws : ws ≠ []) :
    rule [CodePoint.char left] [CodePoint.char middle] [CodePoint.char right] ws =
      framed left middle right (ws.map dashes) := by
  rw [framed_eq_join _ _ _ (by simpa using hws)]
  rfl

theorem length_rule (hws : ws ≠ []) :
    (rule [CodePoint.char left] [CodePoint.char middle] [CodePoint.char right] ws).length =
      columnStart ws ws.length + 1 := by
  rw [rule_eq_framed left middle right hws, length_framed]
  simp [columnStart, dashes, Function.comp_def]

/-- The marks of a rule stand where the separators of the other lines stand. -/
theorem column_rule {i width : Nat} (hwidth : ws[i]? = some width) :
    column ws i width
        (rule [CodePoint.char left] [CodePoint.char middle] [CodePoint.char right] ws) =
      markAt left middle right ws.length i ::
        (dashes width ++ [markAt left middle right ws.length (i + 1)]) := by
  have hws : ws ≠ [] := by
    rintro rfl
    simp at hwidth
  have hpart : (ws.map dashes)[i]? = some (dashes width) := by
    simp [hwidth]
  have hframed := part_framed left middle right hpart
  rw [rule_eq_framed left middle right hws, column, columnStart]
  simpa [dashes, Function.comp_def] using hframed

end Rule

/-! ## The whole table -/

/-- Whether a line shows each cell of a row between the separators of its column, flush on the
right in the columns asked for and on the left in the others. -/
def Shows (ws : List Nat) (right : Nat → Prop) (cells : List Text) (line : Text) : Prop :=
  ∀ i cell, cells[i]? = some cell → ∃ width field, ws[i]? = some width ∧
    IsFlush (right i) cell field width ∧ column ws i width line = "│ " ++ field ++ " │"

/-- Whether a line is a rule with its marks in the places of the separators. -/
def IsRule (ws : List Nat) (left middle right : Char) (line : Text) : Prop :=
  ∀ i width, ws[i]? = some width → column ws i width line =
    markAt left middle right ws.length i ::
      (dashes width ++ [markAt left middle right ws.length (i + 1)])

/-- Whether lines are the grid of headers and rows, in columns of some widths. -/
structure IsGrid (headers : List Text) (rows : List (List Text)) (right : Nat → Prop)
    (ws : List Nat) (lines : List Text) : Prop where
  lineCount : lines.length = rows.length + 4
  columnCount : ws.length = headers.length
  rectangular : ∀ line ∈ lines, line.length = columnStart ws ws.length + 1
  longest : ∀ i width, ws[i]? = some width → IsGreatest (entryLengths (headers :: rows) i) width
  top : ∃ line, lines[0]? = some line ∧ IsRule ws '┌' '┬' '┐' line
  titles : ∃ line, lines[1]? = some line ∧ Shows ws (fun _ => False) headers line
  middle : ∃ line, lines[2]? = some line ∧ IsRule ws '├' '┼' '┤' line
  cells : ∀ r row, rows[r]? = some row → ∃ line, lines[r + 3]? = some line ∧ Shows ws right row line
  bottom : ∃ line, lines[rows.length + 3]? = some line ∧ IsRule ws '└' '┴' '┘' line

theorem isRule_rule (ws : List Nat) (left middle right : Char) :
    IsRule ws left middle right
      (rule [CodePoint.char left] [CodePoint.char middle] [CodePoint.char right] ws) :=
  fun _ _ => column_rule left middle right

theorem shows_line {ws : List Nat} {cells : List Text} {alignments : List Alignment}
    {right : Nat → Prop} (h : Fit ws cells) (halignments : alignments.length = ws.length)
    (hright : ∀ i a, alignments[i]? = some a → (a = .right ↔ right i)) :
    Shows ws right cells (line ws alignments cells) := by
  intro i cell hcell
  have hi : i < ws.length := by
    rw [← h.length_eq]
    exact (List.getElem?_eq_some_iff.mp hcell).1
  have hwidth : ws[i]? = some ws[i] := List.getElem?_eq_getElem hi
  have ha : alignments[i]? = some alignments[i] := List.getElem?_eq_getElem (by omega)
  refine ⟨ws[i], pad cell ws[i] alignments[i], hwidth, ?_,
    column_line h halignments hcell hwidth ha⟩
  rw [← hright i _ ha]
  exact isFlush_pad (h.le hcell hwidth) _

/-- The alignments that a table is written with, for the marks that are given. -/
def chosen (headers : List Text) (marks : Option (List Text)) : List Alignment :=
  match marks with
  | some marks => marks.map .ofText
  | none => headers.map fun _ => .left

/-- Whether the mark that is given for a column asks for its right side. -/
def AsksRight (marks : Option (List Text)) (i : Nat) : Prop :=
  marks.bind (·[i]?) = some (Text.ofString ">")

theorem length_chosen {headers : List Text} {marks : Option (List Text)}
    (h : ∀ given, marks = some given → given.length = headers.length) :
    (chosen headers marks).length = headers.length := by
  cases marks with
  | none => simp [chosen]
  | some given => simp [chosen, h]

theorem eq_left_of_getElem? {headers : List Text} {i : Nat} {a : Alignment}
    (h : (headers.map fun _ => Alignment.left)[i]? = some a) : a = .left := by
  simp only [List.getElem?_map, Option.map_eq_some_iff] at h
  tauto

theorem eq_right_iff_of_getElem?_chosen {headers : List Text} {marks : Option (List Text)} {i : Nat}
    {a : Alignment} (h : (chosen headers marks)[i]? = some a) :
    a = .right ↔ AsksRight marks i := by
  cases marks with
  | none =>
      obtain rfl := eq_left_of_getElem? h
      simp [AsksRight]
  | some given =>
      obtain ⟨mark, hmark, rfl⟩ := by simpa [chosen] using h
      simp [hmark, Alignment.ofText, AsksRight]

theorem ite_isEmpty_eq_chosen {headers : List Text} {marks : Option (List Text)}
    (hheaders : headers ≠ []) (h : ∀ given, marks = some given → given.length = headers.length) :
    (if ((marks.getD []).map Alignment.ofText).isEmpty then headers.map fun _ => Alignment.left
      else (marks.getD []).map .ofText) = chosen headers marks := by
  cases marks with
  | none => simp [chosen]
  | some given =>
      have hgiven : given ≠ [] := by
        rintro rfl
        exact hheaders (List.length_eq_zero_iff.mp (h [] rfl).symm)
      simp [chosen, hgiven]

theorem isGrid_gridLines {headers : List Text} {rows : List (List Text)} {ws : List Nat}
    {alignments : List Alignment} {right : Nat → Prop} (hheaders : headers ≠ [])
    (hrows : ∀ row ∈ rows, row.length = headers.length) (hcount : ws.length = headers.length)
    (hlongest : ∀ i w, ws[i]? = some w → IsGreatest (entryLengths (headers :: rows) i) w)
    (halignments : alignments.length = headers.length)
    (hright : ∀ i a, alignments[i]? = some a → (a = .right ↔ right i)) :
    IsGrid headers rows right ws (gridLines headers rows alignments ws) := by
  have hws : ws ≠ [] := by
    rintro rfl
    exact hheaders (List.length_eq_zero_iff.mp hcount.symm)
  have hfit : ∀ cells ∈ headers :: rows, Fit ws cells := by
    intro cells hcells
    have hlength : cells.length = ws.length := by
      rw [hcount]
      exact (List.forall_mem_cons (p := fun row => row.length = headers.length)).mpr
        ⟨rfl, hrows⟩ cells hcells
    refine List.forall₂_iff_get.mpr ⟨hlength, fun i hi hi' => ?_⟩
    exact (hlongest i _ (List.getElem?_eq_getElem hi')).2
      ⟨cells, hcells, cells[i], List.getElem?_eq_getElem hi, rfl⟩
  obtain ⟨hfitHeaders, hfitRows⟩ := List.forall_mem_cons.mp hfit
  constructor
  case lineCount => simp [gridLines]
  case columnCount => exact hcount
  case rectangular =>
    simp only [gridLines, List.forall_mem_append, List.forall_mem_cons, List.forall_mem_map]
    exact ⟨⟨⟨length_rule '┌' '┬' '┐' hws, length_line hfitHeaders (by simp [hcount]) hws,
      length_rule '├' '┼' '┤' hws, List.forall_mem_nil _⟩,
      fun row hrow => length_line (hfitRows row hrow) (by omega) hws⟩,
      length_rule '└' '┴' '┘' hws, List.forall_mem_nil _⟩
  case longest => exact hlongest
  case top => exact ⟨_, rfl, isRule_rule ws '┌' '┬' '┐'⟩
  case titles =>
    refine ⟨_, rfl, shows_line hfitHeaders (by simp [hcount]) fun i a ha => ?_⟩
    obtain rfl := eq_left_of_getElem? ha
    simp
  case middle => exact ⟨_, rfl, isRule_rule ws '├' '┼' '┤'⟩
  case cells =>
    intro r row hrow
    exact ⟨_, getElem?_gridLines hrow, shows_line (hfitRows row (List.mem_of_getElem? hrow))
      (by omega) hright⟩
  case bottom =>
    exact ⟨rule "└" "┴" "┘" ws, by simp [gridLines], isRule_rule ws '└' '┴' '┘'⟩

/-- A table of texts is written as a grid. -/
theorem ofCells_grid {headers : List Text} {rows : List (List Text)} {marks : Option (List Text)}
    (hheaders : headers ≠ []) (hrows : ∀ row ∈ rows, row.length = headers.length)
    (hmarks : ∀ given, marks = some given → given.length = headers.length) :
    ∃ ws lines,
      ofCells (headers.map .text) (rows.map fun row => row.map .text)
        ((marks.getD []).map .ofText) = .ok lines ∧
      IsGrid headers rows (AsksRight marks) ws lines := by
  obtain ⟨ws, hwidths, hcount, hlongest⟩ := exists_widths hrows
  refine ⟨ws, gridLines headers rows (chosen headers marks) ws, ?_, ?_⟩
  · rw [ofCells_map_text fun row hrow => (hrows row hrow).le, render_of_widths hwidths,
      ite_isEmpty_eq_chosen hheaders hmarks]
  · exact isGrid_gridLines hheaders hrows hcount hlongest (length_chosen hmarks)
      fun _ _ => eq_right_iff_of_getElem?_chosen

theorem ofCells_grid_flags :
    (["#", "Flags"] : List Text) ≠ [] ∧
    (∀ row ∈ ([["9", "S-"], ["10", ""]] : List (List Text)), row.length = 2) ∧
    (∀ given, some ([">", "<"] : List Text) = some given → given.length = 2) ∧
    ∃ ws lines,
      ofCells [.text "#", .text "Flags"] [[.text "9", .text "S-"], [.text "10", .text ""]]
        [.ofText ">", .ofText "<"] = .ok lines ∧
      IsGrid ["#", "Flags"] [["9", "S-"], ["10", ""]] (AsksRight (some [">", "<"])) ws lines := by
  have hheaders : (["#", "Flags"] : List Text) ≠ [] := List.cons_ne_nil _ _
  have hrows : ∀ row ∈ ([["9", "S-"], ["10", ""]] : List (List Text)), row.length = 2 := by simp
  have hmarks : ∀ given, some ([">", "<"] : List Text) = some given → given.length = 2 := by simp
  exact ⟨hheaders, hrows, hmarks, ofCells_grid hheaders hrows hmarks⟩

end SolanaTx.Table
