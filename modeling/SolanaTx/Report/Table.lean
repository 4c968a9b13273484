import SolanaTx.Json.Access

/-!
# Tables in text

Columns are as wide as their longest cell, and lines of box characters stand
around them. Widths count characters.
-/

namespace SolanaTx

inductive Alignment where
  | left
  | right
  deriving DecidableEq

def Alignment.ofText (t : Text) : Alignment :=
  if t = ">" then right else left

namespace Table

def blanks (n : Nat) : Text :=
  List.replicate n ' '

/-- A cell filled up to a width. A longer cell stays as it is. -/
def pad (cell : Text) (width : Nat) : Alignment → Text
  | .left => cell ++ blanks (width - cell.length)
  | .right => blanks (width - cell.length) ++ cell

/-- Widths that fit the cells of one more row. A row has no more cells than there are widths. -/
def widen : List Nat → List Text → Except Fault (List Nat)
  | widths, [] => .ok widths
  | [], _ :: _ => .error .outOfRange
  | width :: widths, cell :: cells => (widen widths cells).map (max width cell.length :: ·)

def widths (headers : List Text) (rows : List (List Text)) : Except Fault (List Nat) :=
  rows.foldlM widen (headers.map List.length)

/-- A line between rows. -/
def rule (left middle right : Text) (widths : List Nat) : Text :=
  left ++ Text.join middle (widths.map fun w => List.replicate (w + 2) '─') ++ right

/-- The line of a row. -/
def line (widths : List Nat) (alignments : List Alignment) (cells : List Text) : Text :=
  let padded := ((cells.zip widths).zip alignments).map fun ((cell, width), alignment) =>
    pad cell width alignment
  "│ " ++ Text.join " │ " padded ++ " │"

/-- The lines of a table. Columns are aligned to the left where no alignments are given, and headers
always are. -/
def render (headers : List Text) (rows : List (List Text)) (alignments : List Alignment) :
    Except Fault (List Text) := do
  let plain := headers.map fun _ => Alignment.left
  let alignments := if alignments.isEmpty then plain else alignments
  let ws ← widths headers rows
  pure ([rule "┌" "┬" "┐" ws, line ws plain headers, rule "├" "┼" "┤" ws] ++
    rows.map (line ws alignments) ++ [rule "└" "┴" "┘" ws])

/-! ## Cells that need not be texts -/

/-- The length of a cell, which a list and an object have too. -/
def cellLength? : Json → Option Nat
  | .text t => some t.length
  | .list items => some items.length
  | .object fields => some fields.length
  | _ => none

/-- Why the cells of a row cannot be measured for a number of columns. -/
def measureFault? : Nat → List Json → Option Fault
  | _, [] => none
  | 0, _ :: _ => some .outOfRange
  | columns + 1, cell :: rest =>
      if (cellLength? cell).isSome then measureFault? columns rest else some .wrongKind

/-- Why the cells of a row cannot be written in a number of columns. -/
def writeFault? (columns : Nat) (cells : List Json) : Option Fault :=
  match Json.texts (cells.take columns) with
  | .ok _ => none
  | .error _ => some .noSuchMember

/-- Why cells make no table. All of them are measured before the first is written, and cells beyond
the alignments given are not written at all. -/
def cellFault? (headers : List Json) (rows : List (List Json)) (alignments : List Alignment) :
    Option Fault :=
  let columns := headers.length
  let written := if alignments.isEmpty then columns else min columns alignments.length
  measureFault? columns headers <|> rows.findSome? (measureFault? columns) <|>
    writeFault? columns headers <|> rows.findSome? (writeFault? written)

/-- What takes the place of a cell. One that is no text is measured and not written. -/
def cellText (cell : Json) : Text :=
  match cell with
  | .text t => t
  | cell => blanks ((cellLength? cell).getD 0)

/-- The lines of a table of unchecked cells. -/
def ofCells (headers : List Json) (rows : List (List Json)) (alignments : List Alignment) :
    Except Fault (List Text) :=
  match cellFault? headers rows alignments with
  | some fault => .error fault
  | none => render (headers.map cellText) (rows.map fun row => row.map cellText) alignments

end Table

end SolanaTx
