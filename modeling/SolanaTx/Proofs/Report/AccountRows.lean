import SolanaTx.Proofs.Report.Drawing

/-!
# Rows of accounts

The block of a node in a full report has a table with one row for each account of the node. A row
ends in the state of its account, which has four dashes only where the account has no delta.
-/

namespace SolanaTx

open Fallible

/-! ## Rows of tables -/

namespace Table

variable {alignments : List Alignment} {lines : List Text}

/-- The rows of a table stand below the line of its headers, in their order. -/
theorem exists_getElem?_render {headers : List Text} {rows : List (List Text)}
    (h : render headers rows alignments = .ok lines) (halignments : alignments ≠ []) :
    ∃ ws, ∀ i row, rows[i]? = some row → lines[i + 3]? = some (line ws alignments row) := by
  obtain ⟨ws, rfl⟩ := exists_gridLines_of_render h
  refine ⟨ws, fun i row hrow => ?_⟩
  rw [getElem?_gridLines hrow, if_neg (by simpa using halignments)]

theorem exists_getElem?_ofCells {headers : List Json} {rows : List (List Json)}
    (h : ofCells headers rows alignments = .ok lines) (halignments : alignments ≠ []) :
    ∃ ws, ∀ i row, rows[i]? = some row →
      lines[i + 3]? = some (line ws alignments (row.map cellText)) := by
  obtain ⟨ws, hrows⟩ := exists_getElem?_render (ofCells_eq_ok_iff.mp h).2 halignments
  refine ⟨ws, fun i row hrow => hrows i _ ?_⟩
  rw [List.getElem?_map, hrow, Option.map_some]

end Table

namespace Report

variable {style : Style} {deltas : Option Deltas} {n : Node} {i : Nat} {a : AccountMeta}

/-! ## Rows of nodes -/

/-- What the row of an account shows: its number, key, flags and name, and the cells of its
state. -/
def rowCells (style : Style) (n : Node) (i : Nat) (a : AccountMeta) (state : List Text) :
    List Text :=
  [Decimal.ofNat i, a.pubkey.text, flags a, Table.cellText (accountName style n i a.pubkey)] ++
    state

/-- Whether a line of a drawn tree is the row of an account of a node. -/
def IsAccountRow (style : Style) (deltas : Option Deltas) (n : Node) (i : Nat) (a : AccountMeta)
    (state : List Text) (line : Text) : Prop :=
  ∃ mark ws, IsLead mark ∧
    line = mark ++ Table.line ws (accountAlignments deltas) (rowCells style n i a state)

theorem exists_row_of_accountTable {lines : List Text}
    (h : accountTable style n deltas = .ok lines) (ha : n.instruction.accounts[i]? = some a) :
    ∃ ws state, states style deltas a.pubkey = .ok state ∧
      lines[i + 3]? =
        some (Table.line ws (accountAlignments deltas) (rowCells style n i a state)) := by
  obtain ⟨rows, hrows, hlines⟩ := bind_eq_ok.mp h
  have halignments : accountAlignments deltas ≠ [] := by
    cases deltas <;> exact List.cons_ne_nil _ _
  obtain ⟨ws, hrow⟩ := Table.exists_getElem?_ofCells hlines halignments
  have hitem : n.instruction.accounts.zipIdx[i]? = some (a, i) := by
    simp [List.getElem?_zipIdx, ha]
  obtain ⟨row, hget, hcells⟩ := exists_getElem?_of_mapM hrows hitem
  obtain ⟨state, hstate, rfl⟩ := map_eq_ok.mp hcells
  refine ⟨ws, state, hstate, ?_⟩
  rw [hrow i _ hget]
  simp [rowCells, Table.cellText, Function.comp_def]

theorem exists_row_of_body {lines : List Text} (h : body style deltas n = .ok lines)
    (ha : n.instruction.accounts[i]? = some a) :
    ∃ ws state, states style deltas a.pubkey = .ok state ∧
      lines[i + 4]? =
        some (Table.line ws (accountAlignments deltas) (rowCells style n i a state)) := by
  obtain ⟨accounts, payload, haccounts, -, rfl⟩ := body_eq_ok_iff.mp h
  have hcount : n.instruction.accounts.length ≠ 0 :=
    Nat.ne_zero_of_lt (List.getElem?_eq_some_iff.mp ha).1
  rw [accountLines, if_neg hcount] at haccounts
  obtain ⟨table, htable, rfl⟩ := map_eq_ok.mp haccounts
  obtain ⟨ws, state, hstate, hrow⟩ := exists_row_of_accountTable htable ha
  refine ⟨ws, state, hstate, ?_⟩
  rw [List.cons_append, List.getElem?_cons_succ]
  rw [List.getElem?_append_left (List.getElem?_eq_some_iff.mp hrow).1]
  exact hrow

/-- In the block of a node there is a row for each of its accounts. -/
theorem exists_isAccountRow_of_draws {block : List Text}
    (h : Draws (shownBody style deltas true) n block) (ha : n.instruction.accounts[i]? = some a) :
    ∃ state line, states style deltas a.pubkey = .ok state ∧ block[i + 5]? = some line ∧
      IsAccountRow style deltas n i a state line := by
  obtain ⟨lead, mark, below, -, hmark, -, hbelow, rfl⟩ := h
  obtain ⟨ws, state, hstate, hrow⟩ := exists_row_of_body hbelow ha
  refine ⟨state, _, hstate, ?_, mark, ws, hmark, rfl⟩
  rw [List.getElem?_cons_succ, List.getElem?_map, hrow, Option.map_some]

end Report

end SolanaTx
