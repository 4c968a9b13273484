import Mathlib.Data.List.Induction
import SolanaTx.Proofs.Program.Decoding

/-!
# Rows that make a table

Rows make a table where their discriminators have the size of the table and are all different. The
first row that breaks this rule is the one that is blamed, and where no row does, the order of the
rows makes no difference.
-/

namespace SolanaTx

open Fallible

variable {label : Text} {size : Nat} {seen : List (Bytes × Text)}
  {rows before rest : List InstructionRow} {row : InstructionRow} {e : TableError}

/-- Whether rows have different discriminators of one size. -/
structure RowsFit (size : Nat) (rows : List InstructionRow) : Prop where
  length_eq : ∀ row ∈ rows, row.discriminator.length = size
  nodup : (rows.map (·.discriminator)).Nodup

/-- What a table keeps of a row while it looks for another one with the same discriminator. -/
def InstructionRow.declared (row : InstructionRow) : Bytes × Text :=
  (row.discriminator, row.name)

/-- The first row that breaks a rule, and how: the rows before it fit. -/
inductive Offends (label : Text) (size : Nat) (rows : List InstructionRow) : TableError → Prop
  | wrongLength {before after : List InstructionRow} {row : InstructionRow} :
      rows = before ++ row :: after → RowsFit size before → row.discriminator.length ≠ size →
      Offends label size rows (.wrongLength label row.name row.discriminator.length size)
  | duplicate {before after : List InstructionRow} {first row : InstructionRow} :
      rows = before ++ row :: after → RowsFit size before → row.discriminator.length = size →
      first ∈ before → first.discriminator = row.discriminator →
      Offends label size rows (.duplicate label row.discriminator first.name row.name)

/-! ## The search for an offence -/

theorem RowsFit.perm {rows' : List InstructionRow} (h : RowsFit size rows)
    (hperm : rows.Perm rows') : RowsFit size rows' :=
  ⟨fun row hrow => h.length_eq row (hperm.mem_iff.mpr hrow),
    (hperm.map (·.discriminator)).nodup_iff.mp h.nodup⟩

theorem RowsFit.sublist {rows' : List InstructionRow} (h : RowsFit size rows)
    (hsub : rows'.Sublist rows) : RowsFit size rows' :=
  ⟨fun row hrow => h.length_eq row (hsub.subset hrow), h.nodup.sublist (hsub.map _)⟩

theorem rowsFit_concat_iff :
    RowsFit size (before ++ [row]) ↔ RowsFit size before ∧ row.discriminator.length = size ∧
      ∀ other ∈ before, other.discriminator ≠ row.discriminator := by
  constructor
  · intro h
    have hnodup := h.nodup
    rw [List.map_append, List.map_singleton, List.nodup_append] at hnodup
    refine ⟨⟨fun other hother => h.length_eq other (List.mem_append_left _ hother), hnodup.1⟩,
      h.length_eq row (List.mem_append_right _ (List.mem_singleton_self row)), ?_⟩
    intro other hother
    exact hnodup.2.2 _ (List.mem_map_of_mem hother) _ (List.mem_singleton_self _)
  · rintro ⟨hbefore, hlength, hfresh⟩
    constructor
    · intro other hother
      rcases List.mem_append.mp hother with hother | hother
      · exact hbefore.length_eq other hother
      · rw [List.mem_singleton.mp hother]
        exact hlength
    · rw [List.map_append, List.map_singleton, List.nodup_append]
      refine ⟨hbefore.nodup, List.nodup_singleton _, ?_⟩
      intro d hd d' hd'
      obtain ⟨other, hother, rfl⟩ := List.mem_map.mp hd
      rw [List.mem_singleton.mp hd']
      exact hfresh other hother

theorem lookup_declared_eq_none_iff {d : Bytes} :
    (before.map InstructionRow.declared).lookup d = none ↔
      ∀ row ∈ before, row.discriminator ≠ d := by
  rw [List.lookup_eq_none_iff, List.forall_mem_map]
  refine forall₂_congr fun row _ => ?_
  rw [bne_iff_ne]
  exact ne_comm

theorem exists_of_lookup_declared {d : Bytes} {name : Text}
    (h : (before.map InstructionRow.declared).lookup d = some name) :
    ∃ first ∈ before, first.discriminator = d ∧ first.name = name := by
  obtain ⟨earlier, later, hparts, -⟩ := List.lookup_eq_some_iff.mp h
  have hmem : (d, name) ∈ before.map InstructionRow.declared := by
    rw [hparts]
    exact List.mem_append_right earlier List.mem_cons_self
  obtain ⟨first, hfirst, hdeclared⟩ := List.mem_map.mp hmem
  obtain ⟨hsame, hname⟩ := Prod.mk.inj hdeclared
  exact ⟨first, hfirst, hsame, hname⟩

/-- Among rows with different discriminators the declared name is that of the row itself. -/
theorem lookup_declared {first : InstructionRow}
    (hnodup : (before.map (·.discriminator)).Nodup) (hfirst : first ∈ before) :
    (before.map InstructionRow.declared).lookup first.discriminator = some first.name := by
  induction before with
  | nil => cases hfirst
  | cons head tail ih =>
      rw [List.map_cons, List.nodup_cons] at hnodup
      rw [List.map_cons, InstructionRow.declared, List.lookup_cons]
      rcases List.mem_cons.mp hfirst with rfl | hmem
      · rw [beq_self_eq_true]
      · have hne : first.discriminator ≠ head.discriminator := by
          intro heq
          exact hnodup.1 (heq ▸ List.mem_map_of_mem hmem)
        rw [beq_false_of_ne hne]
        exact ih hnodup.2 hmem

/-- Rows without an offence are kept in mind for the rows behind them. -/
theorem findOffence?_append (h : findOffence? label size seen before = none) :
    findOffence? label size seen (before ++ rest) =
      findOffence? label size (seen ++ before.map InstructionRow.declared) rest := by
  induction before generalizing seen with
  | nil => rw [List.nil_append, List.map_nil, List.append_nil]
  | cons row before ih =>
      rw [findOffence?] at h
      rw [List.cons_append, findOffence?]
      split at h
      · cases h
      · next hlength =>
        rw [if_neg hlength]
        split at h
        · cases h
        · next hfresh =>
          rw [ih h, List.append_assoc]
          rfl

theorem findOffence?_eq_none_iff (label : Text) :
    findOffence? label size [] rows = none ↔ RowsFit size rows := by
  constructor
  · intro h
    obtain ⟨hlength, hnodup, -⟩ := findOffence?_eq_none h
    exact ⟨hlength, hnodup⟩
  · intro h
    induction rows using List.reverseRecOn with
    | nil => rfl
    | append_singleton before row ih =>
        obtain ⟨hbefore, hlength, hfresh⟩ := rowsFit_concat_iff.mp h
        rw [findOffence?_append (ih hbefore), List.nil_append, findOffence?,
          if_neg (not_not.mpr hlength), lookup_declared_eq_none_iff.mpr hfresh]
        rfl

theorem offends_of_findOffence? (hbefore : RowsFit size before)
    (h : findOffence? label size (before.map InstructionRow.declared) rest = some e) :
    Offends label size (before ++ rest) e := by
  induction rest generalizing before with
  | nil => cases h
  | cons row rest ih =>
      rw [findOffence?] at h
      split at h
      · next hlength =>
        cases h
        exact .wrongLength rfl hbefore hlength
      · next hlength =>
        have hlength := not_not.mp hlength
        split at h
        · next name hname =>
          cases h
          obtain ⟨first, hfirst, hsame, rfl⟩ := exists_of_lookup_declared hname
          exact .duplicate rfl hbefore hlength hfirst hsame
        · next hfresh =>
          have hnext : RowsFit size (before ++ [row]) :=
            rowsFit_concat_iff.mpr ⟨hbefore, hlength, lookup_declared_eq_none_iff.mp hfresh⟩
          rw [List.append_cons]
          apply ih hnext
          rw [List.map_append]
          exact h

theorem findOffence?_of_offends (h : Offends label size rows e) :
    findOffence? label size [] rows = some e := by
  cases h with
  | wrongLength hrows hbefore hlength =>
      rw [hrows, findOffence?_append ((findOffence?_eq_none_iff label).mpr hbefore), findOffence?,
        if_pos hlength]
  | duplicate hrows hbefore hlength hfirst hsame =>
      rw [hrows, findOffence?_append ((findOffence?_eq_none_iff label).mpr hbefore), findOffence?,
        if_neg (not_not.mpr hlength), List.nil_append, ← hsame,
        lookup_declared hbefore.nodup hfirst]

theorem findOffence?_eq_some_iff :
    findOffence? label size [] rows = some e ↔ Offends label size rows e := by
  refine ⟨fun h => ?_, findOffence?_of_offends⟩
  have hnone : RowsFit size [] := (findOffence?_eq_none_iff label).mp rfl
  exact offends_of_findOffence? hnone h

/-! ## Tables -/

namespace ProgramTable

variable {program : Pubkey} {size : Int} {t t' : ProgramTable} {rows' : List InstructionRow}

@[ext]
theorem ext (hprogram : t.program = t'.program) (hlabel : t.label = t'.label)
    (hsize : t.size = t'.size) (hrows : t.rows = t'.rows) : t = t' := by
  cases t
  cases t'
  congr

/-- The sizes that discriminators may have. -/
def SupportedSize (size : Int) : Prop :=
  size = 1 ∨ size = 4 ∨ size = 8

theorem supportedSize_iff :
    (size.toNat = 1 ∨ size.toNat = 4 ∨ size.toNat = 8) ↔ SupportedSize size := by
  simp only [SupportedSize]
  omega

theorem ofRows_of_not_supported (h : ¬ SupportedSize size) :
    ofRows program label size rows = .error (.unsupportedSize label size) := by
  rw [ofRows, dif_neg (supportedSize_iff.not.mpr h)]

theorem ofRows_eq_error_iff (h : SupportedSize size) :
    ofRows program label size rows = .error e ↔ Offends label size.toNat rows e := by
  rw [← findOffence?_eq_some_iff, ofRows, dif_pos (supportedSize_iff.mpr h)]
  split
  · next e' he' => rw [he', Except.error.injEq, Option.some.injEq]
  · next hnone => simp [hnone]

theorem exists_ofRows_iff :
    (∃ t, ofRows program label size rows = .ok t) ↔
      SupportedSize size ∧ RowsFit size.toNat rows := by
  by_cases h : SupportedSize size
  · rw [← findOffence?_eq_none_iff label, ofRows, dif_pos (supportedSize_iff.mpr h)]
    split
    · next e' he' => simp [he']
    · next hnone => simp [hnone, h]
  · rw [ofRows_of_not_supported h]
    simp [h]

theorem program_eq_of_ofRows (h : ofRows program label size rows = .ok t) :
    t.program = program ∧ t.size = size.toNat := by
  unfold ofRows at h
  split at h
  · split at h
    · cases h
    · cases h
      exact ⟨rfl, rfl⟩
  · cases h

/-- A table is the one of its own parts. -/
theorem ofRows_eq_ok_iff : ofRows program label size rows = .ok t ↔
    SupportedSize size ∧ t.program = program ∧ t.label = label ∧ t.size = size.toNat ∧
      t.rows = rows := by
  constructor
  · intro h
    obtain ⟨hlabel, hrows⟩ := eq_of_ofRows_eq_ok h
    obtain ⟨hprogram, hsize⟩ := program_eq_of_ofRows h
    exact ⟨(exists_ofRows_iff.mp ⟨t, h⟩).1, hprogram, hlabel, hsize, hrows⟩
  · rintro ⟨hsupported, rfl, rfl, hsize, rfl⟩
    have hfit : RowsFit size.toNat t.rows := hsize ▸ ⟨t.length_eq, t.nodup⟩
    obtain ⟨t', ht'⟩ : ∃ t', ofRows t.program t.label size t.rows = .ok t' :=
      exists_ofRows_iff.mpr ⟨hsupported, hfit⟩
    obtain ⟨hlabel, hrows⟩ := eq_of_ofRows_eq_ok ht'
    obtain ⟨hprogram, hsize'⟩ := program_eq_of_ofRows ht'
    rw [ht', ProgramTable.ext hprogram hlabel (hsize'.trans hsize.symm) hrows]

/-! ## Rows by discriminator -/

theorem find?_eq_some_iff {d : Bytes} :
    t.find? d = some row ↔ row ∈ t.rows ∧ row.discriminator = d := by
  constructor
  · intro h
    obtain ⟨hrow, hsame, -⟩ := length_of_find? h
    exact ⟨hrow, hsame⟩
  · rintro ⟨hrow, rfl⟩
    exact find?_discriminator hrow

/-- The row that is found is the only one, also counted with repetition. -/
theorem filter_rows_of_find? {d : Bytes} (h : t.find? d = some row) :
    t.rows.filter (·.discriminator == d) = [row] := by
  obtain ⟨hrow, rfl⟩ := find?_eq_some_iff.mp h
  obtain ⟨before, after, hparts⟩ := List.append_of_mem hrow
  have hnodup := t.nodup
  rw [hparts, List.map_append, List.map_cons, List.nodup_middle, List.nodup_cons, List.mem_append]
    at hnodup
  have hothers : ∀ others : List InstructionRow,
      row.discriminator ∉ others.map (·.discriminator) →
      others.filter (·.discriminator == row.discriminator) = [] := by
    intro others hnot
    rw [List.filter_eq_nil_iff]
    intro other hother heq
    exact hnot (beq_iff_eq.mp heq ▸ List.mem_map_of_mem hother)
  obtain ⟨hbefore, hafter⟩ := not_or.mp hnodup.1
  rw [hparts, List.filter_append, hothers before hbefore, List.nil_append, List.filter_cons,
    if_pos (beq_self_eq_true row.discriminator), hothers after hafter]

/-- Where two tables have the same rows in any order, they find the same ones. -/
theorem find?_eq_of_perm (h : t.rows.Perm t'.rows) (d : Bytes) : t.find? d = t'.find? d := by
  ext row
  rw [find?_eq_some_iff, find?_eq_some_iff, h.mem_iff]

theorem decode_eq_of_perm (hlabel : t.label = t'.label) (hsize : t.size = t'.size)
    (h : t.rows.Perm t'.rows) (data : Bytes) (accounts : Nat) :
    t.decode data accounts = t'.decode data accounts := by
  rw [decode, decode, hlabel, hsize, find?_eq_of_perm h]

theorem decodeWithin_eq_of_perm (hlabel : t.label = t'.label) (hsize : t.size = t'.size)
    (h : t.rows.Perm t'.rows) (limit : Nat) (data : Bytes) (accounts : Nat) :
    t.decodeWithin limit data accounts = t'.decodeWithin limit data accounts := by
  rw [decodeWithin, decodeWithin, decode_eq_of_perm hlabel hsize h, displayDepth, displayDepth,
    hsize, find?_eq_of_perm h]

/-! ## Construction and look-up -/

/-- Rows make a table exactly where they fit; else the first row that does not is blamed. A row is
found by its discriminator alone, whatever the order of the rows. -/
theorem ofRows_and_find? (program : Pubkey) (label : Text) (size : Int)
    (rows : List InstructionRow) :
    ((∃ t, ofRows program label size rows = .ok t) ↔
      SupportedSize size ∧ RowsFit size.toNat rows) ∧
    (¬ SupportedSize size →
      ofRows program label size rows = .error (.unsupportedSize label size)) ∧
    (SupportedSize size → ∀ e,
      ofRows program label size rows = .error e ↔ Offends label size.toNat rows e) ∧
    (∀ t, ofRows program label size rows = .ok t → ∀ d,
      ((∃ row, t.find? d = some row) ↔ ∃ row ∈ rows, row.discriminator = d) ∧
      ∀ row, t.find? d = some row → rows.filter (·.discriminator == d) = [row]) ∧
    ∀ rows', rows.Perm rows' →
      ((∃ t, ofRows program label size rows = .ok t) ↔
        ∃ t, ofRows program label size rows' = .ok t) ∧
      ∀ t t', ofRows program label size rows = .ok t → ofRows program label size rows' = .ok t' →
        ∀ data accounts limit,
          t.decodeWithin limit data accounts = t'.decodeWithin limit data accounts := by
  refine ⟨exists_ofRows_iff, ofRows_of_not_supported, fun h _ => ofRows_eq_error_iff h, ?_, ?_⟩
  · intro t ht d
    obtain ⟨-, rfl⟩ := eq_of_ofRows_eq_ok ht
    exact ⟨exists_congr fun _ => find?_eq_some_iff, fun _ => filter_rows_of_find?⟩
  · intro rows' hperm
    refine ⟨?_, ?_⟩
    · rw [exists_ofRows_iff, exists_ofRows_iff]
      exact and_congr_right fun _ => ⟨fun h => h.perm hperm, fun h => h.perm hperm.symm⟩
    · intro t t' ht ht' data accounts limit
      obtain ⟨hlabel, hrows⟩ := eq_of_ofRows_eq_ok ht
      obtain ⟨hlabel', hrows'⟩ := eq_of_ofRows_eq_ok ht'
      apply decodeWithin_eq_of_perm
      · rw [hlabel, hlabel']
      · rw [(program_eq_of_ofRows ht).2, (program_eq_of_ofRows ht').2]
      · rw [hrows, hrows']
        exact hperm

/-- Two rows, and a third one behind them with the discriminator of the first. -/
theorem ofRows_and_find?_exchange :
    ∃ (cancel place : InstructionRow) (t : ProgramTable),
      cancel = ⟨[6], "cancel_all", [], []⟩ ∧
      place = ⟨[7], "place_order", [⟨"size", .u64, none⟩], ["maker"]⟩ ∧
      ofRows .zero "Exchange" 1 [cancel, place] = .ok t ∧
      t.find? [7] = some place ∧
      [cancel, place].filter (·.discriminator == [7]) = [place] ∧
      (∃ t', ofRows .zero "Exchange" 1 [place, cancel] = .ok t' ∧
        ∀ data accounts limit,
          t.decodeWithin limit data accounts = t'.decodeWithin limit data accounts) ∧
      ofRows .zero "Exchange" 1 [cancel, place, ⟨[6], "halt", [], []⟩] =
        .error (.duplicate "Exchange" [6] "cancel_all" "halt") := by
  obtain ⟨cancel, hcancel⟩ : ∃ row : InstructionRow, row = ⟨[6], "cancel_all", [], []⟩ := ⟨_, rfl⟩
  obtain ⟨place, hplace⟩ : ∃ row : InstructionRow,
      row = ⟨[7], "place_order", [⟨"size", .u64, none⟩], ["maker"]⟩ := ⟨_, rfl⟩
  have hfit : RowsFit 1 [cancel, place] := by
    subst hcancel hplace
    exact ⟨by simp, by simp⟩
  obtain ⟨haccepts, -, -, hfinds, horder⟩ :=
    ofRows_and_find? .zero "Exchange" 1 [cancel, place]
  obtain ⟨t, ht⟩ := haccepts.mpr ⟨.inl rfl, hfit⟩
  obtain ⟨hsame, hdecode⟩ := horder [place, cancel] (.swap place cancel [])
  obtain ⟨t', ht'⟩ := hsame.mp ⟨t, ht⟩
  have hmem : ∃ row ∈ [cancel, place], row.discriminator = [7] := by
    subst hplace
    exact ⟨_, List.mem_cons_of_mem _ List.mem_cons_self, rfl⟩
  obtain ⟨row, hrow⟩ := (hfinds t ht [7]).1.mpr hmem
  have honly := (hfinds t ht [7]).2 row hrow
  have hfound : [cancel, place].filter (·.discriminator == [7]) = [place] := by
    subst hcancel hplace
    rfl
  obtain rfl : row = place := List.singleton_inj.mp (honly.symm.trans hfound)
  obtain ⟨-, -, hoffence, -⟩ :=
    ofRows_and_find? .zero "Exchange" 1 [cancel, row, ⟨[6], "halt", [], []⟩]
  refine ⟨cancel, row, t, hcancel, hplace, ht, hrow, hfound, ⟨t', ht', hdecode t t' ht ht'⟩, ?_⟩
  rw [hoffence (.inl rfl)]
  have hfirst : cancel.discriminator = [6] := congrArg InstructionRow.discriminator hcancel
  have hname : cancel.name = "cancel_all" := congrArg InstructionRow.name hcancel
  rw [← hname]
  exact .duplicate rfl hfit rfl List.mem_cons_self hfirst

end ProgramTable

end SolanaTx
