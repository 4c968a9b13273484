import SolanaTx.Proofs.Idl.Orderly
import SolanaTx.Proofs.Program.Construction

/-!
# One instruction more

A description with one instruction more makes the same table with at most one row more, in the place
of the new instruction. Where a type of that instruction is neither read nor unsupported, there is
no table at all.
-/

namespace SolanaTx.Idl

open Fallible

variable {idl entry : Json} {program label : Option Text} {key : Pubkey} {name : Json}
  {ds : Declarations} {items before after : List Json} {t : ProgramTable}
  {rows : List InstructionRow}

/-! ## Descriptions with other instructions -/

/-- A description with other instructions. -/
def withInstructions (idl : Json) (items : List Json) : Json :=
  match idl with
  | .object fields => .object (Json.put "instructions" (.list items) fields)
  | other => other

/-- The types that a description declares. -/
def declared (idl : Json) : Except Fault Declarations := do
  declarations (← idl.fieldOr "types" (.list []))

/-- The instructions that a description lists. -/
def instructions (idl : Json) : Except Fault (List Json) := do
  (← idl.fieldOr "instructions" (.list [])).elements

theorem fieldD_withInstructions {field : Text} (hfield : field ≠ "instructions") (items : List Json)
    (default : Json) : (withInstructions idl items).fieldD field default =
      idl.fieldD field default := by
  cases idl with
  | object fields =>
      rw [withInstructions, Json.fieldD_object, Json.fieldD_object, Json.lookup_put, if_neg hfield]
  | null | bool | int | real | text | list => rfl

theorem fieldOr_withInstructions {field : Text} (hfield : field ≠ "instructions")
    (items : List Json) (other : Json) : (withInstructions idl items).fieldOr field other =
      idl.fieldOr field other := by
  rw [Json.fieldOr, Json.fieldOr, fieldD_withInstructions hfield]

theorem instructions_withInstructions (h : instructions idl = .ok before) (items : List Json) :
    instructions (withInstructions idl items) = .ok items := by
  cases idl with
  | object fields =>
      have hlist : (Json.object (Json.put "instructions" (.list items) fields)).HasList
          "instructions" items := by
        refine .inl ?_
        rw [Json.get?, Json.lookup_put, if_pos rfl]
      rw [instructions, withInstructions, hlist.fieldOr_eq]
      rfl
  | null | bool | int | real | text | list => cases h

/-! ## What stands beside the instructions -/

/-- What a description says of its program and of types, whatever its instructions are. -/
structure Heads (idl : Json) (program : Option Text) (key : Pubkey) (name : Json)
    (ds : Declarations) : Prop where
  program : ∃ metadata, idl.fieldOr "metadata" (.object []) = .ok metadata ∧
    programKey idl metadata program = .ok key ∧ programName idl metadata key = .ok name
  types : declared idl = .ok ds

/-- The decoder of instructions of a program among declarations. -/
def tableOf (key : Pubkey) (name : Json) (ds : Declarations) (label : Option Text)
    (items : List Json) : Except Fault ProgramTable := do
  let rows ← items.filterMapM (row? ds name.plain)
  let title ← programTitle name label
  match ProgramTable.ofRows key title Discriminator.nameSize rows with
  | .ok t => pure t
  | .error e => throw (.table e)

theorem Heads.table_eq (h : Heads idl program key name ds) (hitems : instructions idl = .ok items)
    (label : Option Text) : table idl program label = tableOf key name ds label items := by
  obtain ⟨metadata, hmetadata, hkey, hname⟩ := h.program
  obtain ⟨types, htypes, hds⟩ := bind_eq_ok.mp h.types
  obtain ⟨raw, hraw, helements⟩ := bind_eq_ok.mp hitems
  rw [table, hmetadata, ok_bind, hkey, ok_bind, hname, ok_bind, htypes, ok_bind, hds, ok_bind,
    hraw, ok_bind, helements, ok_bind]
  rfl

theorem exists_heads_of_table (h : table idl program label = .ok t) :
    ∃ key name ds items, Heads idl program key name ds ∧ instructions idl = .ok items := by
  obtain ⟨metadata, hmetadata, h⟩ := bind_eq_ok.mp h
  obtain ⟨key, hkey, h⟩ := bind_eq_ok.mp h
  obtain ⟨name, hname, h⟩ := bind_eq_ok.mp h
  obtain ⟨types, htypes, h⟩ := bind_eq_ok.mp h
  obtain ⟨ds, hds, h⟩ := bind_eq_ok.mp h
  obtain ⟨raw, hraw, h⟩ := bind_eq_ok.mp h
  obtain ⟨items, hitems, -⟩ := bind_eq_ok.mp h
  exact ⟨key, name, ds, items,
    ⟨⟨metadata, hmetadata, hkey, hname⟩, bind_eq_ok.mpr ⟨types, htypes, hds⟩⟩,
    bind_eq_ok.mpr ⟨raw, hraw, hitems⟩⟩

theorem Heads.withInstructions (h : Heads idl program key name ds) (items : List Json) :
    Heads (withInstructions idl items) program key name ds := by
  obtain ⟨metadata, hmetadata, hkey, hname⟩ := h.program
  refine ⟨⟨metadata, ?_, ?_, ?_⟩, ?_⟩
  · rw [fieldOr_withInstructions (by decide), hmetadata]
  · rw [programKey, fieldD_withInstructions (by decide)]
    exact hkey
  · rw [programName, fieldD_withInstructions (by decide)]
    exact hname
  · rw [declared, fieldOr_withInstructions (by decide)]
    exact h.types

theorem tableOf_eq_ok_iff : tableOf key name ds label items = .ok t ↔
    items.filterMapM (row? ds name.plain) = .ok t.rows ∧ programTitle name label = .ok t.label ∧
      t.program = key ∧ t.size = Discriminator.nameSize := by
  rw [tableOf]
  constructor
  · intro h
    obtain ⟨rows, hrows, h⟩ := bind_eq_ok.mp h
    obtain ⟨title, htitle, h⟩ := bind_eq_ok.mp h
    split at h
    · next t' ht' =>
      obtain rfl := pure_eq_ok.mp h
      obtain ⟨-, hprogram, rfl, hsize, rfl⟩ := ProgramTable.ofRows_eq_ok_iff.mp ht'
      exact ⟨hrows, htitle, hprogram, hsize⟩
    · cases h
  · rintro ⟨hrows, htitle, hprogram, hsize⟩
    have hmade : ProgramTable.ofRows key t.label Discriminator.nameSize t.rows = .ok t :=
      ProgramTable.ofRows_eq_ok_iff.mpr ⟨.inr (.inr rfl), hprogram, rfl, hsize, rfl⟩
    rw [hrows, ok_bind, htitle, ok_bind, hmade]
    rfl

/-! ## The instruction that is added -/

/-- An argument of an instruction, of which the type may be any value. -/
structure Argument where
  name : Json
  type : Json

/-- Whether an entry writes the argument. -/
def Argument.IsWrittenAs (argument : Argument) (item : Json) : Prop :=
  item.get? "name" = some argument.name ∧ item.get? "type" = some argument.type

/-- The field that an argument makes among declarations. -/
def Argument.field (ds : Declarations) (argument : Argument) : Except Fault Field := do
  pure ⟨argument.name, ← specLayout ds (maxDepth - 1) argument.type, none⟩

/-- The field of an entry at a place in a list of arguments. -/
def argumentField (ds : Declarations) (entry : Json × Nat) : Except Fault Field :=
  match entry.1.get? "name" with
  | some name => do
      pure ⟨name, ← specLayout ds (maxDepth - 1) (← entry.1.need "type"), none⟩
  | none => do
      pure ⟨.text (Decimal.ofNat entry.2), ← specLayout ds (maxDepth - 1) entry.1, none⟩

/-- An instruction that is added to a description. -/
structure Addition where
  name : Text
  arguments : List Argument
  discriminator : Bytes
  accounts : List Json

namespace Addition

/-- Whether an entry writes the instruction: it has a name, arguments with a name and a type each,
accounts that can be read, and a discriminator of eight bytes, explicit or made from the name. -/
structure WrittenAs (i : Addition) (entry : Json) : Prop where
  name_eq : entry.get? "name" = some (.text i.name)
  name_ne : i.name ≠ []
  arguments : ∃ items, entry.HasList "args" items ∧
    List.Forall₂ Argument.IsWrittenAs i.arguments items
  discriminator :
    (∃ explicit, entry.get? "discriminator" = some explicit ∧ explicit ≠ .null ∧
      explicitDiscriminator explicit = .ok i.discriminator) ∨
    ((entry.get? "discriminator").getD .null = .null ∧
      Discriminator.ofName i.name = .ok i.discriminator)
  length_eq : i.discriminator.length = Discriminator.nameSize
  accounts : ∃ group, entry.fieldOr "accounts" (.list []) = .ok group ∧
    groupNames group = .ok i.accounts

/-- The fields that the arguments make among declarations. -/
def fields (i : Addition) (ds : Declarations) : Except Fault (List Field) :=
  i.arguments.mapM (Argument.field ds)

/-- The row of the instruction, with fields that its arguments make. -/
def row (i : Addition) (fields : List Field) : InstructionRow :=
  ⟨i.discriminator, Naming.pascalCase i.name, fields, i.accounts⟩

variable {i : Addition}

theorem argumentFields_eq (h : List.Forall₂ Argument.IsWrittenAs i.arguments items) :
    argumentFields ds (.list items) = i.fields ds := by
  have hitems : ∀ (argument : Argument) (item : Json), argument.IsWrittenAs item →
      ∀ n, argumentField ds (item, n) = argument.field ds := by
    rintro argument item ⟨hname, htype⟩ n
    rw [argumentField, hname]
    dsimp only
    rw [Json.need_of_get? htype, ok_bind]
    rfl
  exact mapM_zipIdx_eq_of_forall₂ (h.imp hitems) 0

theorem row?_of_writtenAs (h : i.WrittenAs entry) (program : Text) :
    (∀ fields, i.fields ds = .ok fields → row? ds program entry = .ok (some (i.row fields))) ∧
    ∀ fault, i.fields ds = .error fault →
      (IsUnsupported fault → row? ds program entry = .ok none) ∧
      (¬ IsUnsupported fault → row? ds program entry = .error fault) := by
  obtain ⟨items, hitems, harguments⟩ := h.arguments
  have hgiven : ¬ (!(Json.text i.name).isGiven) = true := by
    simp [Json.isGiven, h.name_ne]
  rw [row?, Json.fieldD_of_get? _ h.name_eq, ok_bind, if_neg hgiven]
  dsimp only
  rw [hitems.fieldOr_eq, ok_bind, argumentFields_eq harguments]
  constructor
  · intro fields hfields
    obtain ⟨group, hgroup, haccounts⟩ := h.accounts
    have hsize : ¬ i.discriminator.length ≠ Discriminator.nameSize := not_not.mpr h.length_eq
    rw [hfields]
    dsimp only
    rcases h.discriminator with ⟨explicit, hget, hne, hread⟩ | ⟨hnull, hread⟩
    · rw [Json.fieldD_of_get? _ hget, ok_bind]
      split
      · exact absurd rfl hne
      · rw [hread, ok_bind, if_neg hsize, hgroup]
        simp only [instructionName, haccounts, ok_bind]
        rfl
    · obtain ⟨entries, rfl⟩ := Json.exists_object_of_get? h.name_eq
      rw [Json.get?] at hnull
      rw [Json.fieldD_object, hnull, ok_bind, nameDiscriminator, hread, ok_bind, if_neg hsize,
        hgroup]
      simp only [instructionName, haccounts, ok_bind]
      rfl
  · intro fault hfault
    -- the arguments come before everything else that is read of the entry
    rw [hfault]
    constructor
    · rintro ⟨tag, rfl⟩
      rfl
    · intro hnot
      split
      · next tag htag => exact absurd ⟨tag, Except.error.inj htag⟩ hnot
      · next other _ hother =>
        cases hother
        rfl
      · next hok => cases hok

end Addition

/-! ## The table with one row more -/

/-- Rows that are read make a table where they fit. -/
theorem exists_tableOf (hrows : items.filterMapM (row? ds name.plain) = .ok rows)
    (htitle : programTitle name label = .ok t.label) (hkey : t.program = key)
    (hsize : t.size = Discriminator.nameSize) (hfit : RowsFit Discriminator.nameSize rows) :
    ∃ t', tableOf key name ds label items = .ok t' ∧ t'.program = t.program ∧
      t'.label = t.label ∧ t'.size = t.size ∧ t'.rows = rows := by
  obtain ⟨t', ht'⟩ : ∃ t', ProgramTable.ofRows key t.label Discriminator.nameSize rows = .ok t' :=
    ProgramTable.exists_ofRows_iff.mpr ⟨.inr (.inr rfl), hfit⟩
  obtain ⟨-, hkey', hlabel', hsize', hrows'⟩ := ProgramTable.ofRows_eq_ok_iff.mp ht'
  rw [← hrows'] at hrows
  rw [← hlabel'] at htitle
  exact ⟨t', tableOf_eq_ok_iff.mpr ⟨hrows, htitle, hkey', hsize'⟩, hkey'.trans hkey.symm, hlabel',
    hsize'.trans hsize.symm, hrows'⟩

/-- The rows of two lists of instructions, one behind the other. -/
theorem exists_rows_of_append (h : tableOf key name ds label (before ++ after) = .ok t) :
    ∃ front back, before.filterMapM (row? ds name.plain) = .ok front ∧
      after.filterMapM (row? ds name.plain) = .ok back ∧ t.rows = front ++ back := by
  obtain ⟨hrows, -⟩ := tableOf_eq_ok_iff.mp h
  rw [filterMapM_append] at hrows
  obtain ⟨front, hfront, hrows⟩ := bind_eq_ok.mp hrows
  obtain ⟨back, hback, hrows⟩ := bind_eq_ok.mp hrows
  exact ⟨front, back, hfront, hback, (pure_eq_ok.mp hrows).symm⟩

variable {front back : List InstructionRow} {i : Addition} {fields : List Field} {fault : Fault}

/-- An instruction that is read adds its row at its place. -/
theorem exists_tableOf_insert (h : tableOf key name ds label (before ++ after) = .ok t)
    (hfront : before.filterMapM (row? ds name.plain) = .ok front)
    (hback : after.filterMapM (row? ds name.plain) = .ok back) (hrows : t.rows = front ++ back)
    (hi : i.WrittenAs entry) (hfresh : ∀ row ∈ t.rows, row.discriminator ≠ i.discriminator)
    (hfields : i.fields ds = .ok fields) :
    ∃ t', tableOf key name ds label (before ++ entry :: after) = .ok t' ∧
      t'.program = t.program ∧ t'.label = t.label ∧ t'.size = t.size ∧
      t'.rows = front ++ i.row fields :: back := by
  obtain ⟨-, htitle, hkey, hsize⟩ := tableOf_eq_ok_iff.mp h
  have hfit : RowsFit Discriminator.nameSize (front ++ back) :=
    hrows ▸ hsize ▸ ⟨t.length_eq, t.nodup⟩
  have hmore : RowsFit Discriminator.nameSize ((front ++ back) ++ [i.row fields]) :=
    rowsFit_concat_iff.mpr ⟨hfit, hi.length_eq, hrows ▸ hfresh⟩
  have hinsert := filterMapM_insert hfront hback entry
  rw [(Addition.row?_of_writtenAs hi name.plain).1 fields hfields, ok_bind, Option.toList_some,
    List.append_assoc, List.singleton_append] at hinsert
  apply exists_tableOf hinsert htitle hkey hsize
  -- whether rows fit does not depend on their order, so the new one is as good as the last
  apply hmore.perm
  exact (List.perm_append_singleton _ _).trans List.perm_middle.symm

/-- An instruction with a type that is unsupported is left out. -/
theorem tableOf_insert_of_unsupported (h : tableOf key name ds label (before ++ after) = .ok t)
    (hi : i.WrittenAs entry) (hfault : i.fields ds = .error fault)
    (hunsupported : IsUnsupported fault) :
    tableOf key name ds label (before ++ entry :: after) = .ok t := by
  obtain ⟨front, back, hfront, hback, hrows⟩ := exists_rows_of_append h
  obtain ⟨-, hothers⟩ := tableOf_eq_ok_iff.mp h
  refine tableOf_eq_ok_iff.mpr ⟨?_, hothers⟩
  rw [filterMapM_insert hfront hback,
    ((Addition.row?_of_writtenAs hi name.plain).2 fault hfault).1 hunsupported, ok_bind,
    Option.toList_none, List.append_nil, hrows]
  rfl

/-- Any other fault of a type is one of the whole description. -/
theorem tableOf_insert_of_fault (h : tableOf key name ds label (before ++ after) = .ok t)
    (hi : i.WrittenAs entry) (hfault : i.fields ds = .error fault)
    (hnot : ¬ IsUnsupported fault) :
    tableOf key name ds label (before ++ entry :: after) = .error fault := by
  obtain ⟨front, back, hfront, hback, -⟩ := exists_rows_of_append h
  rw [tableOf, filterMapM_insert hfront hback,
    ((Addition.row?_of_writtenAs hi name.plain).2 fault hfault).2 hnot]
  rfl

/-- There is a table exactly where each type of the instruction is read or unsupported. -/
theorem exists_tableOf_insert_iff (h : tableOf key name ds label (before ++ after) = .ok t)
    (hi : i.WrittenAs entry) (hfresh : ∀ row ∈ t.rows, row.discriminator ≠ i.discriminator) :
    (∃ t', tableOf key name ds label (before ++ entry :: after) = .ok t') ↔
      FailsOnly IsUnsupported (i.fields ds) := by
  obtain ⟨front, back, hfront, hback, hrows⟩ := exists_rows_of_append h
  cases hread : i.fields ds with
  | ok fields =>
      obtain ⟨t', ht', -⟩ := exists_tableOf_insert h hfront hback hrows hi hfresh hread
      exact iff_of_true ⟨t', ht'⟩ (failsOnly_ok fields)
  | error fault =>
      by_cases hfault : IsUnsupported fault
      · exact iff_of_true ⟨t, tableOf_insert_of_unsupported h hi hread hfault⟩
          (failsOnly_error hfault)
      · rw [tableOf_insert_of_fault h hi hread hfault]
        refine iff_of_false ?_ fun honly => hfault (honly fault rfl)
        rintro ⟨t', ht'⟩
        cases ht'

/-- The rows of the table: the old ones, and the new one at its place where there is one. -/
theorem rows_of_tableOf_insert {t' : ProgramTable}
    (h : tableOf key name ds label (before ++ after) = .ok t)
    (hfront : before.filterMapM (row? ds name.plain) = .ok front)
    (hback : after.filterMapM (row? ds name.plain) = .ok back) (hrows : t.rows = front ++ back)
    (hi : i.WrittenAs entry) (hfresh : ∀ row ∈ t.rows, row.discriminator ≠ i.discriminator)
    (ht' : tableOf key name ds label (before ++ entry :: after) = .ok t') :
    t'.program = t.program ∧ t'.label = t.label ∧ t'.size = t.size ∧
      (∀ fields, i.fields ds = .ok fields → t'.rows = front ++ i.row fields :: back) ∧
      ∀ fault, i.fields ds = .error fault → t'.rows = t.rows := by
  cases hread : i.fields ds with
  | ok fields =>
      obtain ⟨made, hmade, hprogram, hlabel, hsize, hrows'⟩ :=
        exists_tableOf_insert h hfront hback hrows hi hfresh hread
      obtain rfl := Except.ok.inj (hmade.symm.trans ht')
      refine ⟨hprogram, hlabel, hsize, ?_, ?_⟩
      · intro fields' hfields'
        rw [hrows', Except.ok.inj hfields']
      · intro _ hfault
        cases hfault
  | error fault =>
      by_cases hfault : IsUnsupported fault
      · have hsame := tableOf_insert_of_unsupported h hi hread hfault
        obtain rfl := Except.ok.inj (hsame.symm.trans ht')
        refine ⟨rfl, rfl, rfl, ?_, fun _ _ => rfl⟩
        intro _ hfields
        cases hfields
      · have hnone := tableOf_insert_of_fault h hi hread hfault
        cases hnone.symm.trans ht'

/-- Types in proper form are read, or one of them is unsupported. -/
theorem Addition.failsOnly_fields
    (h : ∀ argument ∈ i.arguments, Orderly ds (maxDepth - 1) argument.type) :
    FailsOnly IsUnsupported (i.fields ds) := by
  apply failsOnly_mapM
  intro argument hargument
  exact ((settledUpTo ds _).spec _ (h argument hargument)).bind fun _ _ => failsOnly_pure _

/-- A description with one instruction more has the old rows in their order, and the row of the new
instruction at its place where its types are read. Where one of them is unsupported, the
instruction is left out. With any other fault of a type there is no table; types in proper form
have none. -/
theorem table_insert (h : table idl program label = .ok t)
    (hitems : instructions idl = .ok (before ++ after)) {i : Addition} (hi : i.WrittenAs entry)
    (hfresh : ∀ row ∈ t.rows, row.discriminator ≠ i.discriminator) :
    ∃ ds t₁ t₂, declared idl = .ok ds ∧
      table (withInstructions idl before) program label = .ok t₁ ∧
      table (withInstructions idl after) program label = .ok t₂ ∧
      t.rows = t₁.rows ++ t₂.rows ∧
      ((∃ t', table (withInstructions idl (before ++ entry :: after)) program label = .ok t') ↔
        FailsOnly IsUnsupported (i.fields ds)) ∧
      (∀ t', table (withInstructions idl (before ++ entry :: after)) program label = .ok t' →
        t'.program = t.program ∧ t'.label = t.label ∧ t'.size = t.size ∧
        (∀ fields, i.fields ds = .ok fields → t'.rows = t₁.rows ++ i.row fields :: t₂.rows) ∧
        ∀ fault, i.fields ds = .error fault → t'.rows = t.rows) ∧
      (∀ fault, i.fields ds = .error fault → ¬ IsUnsupported fault →
        table (withInstructions idl (before ++ entry :: after)) program label = .error fault) ∧
      ((∀ argument ∈ i.arguments, Orderly ds (maxDepth - 1) argument.type) →
        FailsOnly IsUnsupported (i.fields ds)) := by
  obtain ⟨key, name, ds, items, hheads, hall⟩ := exists_heads_of_table h
  obtain rfl := Except.ok.inj (hall.symm.trans hitems)
  rw [hheads.table_eq hitems] at h
  have hother : ∀ others, table (withInstructions idl others) program label =
      tableOf key name ds label others := fun others =>
    (hheads.withInstructions others).table_eq (instructions_withInstructions hitems others) label
  obtain ⟨front, back, hfront, hback, hrows⟩ := exists_rows_of_append h
  obtain ⟨-, htitle, hkey, hsize⟩ := tableOf_eq_ok_iff.mp h
  have hfit : RowsFit Discriminator.nameSize (front ++ back) :=
    hrows ▸ hsize ▸ ⟨t.length_eq, t.nodup⟩
  obtain ⟨t₁, ht₁, -, -, -, hrows₁⟩ := exists_tableOf hfront htitle hkey hsize
    (hfit.sublist (List.sublist_append_left front back))
  obtain ⟨t₂, ht₂, -, -, -, hrows₂⟩ := exists_tableOf hback htitle hkey hsize
    (hfit.sublist (List.sublist_append_right front back))
  refine ⟨ds, t₁, t₂, hheads.types, (hother before).trans ht₁, (hother after).trans ht₂, ?_⟩
  rw [hother, hrows₁, hrows₂]
  exact ⟨hrows, exists_tableOf_insert_iff h hi hfresh,
    fun _ => rows_of_tableOf_insert h hfront hback hrows hi hfresh,
    fun _ => tableOf_insert_of_fault h hi, Addition.failsOnly_fields⟩

/-- An instruction between two others. -/
theorem table_insert_place_order :
    ∃ (idl cancel settle place : Json) (t t' : ProgramTable),
      cancel = .object [("name", "cancel_all"),
        ("discriminator", .list ([1, 1, 1, 1, 1, 1, 1, 1].map .int))] ∧
      settle = .object [("name", "settle"),
        ("discriminator", .list ([3, 3, 3, 3, 3, 3, 3, 3].map .int))] ∧
      place = .object [("name", "place_order"),
        ("discriminator", .list ([2, 2, 2, 2, 2, 2, 2, 2].map .int)),
        ("args", .list [.object [("name", "size"), ("type", "u64")]])] ∧
      idl = .object [("address", "11111111111111111111111111111111"), ("name", "exchange"),
        ("instructions", .list [cancel, settle])] ∧
      table idl none none = .ok t ∧
      table (withInstructions idl [cancel, place, settle]) none none = .ok t' ∧
      t'.rows = [⟨[1, 1, 1, 1, 1, 1, 1, 1], "CancelAll", [], []⟩,
        ⟨[2, 2, 2, 2, 2, 2, 2, 2], "PlaceOrder", [⟨"size", .u64, none⟩], []⟩,
        ⟨[3, 3, 3, 3, 3, 3, 3, 3], "Settle", [], []⟩] := by
  obtain ⟨cancel, hcancel⟩ : ∃ entry : Json, entry = .object [("name", "cancel_all"),
      ("discriminator", .list ([1, 1, 1, 1, 1, 1, 1, 1].map .int))] := ⟨_, rfl⟩
  obtain ⟨settle, hsettle⟩ : ∃ entry : Json, entry = .object [("name", "settle"),
      ("discriminator", .list ([3, 3, 3, 3, 3, 3, 3, 3].map .int))] := ⟨_, rfl⟩
  obtain ⟨place, hplace⟩ : ∃ entry : Json, entry = .object [("name", "place_order"),
      ("discriminator", .list ([2, 2, 2, 2, 2, 2, 2, 2].map .int)),
      ("args", .list [.object [("name", "size"), ("type", "u64")]])] := ⟨_, rfl⟩
  obtain ⟨idl, hidl⟩ : ∃ idl : Json, idl = .object [
      ("address", "11111111111111111111111111111111"), ("name", "exchange"),
      ("instructions", .list [cancel, settle])] := ⟨_, rfl⟩
  obtain ⟨i, hi⟩ : ∃ i : Addition,
      i = ⟨"place_order", [⟨"size", "u64"⟩], [2, 2, 2, 2, 2, 2, 2, 2], []⟩ := ⟨_, rfl⟩
  have hwritten : i.WrittenAs place := by
    subst hi hplace
    exact {
      name_eq := rfl
      name_ne := by decide
      arguments := ⟨_, .inl rfl, .cons ⟨rfl, rfl⟩ .nil⟩
      discriminator := .inl ⟨_, rfl, Json.noConfusion, rfl⟩
      length_eq := rfl
      accounts := ⟨_, rfl, rfl⟩ }
  obtain ⟨t, htable, hrows⟩ : ∃ t, table idl none none = .ok t ∧
      t.rows = [⟨[1, 1, 1, 1, 1, 1, 1, 1], "CancelAll", [], []⟩,
        ⟨[3, 3, 3, 3, 3, 3, 3, 3], "Settle", [], []⟩] := by
    subst hidl hcancel hsettle
    exact ⟨_, rfl, rfl⟩
  have hitems : instructions idl = .ok ([cancel] ++ [settle]) := by
    subst hidl
    rfl
  have hfresh : ∀ row ∈ t.rows, row.discriminator ≠ i.discriminator := by
    subst hi
    rw [hrows]
    decide
  obtain ⟨ds, t₁, t₂, hds, ht₁, ht₂, -, hmade, hthen, -, -⟩ :=
    table_insert htable hitems hwritten hfresh
  have hfields : i.fields ds = .ok [⟨"size", .u64, none⟩] := by
    subst hi hidl
    cases hds
    rfl
  have hrows₁ : t₁.rows = [⟨[1, 1, 1, 1, 1, 1, 1, 1], "CancelAll", [], []⟩] := by
    subst hidl hcancel
    cases ht₁
    rfl
  have hrows₂ : t₂.rows = [⟨[3, 3, 3, 3, 3, 3, 3, 3], "Settle", [], []⟩] := by
    subst hidl hsettle
    cases ht₂
    rfl
  obtain ⟨t', ht'⟩ := hmade.mpr (hfields ▸ failsOnly_ok _)
  have hrows' := (hthen t' ht').2.2.2.1 _ hfields
  rw [hrows₁, hrows₂, Addition.row, hi] at hrows'
  exact ⟨idl, cancel, settle, place, t, t', hcancel, hsettle, hplace, hidl, htable, ht', hrows'⟩

/-- An array with a generic length, which is neither a size nor unsupported. -/
theorem table_insert_generic_length :
    ∃ (idl entry : Json) (i : Addition) (t : ProgramTable),
      idl = .object [("address", "11111111111111111111111111111111"), ("name", "exchange"),
        ("instructions", .list [.object [("name", "cancel_all"),
          ("discriminator", .list ([1, 1, 1, 1, 1, 1, 1, 1].map .int))]])] ∧
      entry = .object [("name", "place_order"),
        ("discriminator", .list ([2, 2, 2, 2, 2, 2, 2, 2].map .int)),
        ("args", .list [.object [("name", "sizes"),
          ("type", .object [("array", .list ["u8", "N"])])]])] ∧
      i = ⟨"place_order", [⟨"sizes", .object [("array", .list ["u8", "N"])]⟩],
        [2, 2, 2, 2, 2, 2, 2, 2], []⟩ ∧
      i.WrittenAs entry ∧
      table idl none none = .ok t ∧
      (∀ row ∈ t.rows, row.discriminator ≠ i.discriminator) ∧
      ∃ items, instructions idl = .ok items ∧
        table (withInstructions idl (items ++ [entry])) none none = .error .badValue := by
  refine ⟨_, _, _, _, rfl, rfl, rfl, ?_, rfl, by decide, _, rfl, rfl⟩
  exact {
    name_eq := rfl
    name_ne := by decide
    arguments := ⟨_, .inl rfl, .cons ⟨rfl, rfl⟩ .nil⟩
    discriminator := .inl ⟨_, rfl, Json.noConfusion, rfl⟩
    length_eq := rfl
    accounts := ⟨_, rfl, rfl⟩ }

end SolanaTx.Idl
