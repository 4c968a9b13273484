import SolanaTx.Idl.Table
import SolanaTx.Proofs.Layout.Offsets
import SolanaTx.Proofs.Program.Decoding

/-!
# Payloads of described programs

An interface description leaves out the instructions with a type that has no reader, so that a
payload of the others fails for its bytes only.
-/

namespace SolanaTx.Idl

open Fallible Layout

/-! ## Described layouts -/

variable {ds : Declarations} {depth : Nat}

theorem isKnown_of_scalarLayout {tag : Text} {layout : Layout} (h : scalarLayout tag = .ok layout) :
    layout.Everywhere IsKnown := by
  have hall : ∀ entry ∈ scalarTags, entry.2.Everywhere IsKnown := by
    simp [scalarTags, integerTags, otherTags, Everywhere, IsKnown, u8, u16, u32, u64]
  unfold scalarLayout at h
  split at h
  · next found hfound =>
    obtain rfl := Except.ok.inj h
    obtain ⟨before, after, hparts, -⟩ := List.lookup_eq_some_iff.mp hfound
    have hmem : (tag, found) ∈ scalarTags := by
      rw [hparts]
      exact List.mem_append_right before List.mem_cons_self
    exact hall _ hmem
  · cases h

theorem isKnown_of_arrayLayout {element layout : Layout} {size : Json}
    (helement : element.Everywhere IsKnown) (h : arrayLayout element size = .ok layout) :
    layout.Everywhere IsKnown := by
  obtain ⟨n, -, h⟩ := bind_eq_ok.mp h
  obtain rfl := pure_eq_ok.mp h
  split
  · exact trivial
  · exact ⟨trivial, helement⟩

/-- Whether what stands up to a depth in a description has a reader. Types, declarations and lists
of fields lead to one another one level down, so that their laws go together. -/
structure KnownUpTo (ds : Declarations) (depth : Nat) : Prop where
  spec : ∀ spec layout, specLayout ds depth spec = .ok layout → layout.Everywhere IsKnown
  declaration : ∀ declaration layout, declarationLayout ds depth declaration = .ok layout →
    layout.Everywhere IsKnown
  fields : ∀ raw fields, fieldList ds depth raw = .ok fields → EverywhereInFields IsKnown fields

theorem KnownUpTo.specLayout_succ (h : KnownUpTo ds depth) {spec : Json} {layout : Layout}
    (hspec : specLayout ds (depth + 1) spec = .ok layout) : layout.Everywhere IsKnown := by
  unfold specLayout at hspec
  split at hspec
  · exact isKnown_of_scalarLayout hspec
  · split at hspec
    · obtain ⟨element, helement, rfl⟩ := map_eq_ok.mp hspec
      exact ⟨trivial, h.spec _ _ helement⟩
    · split at hspec
      · obtain ⟨element, helement, rfl⟩ := map_eq_ok.mp hspec
        exact ⟨trivial, h.spec _ _ helement⟩
      · split at hspec
        · obtain ⟨items, -, hspec⟩ := bind_eq_ok.mp hspec
          split at hspec
          · obtain ⟨element, helement, hspec⟩ := bind_eq_ok.mp hspec
            exact isKnown_of_arrayLayout (h.spec _ _ helement) hspec
          · cases hspec
        · split at hspec
          · obtain ⟨name, -, hspec⟩ := bind_eq_ok.mp hspec
            by_cases hkey : (!name.isKey) = true
            · rw [if_pos hkey] at hspec
              cases hspec
            · rw [if_neg hkey] at hspec
              dsimp only at hspec
              split at hspec
              · exact h.declaration _ _ hspec
              · cases hspec
          · cases hspec
  · cases hspec

theorem KnownUpTo.fieldList_succ (h : KnownUpTo ds depth) {raw : Json} {fields : List Field}
    (hfields : fieldList ds (depth + 1) raw = .ok fields) : EverywhereInFields IsKnown fields := by
  rw [everywhereInFields_iff]
  intro field hfield
  unfold fieldList at hfields
  obtain ⟨items, -, hitems⟩ := bind_eq_ok.mp hfields
  obtain ⟨⟨item, i⟩, -, hitem⟩ := exists_of_mem_mapM hitems field hfield
  dsimp only at hitem
  split at hitem
  · obtain ⟨spec, -, hitem⟩ := bind_eq_ok.mp hitem
    obtain ⟨type, htype, hitem⟩ := bind_eq_ok.mp hitem
    obtain rfl := pure_eq_ok.mp hitem
    exact h.spec _ _ htype
  · obtain ⟨type, htype, hitem⟩ := bind_eq_ok.mp hitem
    obtain rfl := pure_eq_ok.mp hitem
    exact h.spec _ _ htype

theorem unsupported_ne_ok {tag : Except Fault Json} {layout : Layout} :
    (tag >>= fun tag => unsupported tag) ≠ .ok layout := by
  intro h
  obtain ⟨tag, -, h⟩ := bind_eq_ok.mp h
  cases h

theorem KnownUpTo.declarationLayout_succ (h : KnownUpTo ds depth) {declaration : Json}
    {layout : Layout} (hlayout : declarationLayout ds (depth + 1) declaration = .ok layout) :
    layout.Everywhere IsKnown := by
  unfold declarationLayout at hlayout
  obtain ⟨body, -, hlayout⟩ := bind_eq_ok.mp hlayout
  obtain ⟨kind, -, hlayout⟩ := bind_eq_ok.mp hlayout
  split at hlayout
  · split at hlayout
    · obtain ⟨raw, -, hlayout⟩ := bind_eq_ok.mp hlayout
      obtain ⟨fields, hfields, hlayout⟩ := bind_eq_ok.mp hlayout
      obtain rfl := pure_eq_ok.mp hlayout
      exact ⟨trivial, h.fields _ _ hfields⟩
    · split at hlayout
      · obtain ⟨raw, -, hlayout⟩ := bind_eq_ok.mp hlayout
        obtain ⟨items, -, hlayout⟩ := bind_eq_ok.mp hlayout
        obtain ⟨variants, hvariants, rfl⟩ := map_eq_ok.mp hlayout
        refine ⟨trivial, everywhereInVariants_iff.mpr ?_⟩
        intro variant hvariant type htype
        obtain ⟨item, -, hitem⟩ := exists_of_mem_mapM hvariants variant hvariant
        obtain ⟨given, -, hitem⟩ := bind_eq_ok.mp hitem
        obtain ⟨name, -, hitem⟩ := bind_eq_ok.mp hitem
        split at hitem
        · obtain ⟨fields, hfields, hitem⟩ := bind_eq_ok.mp hitem
          obtain rfl := pure_eq_ok.mp hitem
          obtain rfl := Option.some.inj htype
          exact ⟨trivial, h.fields _ _ hfields⟩
        · obtain rfl := pure_eq_ok.mp hitem
          cases htype
      · split at hlayout
        · split at hlayout
          · exact h.spec _ _ hlayout
          · exact absurd hlayout unsupported_ne_ok
        · exact absurd hlayout unsupported_ne_ok
  · exact absurd hlayout unsupported_ne_ok

theorem knownUpTo (ds : Declarations) (depth : Nat) : KnownUpTo ds depth := by
  induction depth with
  | zero =>
      refine ⟨?_, ?_, ?_⟩
      · intro spec layout h
        cases h
      · intro declaration layout h
        cases h
      · intro raw fields h
        cases h
  | succ depth ih =>
      exact ⟨fun _ _ => ih.specLayout_succ, fun _ _ => ih.declarationLayout_succ,
        fun _ _ => ih.fieldList_succ⟩

/-! ## Described tables -/

theorem isKnown_of_row? {program : Text} {raw : Json} {row : InstructionRow}
    (h : row? ds program raw = .ok (some row)) :
    ∀ field ∈ row.fields, field.type.Everywhere IsKnown := by
  obtain ⟨name, -, h⟩ := bind_eq_ok.mp h
  split at h
  · cases h
  · obtain ⟨arguments, -, h⟩ := bind_eq_ok.mp h
    split at h
    · cases h
    · cases h
    · next fields hfields =>
      have hknown := everywhereInFields_iff.mp ((knownUpTo ds maxDepth).fields _ _ hfields)
      obtain ⟨explicit, -, h⟩ := bind_eq_ok.mp h
      split at h
      all_goals
        obtain ⟨discriminator, -, h⟩ := bind_eq_ok.mp h
        dsimp only at h
        split at h
        · cases h
        · obtain ⟨display, -, h⟩ := bind_eq_ok.mp h
          obtain ⟨group, -, h⟩ := bind_eq_ok.mp h
          obtain ⟨accounts, -, h⟩ := bind_eq_ok.mp h
          obtain rfl := Option.some.inj (pure_eq_ok.mp h)
          exact hknown

theorem isKnown_of_table {idl : Json} {program label : Option Text} {t : ProgramTable}
    (h : table idl program label = .ok t) :
    ∀ row ∈ t.rows, ∀ field ∈ row.fields, field.type.Everywhere IsKnown := by
  obtain ⟨metadata, -, h⟩ := bind_eq_ok.mp h
  obtain ⟨key, -, h⟩ := bind_eq_ok.mp h
  obtain ⟨name, -, h⟩ := bind_eq_ok.mp h
  obtain ⟨types, -, h⟩ := bind_eq_ok.mp h
  obtain ⟨ds, -, h⟩ := bind_eq_ok.mp h
  obtain ⟨instructions, -, h⟩ := bind_eq_ok.mp h
  obtain ⟨raw, -, h⟩ := bind_eq_ok.mp h
  obtain ⟨rows, hrows, h⟩ := bind_eq_ok.mp h
  obtain ⟨title, -, h⟩ := bind_eq_ok.mp h
  split at h
  · next t' ht' =>
    obtain rfl := pure_eq_ok.mp h
    rw [(ProgramTable.eq_of_ofRows_eq_ok ht').2]
    intro row hrow
    obtain ⟨instruction, -, hinstruction⟩ := exists_of_mem_filterMapM hrows row hrow
    exact isKnown_of_row? hinstruction
  · cases h

/-! ## Payloads -/

/-- A row without unknown layouts blames its payload for bytes only. -/
theorem concernsBytes_of_decode {t : ProgramTable} {data : Bytes} {accounts : Nat} {e : DecodeError}
    (hknown : ∀ row ∈ t.rows, ∀ field ∈ row.fields, field.type.Everywhere IsKnown)
    (h : t.decode data accounts = .ok (.error e)) : e.ConcernsBytes := by
  cases ProgramTable.answers_of_decode h with
  | short => exact .truncated _ _ _
  | unmatched => exact .unknownDiscriminator _
  | unread _ hrow hread =>
      refine (ofBytes_of_readSchema ?_ hread).concernsBytes.shift t.size
      intro field hfield
      refine (hknown _ (ProgramTable.length_of_find? hrow).1 field hfield).imp ?_
      intro layout hlayout
      cases layout with
      | unknown => exact hlayout.elim
      | struct =>
          rintro ⟨hkind, -⟩
          cases hkind
      | int | bool | pubkey | bytes | string | fixedBytes | array | vec | option | enum => exact id

/-- A payload of a described program fails for its bytes only. Reading comes by no place outside of
it where no size of its row lies below zero, and gives an outcome where the row is well made and its
values are not too deep to be shown. -/
theorem decode_of_table {idl : Json} {program label : Option Text} {t : ProgramTable}
    (htable : table idl program label = .ok t) (data : Bytes) (accounts limit : Nat) :
    (∀ e, t.decodeWithin limit data accounts = .ok (.error e) → e.ConcernsBytes) ∧
    (∀ row ∈ t.rows, row.discriminator = data.take t.size →
      (∀ field ∈ row.fields, field.type.Everywhere SizeNonneg) →
      ∀ place, SchemaComesBy (data.drop t.size) row.fields 0 place →
        0 ≤ place ∧ place + t.size ≤ data.length) ∧
    (Decimal.isWritable data.length = true → t.displayDepth data ≤ limit →
      (∀ row ∈ t.rows, row.discriminator = data.take t.size → row.WellMade) →
      ∃ outcome, t.decodeWithin limit data accounts = .ok outcome) := by
  refine ⟨?_, ?_, ?_⟩
  · intro e h
    exact concernsBytes_of_decode (isKnown_of_table htable)
      (ProgramTable.decodeWithin_eq_ok_iff.mp h).1
  · intro row hrow hsame hsizes place hplace
    obtain ⟨hsize, -⟩ := ProgramTable.find?_of_discriminator_eq hrow hsame
    obtain ⟨hle, hstop⟩ := hplace.inRange hsizes ⟨Int.le_refl _, Int.natCast_nonneg _⟩
    rw [List.length_drop] at hstop
    exact ⟨hle, by omega⟩
  · intro hlength hdepth hmade
    obtain ⟨outcome, houtcome⟩ := t.exists_decode accounts hmade hlength
    exact ⟨outcome, ProgramTable.decodeWithin_eq_ok_iff.mpr ⟨houtcome, hdepth⟩⟩

/-- A declared enum in a list, of which the second index is that of no variant. -/
theorem decode_of_table_place_order :
    ∃ (idl : Json) (t : ProgramTable) (data : Bytes),
      idl = .object [("address", "11111111111111111111111111111111"), ("name", "exchange"),
        ("instructions", .list [.object [("name", "place_order"),
          ("discriminator", .list ([1, 2, 3, 4, 5, 6, 7, 8].map .int)),
          ("args", .list [.object [("name", "sides"),
            ("type", .object [("vec", .object [("defined", "Side")])])]])]]),
        ("types", .list [.object [("name", "Side"), ("type", .object [("kind", "enum"),
          ("variants", .list [.object [("name", "Bid")], .object [("name", "Ask"),
            ("fields", .list ["u16"])]])])]])] ∧
      table idl none none = .ok t ∧
      data = [1, 2, 3, 4, 5, 6, 7, 8, 2, 0, 0, 0, 0, 9] ∧
      t.decodeWithin maxDisplayDepth data 2 = .ok (.error (.invalidVariant 9 5)) ∧
      DecodeError.ConcernsBytes (.invalidVariant 9 5) := by
  obtain ⟨idl, hidl⟩ : ∃ idl : Json, idl =
      .object [("address", "11111111111111111111111111111111"), ("name", "exchange"),
        ("instructions", .list [.object [("name", "place_order"),
          ("discriminator", .list ([1, 2, 3, 4, 5, 6, 7, 8].map .int)),
          ("args", .list [.object [("name", "sides"),
            ("type", .object [("vec", .object [("defined", "Side")])])]])]]),
        ("types", .list [.object [("name", "Side"), ("type", .object [("kind", "enum"),
          ("variants", .list [.object [("name", "Bid")], .object [("name", "Ask"),
            ("fields", .list ["u16"])]])])]])] := ⟨_, rfl⟩
  obtain ⟨data, hdata⟩ : ∃ data : Bytes, data = [1, 2, 3, 4, 5, 6, 7, 8, 2, 0, 0, 0, 0, 9] :=
    ⟨_, rfl⟩
  obtain ⟨row, hrow⟩ : ∃ row : InstructionRow, row = ⟨[1, 2, 3, 4, 5, 6, 7, 8], "PlaceOrder",
      [⟨"sides", .vec (.enum [⟨"Bid", none⟩, ⟨"Ask", some (.struct [⟨"0", .u16, none⟩])⟩]), none⟩],
      []⟩ := ⟨_, rfl⟩
  obtain ⟨t, htable, hrows, hsize, hdepth⟩ : ∃ t, table idl none none = .ok t ∧ t.rows = [row] ∧
      t.size = 8 ∧ t.displayDepth data = 0 := by
    subst hidl hdata hrow
    exact ⟨_, rfl, rfl, rfl, rfl⟩
  have hwritable : (DecodeError.invalidVariant 9 5).isWritable = true := by decide +kernel
  have hread : readSchema (data.drop t.size) row.fields 0 =
      .error (.payload (.invalidVariant 9 5)) := by
    rw [← Fault.inPayload_of_isWritable hwritable, hsize]
    subst hdata hrow
    rfl
  have hdecode : t.decode data 2 = .ok (.error (.invalidVariant 9 5)) := by
    have hmem : row ∈ t.rows := hrows ▸ List.mem_singleton_self row
    have hsame : row.discriminator = data.take t.size := by
      rw [hsize, hdata, hrow]
      rfl
    obtain ⟨hlong, hfound⟩ := ProgramTable.find?_of_discriminator_eq hmem hsame
    exact ProgramTable.decode_of_payload hlong hfound hread hwritable
  have hmade : ∀ row ∈ t.rows, row.WellMade := by
    rw [hrows, List.forall_mem_singleton, hrow]
    have hsides : DistinctNames ["Bid", "Ask"] := ⟨["Bid", "Ask"], rfl, by decide⟩
    have hplaces : DistinctNames ["0"] := ⟨["0"], rfl, by decide⟩
    refine ⟨?_, ?_, ?_, ?_⟩
    · simp [Everywhere, EverywhereInFields, EverywhereInVariants, SizeNonneg, u16]
    · simp [NamesApart, Everywhere, EverywhereInFields, EverywhereInVariants, FieldsApart,
        VariantsApart, hsides, hplaces, u16]
    · decide +kernel
    · decide +kernel
  have hlength : Decimal.isWritable data.length = true := by
    subst hdata
    decide +kernel
  obtain ⟨hconcerns, -, hexists⟩ := decode_of_table htable data 2 maxDisplayDepth
  obtain ⟨outcome, houtcome⟩ := hexists hlength (hdepth ▸ Nat.zero_le _) fun row hrow _ =>
    hmade row hrow
  have hsame := (ProgramTable.decodeWithin_eq_ok_iff.mp houtcome).1
  obtain rfl := Except.ok.inj (hsame.symm.trans hdecode)
  exact ⟨idl, t, data, hidl, htable, hdata, houtcome, hconcerns _ houtcome⟩

/-- A size below zero, by which the second argument is looked for in front of the payload. -/
theorem decode_of_table_negative_size :
    ∃ (idl : Json) (t : ProgramTable),
      idl = .object [("address", "11111111111111111111111111111111"), ("name", "exchange"),
        ("instructions", .list [.object [("name", "close"),
          ("discriminator", .list ([1, 2, 3, 4, 5, 6, 7, 8].map .int)),
          ("args", .list [.object [("array", .list ["u8", .int (-1)])], "bool"])]])] ∧
      table idl none none = .ok t ∧
      t.decodeWithin maxDisplayDepth [1, 2, 3, 4, 5, 6, 7, 8] 0 = .error .outOfRange := by
  exact ⟨_, _, rfl, rfl, rfl⟩

end SolanaTx.Idl
