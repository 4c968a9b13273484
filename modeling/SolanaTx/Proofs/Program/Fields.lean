import SolanaTx.Proofs.Layout.Acceptance
import SolanaTx.Proofs.Layout.Faults
import SolanaTx.Proofs.Program.Schema

/-!
# Fields of what is read

Showing adds no failure of its own to reading, as long as labels can be written and there are levels
enough: the fields of a schema are decoded wherever their values are read, and fail with them
otherwise. Lists inside lists take three levels each to be shown, and so they may be read and not
shown.
-/

namespace SolanaTx

open Fallible Layout

variable {data : Bytes} {schema : List Field}

namespace Layout

/-- A result that takes too many levels is none. -/
theorem within_levels {α : Type} (limit depth : Nat) (a : α) :
    (do if limit < depth then throw .endless
        pure a : Except Fault α) = if depth ≤ limit then .ok a else .error .endless := by
  by_cases hdepth : depth ≤ limit
  · rw [if_pos hdepth, if_neg (Nat.not_lt.mpr hdepth)]
    rfl
  · rw [if_neg hdepth, if_pos (Nat.lt_of_not_le hdepth)]
    rfl

theorem displayWithin_of_display {layout : Layout} {v : Value} {decimals : Option Int} {t : Text}
    (limit : Nat) (h : layout.display v decimals = .ok (.text t)) :
    displayWithin limit layout v decimals =
      if layout.displayDepth v ≤ limit then .ok (.text t) else .error .endless := by
  rw [displayWithin, h, ok_bind]
  exact within_levels _ _ _

theorem foldl_max_le_iff {depths : List Nat} {start limit : Nat} :
    depths.foldl max start ≤ limit ↔ start ≤ limit ∧ ∀ depth ∈ depths, depth ≤ limit := by
  induction depths generalizing start with
  | nil => simp
  | cons depth rest ih => rw [List.foldl_cons, ih, Nat.max_le, List.forall_mem_cons, and_assoc]

/-- There are levels enough for a schema where there are enough for each of its fields. -/
theorem schemaDepth_le_iff {values : List Value} {stop : Int} {limit : Nat}
    (h : readSchema data schema 0 = .ok (values, stop)) :
    schemaDepth data schema ≤ limit ↔
      ∀ pair ∈ schema.zip values, fieldDepth pair.1 pair.2 ≤ limit := by
  rw [schemaDepth, h]
  dsimp only
  rw [foldl_max_le_iff, List.forall_mem_map, and_iff_right (Nat.zero_le limit)]

end Layout

theorem decodeFieldsWithin_of_decodeFields {decoded : List DecodedField × Int} (limit : Nat)
    (h : decodeFields data schema = .ok decoded) :
    decodeFieldsWithin limit data schema =
      if schemaDepth data schema ≤ limit then .ok decoded else .error .endless := by
  rw [decodeFieldsWithin, h, ok_bind]
  exact within_levels _ _ _

/-- What is read is shown by the rules of the kinds, whatever the last resort is. So the fields of a
schema fail only as their values do, for a label that cannot be written, or for want of levels. -/
theorem reading_is_shown (data : Bytes) (limit : Nat) :
    (∀ (layout : Layout) (offset : Int) (v : Value) (stop : Int) (decimals : Option Int),
      layout.Everywhere FieldsApart → layout.Everywhere VariantsApart →
      read data layout offset = .ok (v, stop) →
      ∃ t, ShowsAt data layout offset v decimals t ∧
        (∀ other, displayOr other layout v decimals = .ok (.text t)) ∧
        layout.display v decimals = .ok (.text t) ∧
        displayWithin limit layout v decimals =
          if layout.displayDepth v ≤ limit then .ok (.text t) else .error .endless) ∧
    ∀ schema : List Field, NamesApart schema →
      (∀ fault, readSchema data schema 0 = .error fault →
        decodeFields data schema = .error fault ∧
        decodeFieldsWithin limit data schema = .error fault) ∧
      ∀ values consumed, readSchema data schema 0 = .ok (values, consumed) →
        (LabelsWritable schema → ∃ fields, decodeFields data schema = .ok (fields, consumed) ∧
          fields.length = schema.length ∧
          List.Forall₂ (fun pair field => DecodedField.Shows field pair.1 pair.2)
            (schema.zip values) fields ∧
          decodeFieldsWithin limit data schema =
            if ∀ pair ∈ schema.zip values, fieldDepth pair.1 pair.2 ≤ limit
            then .ok (fields, consumed) else .error .endless) ∧
        (¬LabelsWritable schema → decodeFields data schema = .error .badValue ∧
          ∃ fault, decodeFieldsWithin limit data schema = .error fault ∧
            ((∀ pair ∈ schema.zip values, fieldDepth pair.1 pair.2 ≤ limit) →
              fault = .badValue)) := by
  constructor
  · intro layout offset v stop decimals hfields hvariants h
    obtain ⟨t, ht, hother, hdisplay⟩ := exists_display_of_read decimals hfields hvariants h
    exact ⟨t, ht, hother, hdisplay, displayWithin_of_display limit hdisplay⟩
  · intro schema hnames
    constructor
    · intro fault h
      have hdecode : decodeFields data schema = .error fault := by
        rw [decodeFields, h]
        rfl
      refine ⟨hdecode, ?_⟩
      rw [decodeFieldsWithin, hdecode]
      rfl
    · refine fun values consumed h => ⟨fun hlabels => ?_, fun hlabels => ?_⟩
      · obtain ⟨fields, hdecode, hlength, hall⟩ :=
          exists_decodeFields_of_readSchema hnames hlabels h
        refine ⟨fields, hdecode, hlength, hall, ?_⟩
        rw [decodeFieldsWithin_of_decodeFields limit hdecode]
        exact if_congr (schemaDepth_le_iff h) rfl rfl
      · have hdecode := decodeFields_of_not_labelsWritable hnames hlabels h
        refine ⟨hdecode, .badValue, ?_, fun _ => rfl⟩
        rw [decodeFieldsWithin, hdecode]
        rfl

/-- An option with a variant that carries bytes, and two numbers with a place each. -/
theorem reading_is_shown_offer :
    ∃ (data : Bytes) (side : Layout) (v : Value) (schema : List Field)
        (fields : List DecodedField),
      data = [1, 1, 2, 0, 0, 0, 0xAB, 7, 15, 0, 0xF6, 0xFF] ∧
      side = .option (.enum [⟨"Bid", none⟩, ⟨"Ask", some (.vec .u8)⟩]) ∧
      schema = [⟨"side", side, none⟩, ⟨"sizes", .array (.int true .w16) 2, some 1⟩] ∧
      v = .variant "Ask" (.bytes [0xAB, 7]) ∧
      (∀ other, displayOr other side v none = .ok (.text "Ask ab07")) ∧
      ShowsAt data side 0 v none "Ask ab07" ∧
      decodeFieldsWithin maxDisplayDepth data schema = .ok (fields, 12) ∧
      fields.map (·.value) = [("Ask ab07" : Text), "[1.5, -1.0]"] := by
  obtain ⟨data, hdata⟩ :
      ∃ data : Bytes, data = [1, 1, 2, 0, 0, 0, 0xAB, 7, 15, 0, 0xF6, 0xFF] := ⟨_, rfl⟩
  obtain ⟨side, hside⟩ : ∃ side : Layout,
      side = .option (.enum [⟨"Bid", none⟩, ⟨"Ask", some (.vec .u8)⟩]) := ⟨_, rfl⟩
  obtain ⟨sizes, hsizes⟩ : ∃ sizes : Field,
      sizes = ⟨"sizes", .array (.int true .w16) 2, some 1⟩ := ⟨_, rfl⟩
  have hnames : NamesApart [⟨"side", side, none⟩, sizes] := by
    have hvariants : DistinctNames ["Bid", "Ask"] := ⟨["Bid", "Ask"], rfl, by decide⟩
    subst hside hsizes
    simp [NamesApart, Everywhere, EverywhereInVariants, FieldsApart, VariantsApart, hvariants, u8]
  have hread : read data side 0 = .ok (.variant "Ask" (.bytes [0xAB, 7]), 8) := by
    subst hdata hside
    rfl
  have hschema : readSchema data [⟨"side", side, none⟩, sizes] 0 =
      .ok ([.variant "Ask" (.bytes [0xAB, 7]), .list [.int 15, .int (-10)]], 12) := by
    subst hdata hside hsizes
    rfl
  have htexts : (decodeFields data [⟨"side", side, none⟩, sizes]).toOption.map
      (fun decoded => decoded.1.map (·.value)) = some [("Ask ab07" : Text), "[1.5, -1.0]"] := by
    subst hdata hside hsizes
    decide +kernel
  obtain ⟨hvalues, hfields⟩ := reading_is_shown data maxDisplayDepth
  obtain ⟨hapart, hvariants⟩ := hnames _ List.mem_cons_self
  obtain ⟨t, ht, hother, hdisplay, -⟩ := hvalues side 0 _ 8 none hapart hvariants hread
  have htext : t = "Ask ab07" := by
    subst hside
    exact (Json.text.inj (Except.ok.inj hdisplay)).symm
  have hlabels : LabelsWritable [⟨"side", side, none⟩, sizes] := by
    subst hside hsizes
    decide +kernel
  obtain ⟨fields, hdecode, -, -, hwithin⟩ := ((hfields _ hnames).2 _ _ hschema).1 hlabels
  refine ⟨data, side, .variant "Ask" (.bytes [0xAB, 7]), [⟨"side", side, none⟩, sizes], fields,
    hdata, hside, by rw [hsizes], rfl, htext ▸ hother, htext ▸ ht, ?_, ?_⟩
  · rw [hwithin, if_pos]
    subst hdata hside hsizes
    decide
  · rw [hdecode] at htexts
    exact Option.some.inj htexts

/-! ## Lists inside lists -/

namespace Layout

/-- A list of bytes inside as many lists. -/
def nestedLists : Nat → Layout
  | 0 => .vec .u8
  | depth + 1 => .vec (nestedLists depth)

/-- A byte inside lists of one item. -/
def nestedItem : Nat → Value
  | 0 => .bytes [7]
  | depth + 1 => .list [nestedItem depth]

def nestedBytes : Nat → Bytes
  | 0 => prefixed 1 [7]
  | depth + 1 => prefixed 1 (nestedBytes depth)

theorem isByte_nestedLists (depth : Nat) : (nestedLists depth).isByte = false := by
  cases depth with
  | zero => rfl
  | succ depth => rfl

theorem everywhere_nestedLists {p : Layout → Prop} (hvec : ∀ element, p (.vec element))
    (hbyte : p .u8) (depth : Nat) : (nestedLists depth).Everywhere p := by
  induction depth with
  | zero => exact ⟨hvec .u8, hbyte⟩
  | succ depth ih => exact ⟨hvec _, ih⟩

theorem length_nestedBytes (depth : Nat) : (nestedBytes depth).length = 4 * depth + 5 := by
  induction depth with
  | zero => rfl
  | succ depth ih =>
      rw [nestedBytes, length_prefixed, ih, countSize]
      omega

theorem writes_nestedLists (depth : Nat) :
    (nestedLists depth).Writes (nestedItem depth) (nestedBytes depth) := by
  induction depth with
  | zero => exact ⟨[7], by decide, rfl, rfl⟩
  | succ depth ih =>
      rw [nestedLists, Writes, isByte_nestedLists, if_neg Bool.false_ne_true]
      have hone : IsCount 1 := by decide
      exact ⟨[nestedItem depth], nestedBytes depth, hone, rfl, rfl, nestedBytes depth, [],
        (List.append_nil _).symm, ih, rfl⟩

theorem displayDepth_nestedLists (depth : Nat) :
    (nestedLists depth).displayDepth (nestedItem depth) = 3 * depth + 1 := by
  induction depth with
  | zero => rfl
  | succ depth ih =>
      rw [nestedLists, nestedItem, displayDepth, List.map_singleton, ih]
      simp only [List.foldl_cons, List.foldl_nil]
      omega

theorem namesApart_nestedLists (depth : Nat) :
    NamesApart [⟨"a", nestedLists depth, none⟩] := by
  intro field hfield
  obtain rfl := List.mem_singleton.mp hfield
  exact ⟨everywhere_nestedLists (fun _ => trivial) trivial depth,
    everywhere_nestedLists (fun _ => trivial) trivial depth⟩

theorem read_nestedLists (depth : Nat) :
    read (nestedBytes depth) (nestedLists depth) 0 =
      .ok (nestedItem depth, (4 * depth + 5 : Nat)) := by
  have hdata : nestedBytes depth = [] ++ nestedBytes depth ++ [] := (List.append_nil _).symm
  have hread := read_of_writes hdata (everywhere_nestedLists (fun _ => trivial) trivial depth)
    (writes_nestedLists depth)
  rw [List.nil_append, length_nestedBytes] at hread
  exact hread

theorem readSchema_nestedLists (depth : Nat) :
    readSchema (nestedBytes depth) [⟨"a", nestedLists depth, none⟩] 0 =
      .ok ([nestedItem depth], (4 * depth + 5 : Nat)) := by
  rw [readSchema, read_nestedLists]
  rfl

theorem labelsWritable_nestedLists (depth : Nat) :
    LabelsWritable [⟨"a", nestedLists depth, none⟩] := by
  intro field hfield
  obtain rfl := List.mem_singleton.mp hfield
  induction depth with
  | zero => rfl
  | succ depth ih => exact ih List.mem_cons_self

/-- Each list takes three levels. -/
theorem le_schemaDepth_nestedLists (depth : Nat) :
    3 * depth + 1 ≤ schemaDepth (nestedBytes depth) [⟨"a", nestedLists depth, none⟩] := by
  have hlevels := (schemaDepth_le_iff (readSchema_nestedLists depth)).mp (Nat.le_refl _)
  have hfield := hlevels _ List.mem_cons_self
  rw [fieldDepth, displayDepth_nestedLists] at hfield
  exact (Nat.le_max_right _ _).trans hfield

/-- They are not decoded where there are less than three levels for each. -/
theorem decodeFieldsWithin_nestedLists (limit depth : Nat) (h : limit < 3 * depth + 1) :
    decodeFieldsWithin limit (nestedBytes depth) [⟨"a", nestedLists depth, none⟩] =
      .error .endless := by
  obtain ⟨fields, hfields, -⟩ := exists_decodeFields_of_readSchema (namesApart_nestedLists depth)
    (labelsWritable_nestedLists depth) (readSchema_nestedLists depth)
  rw [decodeFieldsWithin_of_decodeFields limit hfields,
    if_neg (Nat.not_le.mpr (h.trans_le (le_schemaDepth_nestedLists depth)))]

/-- At 600 lists there are too few levels. -/
theorem nestedLists_too_deep :
    (nestedLists 599).Everywhere IsKnown ∧ (nestedLists 599).Everywhere SizeNonneg ∧
      NamesApart [⟨"a", nestedLists 599, none⟩] ∧
      read (nestedBytes 599) (nestedLists 599) 0 = .ok (nestedItem 599, 2401) ∧
      displayWithin maxDisplayDepth (nestedLists 599) (nestedItem 599) none = .error .endless ∧
      readSchema (nestedBytes 599) [⟨"a", nestedLists 599, none⟩] 0 =
        .ok ([nestedItem 599], 2401) ∧
      decodeFieldsWithin maxDisplayDepth (nestedBytes 599) [⟨"a", nestedLists 599, none⟩] =
        .error .endless := by
  have hdeep : maxDisplayDepth < 3 * 599 + 1 := by decide
  have hnames := namesApart_nestedLists 599
  obtain ⟨hfields, hvariants⟩ := hnames _ List.mem_cons_self
  have hread := read_nestedLists 599
  obtain ⟨t, -, -, ht⟩ := exists_display_of_read none hfields hvariants hread
  refine ⟨everywhere_nestedLists (fun _ => trivial) trivial 599,
    everywhere_nestedLists (fun _ => trivial) trivial 599, hnames, hread, ?_,
    readSchema_nestedLists 599, decodeFieldsWithin_nestedLists _ 599 hdeep⟩
  rw [displayWithin_of_display _ ht, displayDepth_nestedLists, if_neg (Nat.not_le.mpr hdeep)]

end Layout

end SolanaTx
