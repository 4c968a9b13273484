import SolanaTx.Proofs.Fallible
import SolanaTx.Proofs.Layout.Grammar

/-!
# Reading what is written

A reader gives the value that the bytes at its offset write, whatever stands before
and behind them, and the offset behind them.
-/

namespace SolanaTx.Layout

open Fallible

variable {data pre b post : Bytes}

theorem slice_eq (hdata : data = pre ++ b ++ post) :
    data.slice pre.length (pre.length + b.length) = b := by
  rw [← Int.natCast_add, Bytes.slice_natCast, hdata, List.append_assoc, List.drop_left,
    List.take_left]

/-- The bytes behind some others are taken off at their offset. -/
theorem take_eq (hdata : data = pre ++ b ++ post) {size : Int} (hsize : size = b.length) :
    take data pre.length size = .ok b := by
  have hlength : ¬ (data.length : Int) - pre.length < b.length := by
    rw [hdata]
    simp only [List.length_append]
    omega
  rw [take, hsize, if_neg hlength, slice_eq hdata]

theorem readNat_eq (hdata : data = pre ++ b ++ post) {width : Nat} (hwidth : b.length = width) :
    readNat data width pre.length = .ok (b.toNat, ((pre ++ b).length : Nat)) := by
  subst hwidth
  rw [readNat, take_eq hdata rfl, ok_bind, ← Int.natCast_add, ← List.length_append]
  rfl

/-- A number in front of bytes is read back. -/
theorem readNat_ofNat {count : Nat} (hdata : data = pre ++ Bytes.ofNat countSize count ++ post)
    (hcount : IsCount count) :
    readNat data countSize pre.length =
      .ok (count, ((pre ++ Bytes.ofNat countSize count).length : Nat)) := by
  have hlt : count < Bytes.capacity countSize := hcount
  rw [readNat_eq hdata (Bytes.length_ofNat _ _), Bytes.toNat_ofNat, Nat.mod_eq_of_lt hlt]

theorem readNat_byte {byte : UInt8} (hdata : data = pre ++ [byte] ++ post) :
    readNat data 1 pre.length = .ok (byte.toNat, ((pre ++ [byte]).length : Nat)) :=
  readNat_eq hdata rfl

/-- Bytes with others behind them, as the reader of the first part and as that of the second
part meets them. -/
theorem split_append (first : Bytes) {later : Bytes}
    (hdata : data = pre ++ (first ++ later) ++ post) :
    data = pre ++ first ++ (later ++ post) ∧ data = pre ++ first ++ later ++ post := by
  rw [hdata]
  simp only [List.append_assoc, and_self]

theorem readCounted_eq {raw : Bytes} (hdata : data = pre ++ prefixed raw.length raw ++ post)
    (hcount : IsCount raw.length) :
    readCounted data pre.length =
      .ok (raw, ((pre ++ prefixed raw.length raw).length : Nat)) := by
  obtain ⟨hnumber, hraw⟩ := split_append _ hdata
  rw [readCounted, readNat_ofNat hnumber hcount, ok_bind]
  dsimp only
  rw [take_eq hraw rfl, ok_bind, ← Int.natCast_add, ← List.length_append, List.append_assoc]
  rfl

/-- Values that are each read back are read back one behind the other. -/
theorem readMany_of_writesEach {writes : Value → Bytes → Prop}
    {reader : Int → Except Fault (Value × Int)}
    (hreader : ∀ v b pre post, data = pre ++ b ++ post → writes v b →
      reader (pre.length : Nat) = .ok (v, ((pre ++ b).length : Nat)))
    {items : List Value} (hdata : data = pre ++ b ++ post) (h : WritesEach writes items b) :
    readMany reader items.length (pre.length : Nat) = .ok (items, ((pre ++ b).length : Nat)) := by
  induction items generalizing pre b with
  | nil =>
      obtain rfl : b = [] := h
      rw [List.append_nil]
      rfl
  | cons v rest ih =>
      obtain ⟨first, later, rfl, hfirst, hlater⟩ := h
      obtain ⟨hthis, hnext⟩ := split_append _ hdata
      rw [List.length_cons, readMany, hreader v first pre _ hthis hfirst, ok_bind]
      dsimp only
      rw [ih hnext hlater, ok_bind, List.append_assoc]
      rfl

/-! ## Entries, counts and variants -/

/-- An entry of a new name comes behind the others. -/
theorem putEntry_of_forall {name : Json} {v : Value} {entries : List (Json × Value)}
    (h : ∀ entry ∈ entries, entry.1.sameKey name = false) :
    Value.putEntry name v entries = entries ++ [(name, v)] := by
  induction entries with
  | nil => rfl
  | cons entry rest ih =>
      rw [List.forall_mem_cons] at h
      rw [Value.putEntry, h.1, ih h.2]
      rfl

/-- Values that are there are not refused for their number. -/
theorem not_refused {count : Nat} {size : Int} (hdata : data = pre ++ b ++ post)
    (hfits : count * size ≤ b.length) :
    ¬ (size ≠ 0 ∧ (data.length : Int) - pre.length < count * size) := by
  rw [hdata]
  simp only [List.length_append]
  omega

theorem isByte_eq {layout : Layout} (h : layout.isByte) : layout = .u8 := by
  match layout, h with
  | .int false .w8, _ => rfl

theorem readVariant_succ (index : Nat) (variant : Variant) (rest : List Variant) (left : Nat)
    (offset : Int) : readVariant data index (variant :: rest) (left + 1) offset =
      readVariant data index rest left offset := by
  obtain ⟨name, _ | type⟩ := variant
  all_goals rw [readVariant]

/-! ## Values of all layouts -/

mutual

/-- A value is read back by its layout. -/
theorem read_of_writes {pre b post : Bytes} {layout : Layout} {v : Value}
    (hdata : data = pre ++ b ++ post) (hnames : layout.Everywhere FieldsApart)
    (h : layout.Writes v b) :
    read data layout (pre.length : Nat) = .ok (v, ((pre ++ b).length : Nat)) := by
  cases layout with
  | int signed width =>
      obtain ⟨hlength, rfl⟩ := h
      rw [read, take_eq hdata (by rw [hlength]), ok_bind, ← hlength, ← Int.natCast_add,
        ← List.length_append]
      rfl
  | bool =>
      obtain ⟨byte, rfl, rfl⟩ := h
      have hbyte : take data (pre.length : Nat) 1 = .ok [byte] := take_eq hdata rfl
      rw [read, hbyte, ok_bind, List.length_append]
      rfl
  | pubkey =>
      obtain ⟨key, rfl, rfl⟩ := h
      rw [read, take_eq hdata (by rw [key.length_eq]; rfl), ok_bind, Pubkey.ofBytes?,
        dif_pos key.length_eq, List.length_append, key.length_eq]
      rfl
  | bytes =>
      obtain ⟨raw, hcount, rfl, rfl⟩ := h
      rw [read, readCounted_eq hdata hcount, ok_bind]
      rfl
  | string =>
      obtain ⟨raw, hcount, rfl, rfl⟩ := h
      rw [read, readCounted_eq hdata hcount, ok_bind]
      rfl
  | fixedBytes size =>
      obtain ⟨hlength, rfl⟩ := h
      rw [read, take_eq hdata hlength.symm, ok_bind, ← hlength, ← Int.natCast_add,
        ← List.length_append]
      rfl
  | array element size =>
      obtain ⟨items, rfl, rfl, hitems⟩ := h
      have hmany := readMany_of_writesEach
        (fun _ _ _ _ hdata hv => read_of_writes hdata hnames.2 hv) hdata hitems
      rw [read, Int.toNat_natCast, hmany, ok_bind]
      rfl
  | vec element =>
      rw [Writes] at h
      split at h
      · next hbyte =>
        obtain ⟨raw, hcount, rfl, rfl⟩ := h
        obtain ⟨hnumber, hbehind⟩ := split_append _ hdata
        have hfits : raw.length * element.minSize ≤ raw.length := by
          rw [isByte_eq hbyte]
          exact Int.le_of_eq (Int.mul_one _)
        rw [read, readNat_ofNat hnumber hcount, ok_bind]
        dsimp only
        rw [if_neg (not_refused hbehind hfits), if_pos hbyte, slice_eq hbehind,
          ← Int.natCast_add, ← List.length_append, prefixed, List.append_assoc]
        rfl
      · next hbyte =>
        obtain ⟨items, rest, hcount, rfl, rfl, hitems⟩ := h
        obtain ⟨hnumber, hbehind⟩ := split_append _ hdata
        -- the elements take up their least sizes, so that the count of them is not refused
        have hleast : ∀ v b, element.Writes v b → element.minSize ≤ b.length :=
          fun _ _ hv => minSize_le_of_writes hv
        have hfits := minSize_le_of_writesEach hleast hitems
        have hmany := readMany_of_writesEach
          (fun _ _ _ _ hdata hv => read_of_writes hdata hnames.2 hv) hbehind hitems
        rw [read, readNat_ofNat hnumber hcount, ok_bind]
        dsimp only
        rw [if_neg (not_refused hbehind hfits), if_neg hbyte, hmany, ok_bind, prefixed,
          List.append_assoc]
        rfl
  | option element =>
      rcases h with ⟨rfl, rfl⟩ | ⟨rest, rfl, hrest⟩
      · rw [read, readNat_byte hdata, ok_bind]
        rfl
      · obtain ⟨htag, hnext⟩ := split_append [1] hdata
        rw [read, readNat_byte htag, ok_bind]
        have hvalue := read_of_writes hnext hnames.2 hrest
        rw [List.append_assoc pre [1] rest] at hvalue
        exact hvalue
  | struct fields =>
      obtain ⟨entries, rfl, hfields⟩ := h
      have hread := readFields_of_writes [] hdata hnames.1 hnames.2 hfields
      rw [read, hread, ok_bind]
      rfl
  | enum variants =>
      obtain ⟨index, rest, rfl, hrest⟩ := h
      obtain ⟨htag, hnext⟩ := split_append [index] hdata
      rw [read, readNat_byte htag, ok_bind]
      have hvalue := readVariant_of_writes index.toNat hnext hnames.2 hrest
      rw [List.append_assoc pre [index] rest] at hvalue
      exact hvalue
  | unknown tag => cases h

/-- Fields are read behind those that are done, as long as all of them have different names. -/
theorem readFields_of_writes {pre b post : Bytes} {fields : List Field}
    {entries : List (Json × Value)} (done : List (Json × Value)) (hdata : data = pre ++ b ++ post)
    (hdistinct : DistinctNames (done.map Prod.fst ++ fields.map (·.name)))
    (hnames : EverywhereInFields FieldsApart fields) (h : WritesFields fields entries b) :
    readFields data fields done (pre.length : Nat) =
      .ok (done ++ entries, ((pre ++ b).length : Nat)) := by
  cases fields with
  | nil =>
      obtain ⟨rfl, rfl⟩ := h
      rw [readFields, List.append_nil, List.append_nil]
  | cons field rest =>
      obtain ⟨name, type, decimals⟩ := field
      obtain ⟨v, others, first, later, rfl, rfl, hfirst, hlater⟩ := h
      rw [List.map_cons] at hdistinct
      obtain ⟨hkey, -, hfresh⟩ := hdistinct.sameKey_middle
      rw [List.forall_mem_map] at hfresh
      obtain ⟨hthis, hnext⟩ := split_append _ hdata
      have hrest : DistinctNames ((done ++ [(name, v)]).map Prod.fst ++ rest.map (·.name)) := by
        rw [List.map_append, List.append_assoc]
        exact hdistinct
      have hread := readFields_of_writes (done ++ [(name, v)]) hnext hrest hnames.2 hlater
      rw [readFields, read_of_writes hthis hnames.1 hfirst, ok_bind]
      dsimp only
      rw [if_pos hkey, putEntry_of_forall hfresh, hread, List.append_assoc, List.append_assoc]
      rfl

/-- What a variant carries is read; the whole index is there for the error only. -/
theorem readVariant_of_writes {pre b post : Bytes} {variants : List Variant} {left : Nat}
    {v : Value} (index : Nat) (hdata : data = pre ++ b ++ post)
    (hnames : EverywhereInVariants FieldsApart variants) (h : WritesVariant variants left v b) :
    readVariant data index variants left (pre.length : Nat) =
      .ok (v, ((pre ++ b).length : Nat)) := by
  cases variants with
  | nil => cases h
  | cons variant rest =>
      cases left with
      | zero =>
          obtain ⟨name, _ | type⟩ := variant
          · obtain ⟨rfl, rfl⟩ := h
            rw [readVariant, List.append_nil]
            rfl
          · obtain ⟨payload, rfl, hpayload⟩ := h
            rw [readVariant, read_of_writes hdata hnames.1 hpayload, ok_bind]
            rfl
      | succ left =>
          rw [writesVariant_succ] at h
          rw [readVariant_succ]
          exact readVariant_of_writes index hdata hnames.rest h

end

end SolanaTx.Layout
