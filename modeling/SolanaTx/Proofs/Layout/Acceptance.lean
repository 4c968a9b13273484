import SolanaTx.Proofs.Layout.Reading

/-!
# What is read was written

A reader accepts no more than the grammar writes: where it gives a value, the bytes that it
has passed over write that value. Together with reading what is written, this makes the two
the same, as long as no size lies below zero and the fields of each struct differ in their
names.
-/

namespace SolanaTx.Layout

open Fallible

variable {data pre rest : Bytes} {stop : Int}

/-- Whether the size that a layout itself has is that of a row. -/
def SizeNonneg : Layout → Prop
  | .fixedBytes size => 0 ≤ size
  | .array _ size => 0 ≤ size
  | _ => True

/-- Whether reading from behind `pre` came to `stop`, over bytes of which something holds. -/
def Passes (data pre : Bytes) (stop : Int) (holds : Bytes → Prop) : Prop :=
  ∃ b post, data = pre ++ b ++ post ∧ stop = ((pre ++ b).length : Nat) ∧ holds b

theorem Passes.imp {p q : Bytes → Prop} (h : Passes data pre stop p) (himp : ∀ b, p b → q b) :
    Passes data pre stop q := by
  obtain ⟨b, post, hdata, hstop, hb⟩ := h
  exact ⟨b, post, hdata, hstop, himp b hb⟩

/-- Where nothing is read, the bytes passed over are none. -/
theorem Passes.nil {p : Bytes → Prop} (hdata : data = pre ++ rest) (h : p []) :
    Passes data pre (pre.length : Nat) p :=
  ⟨[], rest, by rw [List.append_nil, hdata], by rw [List.append_nil], h⟩

/-- What is read behind the bytes `first` extends them. -/
theorem Passes.append {first : Bytes} {p q : Bytes → Prop} (h : Passes data (pre ++ first) stop p)
    (himp : ∀ b, p b → q (first ++ b)) : Passes data pre stop q := by
  obtain ⟨b, post, hdata, hstop, hb⟩ := h
  refine ⟨first ++ b, post, ?_, ?_, himp b hb⟩
  · rw [hdata, List.append_assoc pre]
  · rw [hstop, List.append_assoc]

/-! ## Bytes and numbers -/

theorem take_eq_ok {raw : Bytes} {size : Int} (hdata : data = pre ++ rest) (hsize : 0 ≤ size)
    (h : take data pre.length size = .ok raw) :
    (raw.length : Int) = size ∧ ∃ post, data = pre ++ raw ++ post := by
  obtain ⟨n, rfl⟩ := Int.eq_ofNat_of_zero_le hsize
  unfold take at h
  dsimp only at h
  split at h
  · cases h
  · next henough =>
    rw [← Int.natCast_add, Bytes.slice_natCast, hdata, List.drop_left] at h
    obtain rfl := Except.ok.inj h
    have hlength : ¬ (rest.length : Int) < n := by
      rw [hdata, List.length_append] at henough
      omega
    refine ⟨?_, rest.drop n, ?_⟩
    · rw [List.length_take]
      omega
    · rw [hdata, List.append_assoc, List.take_append_drop]

/-- Bytes that are taken off are those passed over. -/
theorem passes_of_take {raw : Bytes} {size : Int} (hdata : data = pre ++ rest) (hsize : 0 ≤ size)
    (h : take data pre.length size = .ok raw) :
    Passes data pre (pre.length + size) fun b => b = raw ∧ (raw.length : Int) = size := by
  obtain ⟨hlength, post, hpost⟩ := take_eq_ok hdata hsize h
  refine ⟨raw, post, hpost, ?_, rfl, hlength⟩
  rw [← hlength, List.length_append, Int.natCast_add]

theorem passes_of_readNat {width n : Nat} (hdata : data = pre ++ rest)
    (h : readNat data width pre.length = .ok (n, stop)) :
    Passes data pre stop fun b => b.length = width ∧ n = b.toNat := by
  obtain ⟨raw, hraw, h⟩ := bind_eq_ok.mp h
  obtain ⟨rfl, rfl⟩ := Prod.mk.inj (pure_eq_ok.mp h)
  refine (passes_of_take hdata (Int.natCast_nonneg _) hraw).imp ?_
  rintro b ⟨rfl, hlength⟩
  exact ⟨Int.ofNat.inj hlength, rfl⟩

/-- A number in front of bytes is written in front of them. -/
theorem passes_of_readNat_countSize {n : Nat} (hdata : data = pre ++ rest)
    (h : readNat data countSize pre.length = .ok (n, stop)) :
    Passes data pre stop fun b => b = Bytes.ofNat countSize n ∧ IsCount n := by
  refine (passes_of_readNat hdata h).imp ?_
  rintro b ⟨hlength, rfl⟩
  have hlt := Bytes.toNat_lt_capacity b
  rw [hlength] at hlt
  exact ⟨by rw [← hlength, Bytes.ofNat_toNat], hlt⟩

theorem passes_of_readNat_byte {tag : Nat} (hdata : data = pre ++ rest)
    (h : readNat data 1 pre.length = .ok (tag, stop)) :
    Passes data pre stop fun b => ∃ byte : UInt8, b = [byte] ∧ tag = byte.toNat := by
  refine (passes_of_readNat hdata h).imp ?_
  rintro b ⟨hlength, rfl⟩
  obtain ⟨byte, rfl⟩ := List.length_eq_one_iff.mp hlength
  exact ⟨byte, rfl, rfl⟩

theorem passes_of_readCounted {raw : Bytes} (hdata : data = pre ++ rest)
    (h : readCounted data pre.length = .ok (raw, stop)) :
    Passes data pre stop fun b => IsCount raw.length ∧ b = prefixed raw.length raw := by
  obtain ⟨⟨count, offset⟩, hcount, h⟩ := bind_eq_ok.mp h
  obtain ⟨number, post, hpost, rfl, rfl, hlt⟩ := passes_of_readNat_countSize hdata hcount
  obtain ⟨taken, htaken, h⟩ := bind_eq_ok.mp h
  obtain ⟨rfl, rfl⟩ := Prod.mk.inj (pure_eq_ok.mp h)
  refine (passes_of_take hpost (Int.natCast_nonneg _) htaken).append ?_
  rintro b ⟨rfl, hlength⟩
  obtain rfl := Int.ofNat.inj hlength
  exact ⟨hlt, rfl⟩

/-- Values that are read one behind the other are written so. -/
theorem passes_of_readMany {writes : Value → Bytes → Prop}
    {reader : Int → Except Fault (Value × Int)}
    (hreader : ∀ v pre rest stop, data = pre ++ rest →
      reader (pre.length : Nat) = .ok (v, stop) → Passes data pre stop (writes v))
    {count : Nat} {items : List Value} (hdata : data = pre ++ rest)
    (h : readMany reader count (pre.length : Nat) = .ok (items, stop)) :
    Passes data pre stop fun b => items.length = count ∧ WritesEach writes items b := by
  induction count generalizing pre rest items with
  | zero =>
      obtain ⟨rfl, rfl⟩ := Prod.mk.inj (Except.ok.inj h)
      exact .nil hdata ⟨rfl, rfl⟩
  | succ count ih =>
      obtain ⟨⟨v, offset⟩, hv, h⟩ := bind_eq_ok.mp h
      obtain ⟨first, post, hpost, rfl, hfirst⟩ := hreader v pre rest offset hdata hv
      obtain ⟨⟨others, last⟩, hothers, h⟩ := bind_eq_ok.mp h
      obtain ⟨rfl, rfl⟩ := Prod.mk.inj (pure_eq_ok.mp h)
      refine (ih hpost hothers).append ?_
      rintro later ⟨rfl, hlater⟩
      exact ⟨rfl, first, later, rfl, hfirst, hlater⟩

/-! ## Values of all layouts -/

/-- A count that is not refused has as many single bytes behind it. -/
theorem take_of_not_refused {element : Layout} {count : Nat} (hbyte : element.isByte)
    (hfits : ¬ (element.minSize ≠ 0 ∧
      (data.length : Int) - pre.length < count * element.minSize)) :
    take data pre.length count = .ok (data.slice pre.length (pre.length + count)) := by
  rw [isByte_eq hbyte] at hfits
  have hsize : u8.minSize = 1 := rfl
  rw [hsize, Int.mul_one] at hfits
  rw [take, if_neg fun hlt => hfits ⟨Int.one_ne_zero, hlt⟩]

mutual

/-- What a reader has passed over writes the value that it gives. -/
theorem passes_of_read {pre rest : Bytes} {stop : Int} {layout : Layout} {v : Value}
    (hdata : data = pre ++ rest) (hsizes : layout.Everywhere SizeNonneg)
    (hnames : layout.Everywhere FieldsApart)
    (h : read data layout (pre.length : Nat) = .ok (v, stop)) :
    Passes data pre stop (layout.Writes v) := by
  cases layout with
  | int signed width =>
      rw [read] at h
      obtain ⟨raw, hraw, h⟩ := bind_eq_ok.mp h
      obtain ⟨rfl, rfl⟩ := Prod.mk.inj (pure_eq_ok.mp h)
      refine (passes_of_take hdata (Int.natCast_nonneg _) hraw).imp ?_
      rintro b ⟨rfl, hlength⟩
      exact ⟨Int.ofNat.inj hlength, rfl⟩
  | bool =>
      rw [read] at h
      obtain ⟨raw, hraw, h⟩ := bind_eq_ok.mp h
      obtain ⟨hlength, -⟩ := take_eq_ok hdata (by decide) hraw
      obtain ⟨byte, rfl⟩ := List.length_eq_one_iff.mp (Int.ofNat.inj hlength)
      obtain ⟨rfl, rfl⟩ := Prod.mk.inj (pure_eq_ok.mp h)
      refine (passes_of_take hdata (by decide) hraw).imp ?_
      rintro b ⟨rfl, -⟩
      exact ⟨byte, rfl, rfl⟩
  | pubkey =>
      rw [read] at h
      obtain ⟨raw, hraw, h⟩ := bind_eq_ok.mp h
      obtain ⟨hlength, -⟩ := take_eq_ok hdata (Int.natCast_nonneg _) hraw
      have hsize : raw.length = 32 := Int.ofNat.inj hlength
      rw [Pubkey.ofBytes?, dif_pos hsize] at h
      obtain ⟨rfl, rfl⟩ := Prod.mk.inj (pure_eq_ok.mp h)
      refine (passes_of_take hdata (Int.natCast_nonneg _) hraw).imp ?_
      rintro b ⟨rfl, -⟩
      exact ⟨_, rfl, rfl⟩
  | bytes | string =>
      rw [read] at h
      obtain ⟨⟨raw, offset⟩, hraw, h⟩ := bind_eq_ok.mp h
      obtain ⟨rfl, rfl⟩ := Prod.mk.inj (pure_eq_ok.mp h)
      refine (passes_of_readCounted hdata hraw).imp ?_
      rintro b ⟨hcount, rfl⟩
      exact ⟨raw, hcount, rfl, rfl⟩
  | fixedBytes size =>
      rw [read] at h
      obtain ⟨raw, hraw, h⟩ := bind_eq_ok.mp h
      obtain ⟨rfl, rfl⟩ := Prod.mk.inj (pure_eq_ok.mp h)
      refine (passes_of_take hdata hsizes hraw).imp ?_
      rintro b ⟨rfl, hlength⟩
      exact ⟨hlength, rfl⟩
  | array element size =>
      rw [read] at h
      obtain ⟨⟨items, offset⟩, hitems, h⟩ := bind_eq_ok.mp h
      obtain ⟨rfl, rfl⟩ := Prod.mk.inj (pure_eq_ok.mp h)
      have hmany := passes_of_readMany
        (fun _ _ _ _ hdata hv => passes_of_read hdata hsizes.2 hnames.2 hv) hdata hitems
      refine hmany.imp ?_
      rintro b ⟨hlength, hwrites⟩
      have hsize : 0 ≤ size := hsizes.1
      exact ⟨items, rfl, by omega, hwrites⟩
  | vec element =>
      rw [read] at h
      obtain ⟨⟨count, offset⟩, hcount, h⟩ := bind_eq_ok.mp h
      obtain ⟨number, post, hpost, rfl, rfl, hlt⟩ := passes_of_readNat_countSize hdata hcount
      dsimp only at h
      split at h
      · cases h
      · next hfits =>
        split at h
        · next hbyte =>
          obtain ⟨rfl, rfl⟩ := Prod.mk.inj (pure_eq_ok.mp h)
          have htake := take_of_not_refused hbyte hfits
          refine (passes_of_take hpost (Int.natCast_nonneg _) htake).append ?_
          rintro b ⟨rfl, hlength⟩
          have hsize := Int.ofNat.inj hlength
          rw [Writes, if_pos hbyte]
          refine ⟨_, ?_, ?_, rfl⟩
          · rw [hsize]
            exact hlt
          · rw [prefixed, hsize]
        · next hbyte =>
          obtain ⟨⟨items, last⟩, hitems, h⟩ := bind_eq_ok.mp h
          obtain ⟨rfl, rfl⟩ := Prod.mk.inj (pure_eq_ok.mp h)
          have hmany := passes_of_readMany
            (fun _ _ _ _ hdata hv => passes_of_read hdata hsizes.2 hnames.2 hv) hpost hitems
          refine hmany.append ?_
          rintro b ⟨rfl, hwrites⟩
          rw [Writes, if_neg hbyte]
          exact ⟨items, b, hlt, rfl, rfl, hwrites⟩
  | option element =>
      rw [read] at h
      obtain ⟨⟨tag, offset⟩, htag, h⟩ := bind_eq_ok.mp h
      obtain ⟨b, post, hpost, rfl, byte, rfl, rfl⟩ := passes_of_readNat_byte hdata htag
      dsimp only at h
      split at h
      · next hzero =>
        obtain ⟨rfl, rfl⟩ := Prod.mk.inj (pure_eq_ok.mp h)
        obtain rfl : byte = 0 := UInt8.toNat_inj.mp hzero
        exact ⟨[0], post, hpost, rfl, .inl ⟨rfl, rfl⟩⟩
      · next hone =>
        obtain rfl : byte = 1 := UInt8.toNat_inj.mp hone
        refine (passes_of_read hpost hsizes.2 hnames.2 h).append ?_
        intro b hb
        exact .inr ⟨b, rfl, hb⟩
      · cases h
  | struct fields =>
      rw [read] at h
      obtain ⟨⟨entries, offset⟩, hentries, h⟩ := bind_eq_ok.mp h
      obtain ⟨rfl, rfl⟩ := Prod.mk.inj (pure_eq_ok.mp h)
      refine (passes_of_readFields [] hdata hnames.1 hsizes.2 hnames.2 hentries).imp ?_
      rintro b ⟨found, rfl, hwrites⟩
      exact ⟨entries, rfl, hwrites⟩
  | enum variants =>
      rw [read] at h
      obtain ⟨⟨index, offset⟩, hindex, h⟩ := bind_eq_ok.mp h
      obtain ⟨b, post, hpost, rfl, byte, rfl, rfl⟩ := passes_of_readNat_byte hdata hindex
      refine (passes_of_readVariant hpost hsizes.2 hnames.2 h).append ?_
      intro b hb
      exact ⟨byte, b, rfl, hb⟩
  | unknown tag =>
      rw [read] at h
      cases h

/-- The entries that are read come behind those that are there, as long as all names differ. -/
theorem passes_of_readFields {pre rest : Bytes} {stop : Int} {fields : List Field}
    {all : List (Json × Value)} (done : List (Json × Value)) (hdata : data = pre ++ rest)
    (hdistinct : DistinctNames (done.map Prod.fst ++ fields.map (·.name)))
    (hsizes : EverywhereInFields SizeNonneg fields)
    (hnames : EverywhereInFields FieldsApart fields)
    (h : readFields data fields done (pre.length : Nat) = .ok (all, stop)) :
    Passes data pre stop fun b =>
      ∃ entries, all = done ++ entries ∧ WritesFields fields entries b := by
  cases fields with
  | nil =>
      rw [readFields] at h
      obtain ⟨rfl, rfl⟩ := Prod.mk.inj (Except.ok.inj h)
      exact .nil hdata ⟨[], (List.append_nil _).symm, rfl, rfl⟩
  | cons field others =>
      obtain ⟨name, type, decimals⟩ := field
      rw [List.map_cons] at hdistinct
      obtain ⟨hkey, -, hfresh⟩ := hdistinct.sameKey_middle
      rw [List.forall_mem_map] at hfresh
      rw [readFields] at h
      obtain ⟨⟨v, offset⟩, hv, h⟩ := bind_eq_ok.mp h
      obtain ⟨first, post, hpost, rfl, hfirst⟩ := passes_of_read hdata hsizes.1 hnames.1 hv
      dsimp only at h
      rw [if_pos hkey, putEntry_of_forall hfresh] at h
      have hothers : DistinctNames
          ((done ++ [(name, v)]).map Prod.fst ++ others.map (·.name)) := by
        rw [List.map_append, List.append_assoc]
        exact hdistinct
      refine (passes_of_readFields _ hpost hothers hsizes.2 hnames.2 h).append ?_
      rintro later ⟨entries, rfl, hlater⟩
      exact ⟨(name, v) :: entries, List.append_assoc _ _ _, v, entries, first, later, rfl, rfl,
        hfirst, hlater⟩

theorem passes_of_readVariant {pre rest : Bytes} {stop : Int} {variants : List Variant}
    {index left : Nat} {v : Value} (hdata : data = pre ++ rest)
    (hsizes : EverywhereInVariants SizeNonneg variants)
    (hnames : EverywhereInVariants FieldsApart variants)
    (h : readVariant data index variants left (pre.length : Nat) = .ok (v, stop)) :
    Passes data pre stop (WritesVariant variants left v) := by
  cases variants with
  | nil =>
      rw [readVariant] at h
      cases h
  | cons variant others =>
      cases left with
      | zero =>
          obtain ⟨name, _ | type⟩ := variant
          · rw [readVariant] at h
            obtain ⟨rfl, rfl⟩ := Prod.mk.inj (pure_eq_ok.mp h)
            exact .nil hdata ⟨rfl, rfl⟩
          · rw [readVariant] at h
            obtain ⟨⟨payload, offset⟩, hpayload, h⟩ := bind_eq_ok.mp h
            obtain ⟨rfl, rfl⟩ := Prod.mk.inj (pure_eq_ok.mp h)
            refine (passes_of_read hdata hsizes.1 hnames.1 hpayload).imp ?_
            intro b hb
            exact ⟨payload, rfl, hb⟩
      | succ left =>
          rw [readVariant_succ] at h
          refine (passes_of_readVariant hdata hsizes.rest hnames.rest h).imp ?_
          intro b hb
          rw [writesVariant_succ]
          exact hb

end

/-! ## Reading and the grammar -/

/-- A position in a row of bytes parts it. -/
theorem exists_parts {offset : Nat} (hoffset : offset ≤ data.length) :
    ∃ pre rest, data = pre ++ rest ∧ pre.length = offset :=
  ⟨data.take offset, data.drop offset, (List.take_append_drop _ _).symm,
    List.length_take_of_le hoffset⟩

end SolanaTx.Layout
