import SolanaTx.Proofs.Layout.Steadiness

/-!
# How far reading goes

Reading a value passes over the least size of its layout or more, and never past the end of the
bytes. This is why a list may be refused by its count and the least size of its items alone: where
it is, the items could not be read one by one either.
-/

namespace SolanaTx.Layout

open Fallible

variable {data : Bytes} {least least' offset middle stop : Int}

/-- Whether reading from an offset to `stop` passes over `least` bytes or more and stays in front of
the end of the bytes where it starts there. -/
structure Advances (data : Bytes) (least offset stop : Int) : Prop where
  least_le : offset + least ≤ stop
  stop_le : offset ≤ data.length → stop ≤ data.length

namespace Advances

theorem mono (h : Advances data least offset stop) (hleast : least' ≤ least) :
    Advances data least' offset stop :=
  ⟨by have := h.least_le; omega, h.stop_le⟩

theorem done : Advances data 0 offset offset :=
  ⟨Int.le_of_eq (Int.add_zero _), id⟩

/-- Two steps one behind the other. -/
theorem trans (h : Advances data least offset middle) (h' : Advances data least' middle stop) :
    Advances data (least + least') offset stop := by
  refine ⟨?_, fun hoffset => h'.stop_le (h.stop_le hoffset)⟩
  have := h.least_le
  have := h'.least_le
  omega

end Advances

/-! ## Steps -/

theorem advances_of_take {raw : Bytes} {size : Int} (h : take data offset size = .ok raw) :
    Advances data size offset (offset + size) := by
  unfold take at h
  dsimp only at h
  split at h
  · cases h
  · exact ⟨Int.le_refl _, fun _ => by omega⟩

theorem advances_of_readNat {width n : Nat} (h : readNat data width offset = .ok (n, stop)) :
    Advances data width offset stop := by
  obtain ⟨raw, hraw, h⟩ := bind_eq_ok.mp h
  obtain ⟨-, rfl⟩ := Prod.mk.inj (pure_eq_ok.mp h)
  exact advances_of_take hraw

theorem advances_of_readCounted {raw : Bytes} (h : readCounted data offset = .ok (raw, stop)) :
    Advances data countSize offset stop := by
  obtain ⟨⟨length, start⟩, hlength, h⟩ := bind_eq_ok.mp h
  obtain ⟨raw, hraw, h⟩ := bind_eq_ok.mp h
  obtain ⟨-, rfl⟩ := Prod.mk.inj (pure_eq_ok.mp h)
  refine ((advances_of_readNat hlength).trans (advances_of_take hraw)).mono ?_
  omega

/-- Values that each pass over a least size pass over as many of these as there are values. -/
theorem advances_of_readMany {reader : Int → Except Fault (Value × Int)}
    (hreader : ∀ o v e, reader o = .ok (v, e) → Advances data least o e) {count : Nat}
    {items : List Value} (h : readMany reader count offset = .ok (items, stop)) :
    Advances data (count * least) offset stop := by
  induction count generalizing offset items with
  | zero =>
      obtain ⟨-, rfl⟩ := Prod.mk.inj (Except.ok.inj h)
      rw [Int.natCast_zero, Int.zero_mul]
      exact .done
  | succ count ih =>
      obtain ⟨⟨v, next⟩, hv, h⟩ := bind_eq_ok.mp h
      obtain ⟨⟨others, last⟩, hothers, h⟩ := bind_eq_ok.mp h
      obtain ⟨-, rfl⟩ := Prod.mk.inj (pure_eq_ok.mp h)
      have hsum : (count + 1 : Nat) * least = least + count * least := by
        rw [Int.natCast_succ, Int.add_mul, Int.one_mul, Int.add_comm]
      rw [hsum]
      exact (hreader _ _ _ hv).trans (ih hothers)

/-! ## Lists by their count -/

/-- Whether a list is refused for its count, because the least sizes of its items are more than
what is left behind the count. -/
def RefusesCount (data : Bytes) (element : Layout) (count : Nat) (start : Int) : Prop :=
  element.minSize ≠ 0 ∧ data.length - start < count * element.minSize

/-- A list is its count and then its items. -/
theorem read_vec_of_readNat {element : Layout} {count : Nat} {start : Int}
    (h : readNat data countSize offset = .ok (count, start)) :
    read data (.vec element) offset = readItems element count data start := by
  rw [read, h, ok_bind]
  rfl

theorem readItems_of_refusesCount {element : Layout} {count : Nat} {start : Int}
    (h : RefusesCount data element count start) :
    readItems element count data start =
      .error (.inPayload (.truncated (count * element.minSize) (data.length - start) start)) :=
  if_pos h

/-- A list that is not refused is read item by item, unless its items are single bytes. -/
theorem readItems_of_not_refusesCount {element : Layout} {count : Nat} {start : Int}
    (h : ¬ RefusesCount data element count start) :
    readItems element count data start =
      if element.isByte then .ok (.bytes (data.slice start (start + count)), start + count)
      else readMany (fun o => read data element o) count start >>= fun p => .ok (.list p.1, p.2) :=
  if_neg h

/-- Single bytes that are not refused are there. -/
theorem advances_of_not_refusesCount {element : Layout} {count : Nat} {start : Int}
    (hbyte : element.isByte) (h : ¬ RefusesCount data element count start) :
    Advances data count start (start + count) := by
  have hsize : u8.minSize = 1 := rfl
  rw [RefusesCount, isByte_eq hbyte, hsize, Int.mul_one] at h
  refine ⟨Int.le_refl _, fun _ => ?_⟩
  by_contra hlt
  exact h ⟨Int.one_ne_zero, by omega⟩

/-! ## Values of all layouts -/

mutual

/-- Reading a value passes over the least size of its layout or more. -/
theorem advances_of_read {layout : Layout} {offset stop : Int} {v : Value}
    (hsizes : layout.Everywhere SizeNonneg) (h : read data layout offset = .ok (v, stop)) :
    Advances data layout.minSize offset stop := by
  cases layout with
  | int | fixedBytes =>
      rw [read] at h
      obtain ⟨raw, hraw, h⟩ := bind_eq_ok.mp h
      obtain ⟨-, rfl⟩ := Prod.mk.inj (pure_eq_ok.mp h)
      exact advances_of_take hraw
  | bool | pubkey =>
      rw [read] at h
      obtain ⟨raw, hraw, h⟩ := bind_eq_ok.mp h
      split at h
      · obtain ⟨-, rfl⟩ := Prod.mk.inj (pure_eq_ok.mp h)
        exact advances_of_take hraw
      · cases h
  | bytes | string =>
      rw [read] at h
      obtain ⟨⟨raw, last⟩, hraw, h⟩ := bind_eq_ok.mp h
      obtain ⟨-, rfl⟩ := Prod.mk.inj (pure_eq_ok.mp h)
      exact advances_of_readCounted hraw
  | array element size =>
      rw [read] at h
      obtain ⟨⟨items, last⟩, hitems, h⟩ := bind_eq_ok.mp h
      obtain ⟨-, rfl⟩ := Prod.mk.inj (pure_eq_ok.mp h)
      obtain ⟨n, rfl⟩ := Int.eq_ofNat_of_zero_le hsizes.1
      exact advances_of_readMany (fun _ _ _ hv => advances_of_read hsizes.2 hv) hitems
  | vec element =>
      have hcount : ∃ p, readNat data countSize offset = .ok p := by
        rw [read] at h
        obtain ⟨p, hp, -⟩ := bind_eq_ok.mp h
        exact ⟨p, hp⟩
      obtain ⟨⟨count, start⟩, hcount⟩ := hcount
      rw [read_vec_of_readNat hcount] at h
      have hitems : Advances data 0 start stop := by
        by_cases hrefuses : RefusesCount data element count start
        · rw [readItems_of_refusesCount hrefuses] at h
          cases h
        · rw [readItems_of_not_refusesCount hrefuses] at h
          split at h
          · next hbyte =>
            obtain ⟨-, rfl⟩ := Prod.mk.inj (Except.ok.inj h)
            exact (advances_of_not_refusesCount hbyte hrefuses).mono (Int.natCast_nonneg _)
          · obtain ⟨⟨items, last⟩, hitems, h⟩ := bind_eq_ok.mp h
            obtain ⟨-, rfl⟩ := Prod.mk.inj (Except.ok.inj h)
            have hmany := advances_of_readMany (fun _ _ _ hv => advances_of_read hsizes.2 hv) hitems
            exact hmany.mono (Int.mul_nonneg (Int.natCast_nonneg _) (minSize_nonneg hsizes.2))
      exact ((advances_of_readNat hcount).trans hitems).mono (Int.le_of_eq (Int.add_zero _).symm)
  | option element =>
      rw [read] at h
      obtain ⟨⟨tag, start⟩, htag, h⟩ := bind_eq_ok.mp h
      dsimp only at h
      split at h
      · obtain ⟨-, rfl⟩ := Prod.mk.inj (pure_eq_ok.mp h)
        exact advances_of_readNat htag
      · have hvalue := (advances_of_read hsizes.2 h).mono (minSize_nonneg hsizes.2)
        exact (advances_of_readNat htag).trans hvalue
      · cases h
  | struct fields =>
      rw [read] at h
      obtain ⟨⟨entries, last⟩, hentries, h⟩ := bind_eq_ok.mp h
      obtain ⟨-, rfl⟩ := Prod.mk.inj (pure_eq_ok.mp h)
      exact advances_of_readFields hsizes.2 hentries
  | enum variants =>
      rw [read] at h
      obtain ⟨⟨index, start⟩, hindex, h⟩ := bind_eq_ok.mp h
      exact (advances_of_readNat hindex).trans (advances_of_readVariant hsizes.2 h)
  | unknown tag =>
      rw [read] at h
      cases h

theorem advances_of_readFields {fields : List Field} {entries all : List (Json × Value)}
    {offset stop : Int} (hsizes : EverywhereInFields SizeNonneg fields)
    (h : readFields data fields entries offset = .ok (all, stop)) :
    Advances data (minSizeSum fields) offset stop := by
  cases fields with
  | nil =>
      rw [readFields] at h
      obtain ⟨-, rfl⟩ := Prod.mk.inj (Except.ok.inj h)
      exact .done
  | cons field rest =>
      obtain ⟨name, type, decimals⟩ := field
      rw [readFields] at h
      obtain ⟨⟨v, next⟩, hv, h⟩ := bind_eq_ok.mp h
      dsimp only at h
      split at h
      · exact (advances_of_read hsizes.1 hv).trans (advances_of_readFields hsizes.2 h)
      · cases h

theorem advances_of_readVariant {variants : List Variant} {index left : Nat} {offset stop : Int}
    {v : Value} (hsizes : EverywhereInVariants SizeNonneg variants)
    (h : readVariant data index variants left offset = .ok (v, stop)) :
    Advances data 0 offset stop := by
  cases variants with
  | nil =>
      rw [readVariant] at h
      cases h
  | cons variant rest =>
      cases left with
      | zero =>
          obtain ⟨name, _ | type⟩ := variant
          · rw [readVariant] at h
            obtain ⟨-, rfl⟩ := Prod.mk.inj (pure_eq_ok.mp h)
            exact .done
          · rw [readVariant] at h
            obtain ⟨⟨payload, last⟩, hpayload, h⟩ := bind_eq_ok.mp h
            obtain ⟨-, rfl⟩ := Prod.mk.inj (pure_eq_ok.mp h)
            exact (advances_of_read hsizes.1 hpayload).mono (minSize_nonneg hsizes.1)
      | succ left =>
          rw [readVariant_succ] at h
          exact advances_of_readVariant hsizes.rest h

end

/-! ## The count of a list and the least size of its items -/

end SolanaTx.Layout
