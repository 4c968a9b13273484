import Mathlib.Data.List.GetD
import Mathlib.Data.Nat.Digits.Lemmas
import SolanaTx.Proofs.Bytes.RoundTrip
import SolanaTx.Proofs.Text.Word
import SolanaTx.Pubkey

/-!
# Base 58 is read back

The digits of a number write that number, and digits without a zero in front are
the digits of the number they write. So bytes are read back from their text, and
keys with the same text are the same.
-/

namespace SolanaTx.Bytes

theorem pushDigits_eq {base : Nat} (hbase : 1 < base) {count n : Nat} (hn : n < base ^ count)
    (ds : List Nat) : pushDigits base count n ds = (Nat.digits base n).reverse ++ ds := by
  induction count generalizing n ds with
  | zero =>
      obtain rfl : n = 0 := by simpa using hn
      simp [pushDigits]
  | succ count ih =>
      rw [pushDigits]
      split
      · next hzero => simp [hzero]
      · next hpos =>
        have hquotient : n / base < base ^ count := by
          rw [Nat.div_lt_iff_lt_mul (by omega), ← Nat.pow_succ]
          exact hn
        have hdigits := Nat.digits_def' hbase (Nat.pos_of_ne_zero hpos)
        rw [ih hquotient, hdigits, List.reverse_cons, List.append_assoc, List.singleton_append]

theorem digitsIn_eq {base : Nat} (hbase : 1 < base) (n : Nat) :
    digitsIn base n = (Nat.digits base n).reverse := by
  have hn : n < base ^ (n.log2 + 1) := by
    calc n < 2 ^ (n.log2 + 1) := Nat.lt_log2_self
      _ ≤ base ^ (n.log2 + 1) := Nat.pow_le_pow_left hbase _
  rw [digitsIn, pushDigits_eq hbase hn, List.append_nil]

theorem ofDigitsIn_eq (base : Nat) (ds : List Nat) :
    ofDigitsIn base ds = Nat.ofDigits base ds.reverse := by
  rw [Nat.ofDigits_eq_foldr, List.foldr_reverse, ofDigitsIn]
  congr 1
  funext n d
  exact Nat.add_comm _ _

theorem ofDigitsIn_digitsIn {base : Nat} (hbase : 1 < base) (n : Nat) :
    ofDigitsIn base (digitsIn base n) = n := by
  rw [digitsIn_eq hbase, ofDigitsIn_eq, List.reverse_reverse, Nat.ofDigits_digits]

/-- Digits without a zero in front are the digits of their number. -/
theorem digitsIn_ofDigitsIn {base : Nat} (hbase : 1 < base) {ds : List Nat}
    (hlt : ∀ d ∈ ds, d < base) (hhead : ds.head? ≠ some 0) :
    digitsIn base (ofDigitsIn base ds) = ds := by
  have hlast : ∀ h : ds.reverse ≠ [], ds.reverse.getLast h ≠ 0 := by
    intro h hzero
    rw [List.getLast_reverse] at hzero
    apply hhead
    rw [List.head?_eq_some_head (by simpa using h), hzero]
  rw [digitsIn_eq hbase, ofDigitsIn_eq,
    Nat.digits_ofDigits base hbase _ (fun d hd => hlt d (List.mem_reverse.mp hd)) hlast,
    List.reverse_reverse]

theorem lt_of_mem_digitsIn {base : Nat} (hbase : 1 < base) {n d : Nat}
    (hd : d ∈ digitsIn base n) : d < base := by
  rw [digitsIn_eq hbase, List.mem_reverse] at hd
  exact Nat.digits_lt_base hbase hd

theorem head?_digitsIn_ne_zero {base : Nat} (hbase : 1 < base) (n : Nat) :
    (digitsIn base n).head? ≠ some 0 := by
  rw [digitsIn_eq hbase, List.head?_reverse]
  intro hlast
  by_cases hn : n = 0
  · simp [hn] at hlast
  · apply Nat.getLast_digit_ne_zero base hn
    rw [List.getLast?_eq_some_getLast (Nat.digits_ne_nil_iff_ne_zero.mpr hn)] at hlast
    exact Option.some.inj hlast

/-- Zeros in front write nothing. -/
theorem ofDigitsIn_zeros_append (base count : Nat) (ds : List Nat) :
    ofDigitsIn base (List.replicate count 0 ++ ds) = ofDigitsIn base ds := by
  rw [ofDigitsIn, List.foldl_append]
  congr 1
  induction count with
  | zero => rfl
  | succ count ih => simpa [List.replicate_succ] using ih

/-! ## Text of bytes -/

theorem base58Value?_base58Digit {d : Nat} (hd : d < 58) :
    base58Value? (base58Digit d) = some d := by
  have hall : ∀ d : Fin 58, base58Value? (base58Digit d) = some d.val := by decide
  exact hall ⟨d, hd⟩

theorem mapM_base58Value? {ds : List Nat} (hds : ∀ d ∈ ds, d < 58) :
    (ds.map base58Digit).mapM base58Value? = some ds := by
  induction ds with
  | nil => rfl
  | cons d rest ih =>
      rw [List.forall_mem_cons] at hds
      rw [List.map_cons, List.mapM_cons, base58Value?_base58Digit hds.1, ih hds.2]
      rfl

/-- The characters of a text in base 58 are the digits of zero for the bytes of zero in front, and
then the digits of the number. -/
theorem toBase58_eq (data : Bytes) :
    toBase58 data = Text.ofChars ((List.replicate (data.takeWhile (· == 0)).length 0 ++
      digitsIn 58 (ofDigitsIn 256 (data.map UInt8.toNat))).map base58Digit) := by
  rw [toBase58, List.map_append, List.map_replicate, List.map_const']
  rfl

theorem lt_of_mem_zeros_append {base : Nat} (hbase : 1 < base) {count n d : Nat}
    (hd : d ∈ List.replicate count 0 ++ digitsIn base n) : d < base := by
  rcases List.mem_append.mp hd with hd | hd
  · rw [List.eq_of_mem_replicate hd]
    omega
  · exact lt_of_mem_digitsIn hbase hd

/-- No character of a text in base 58 is a blank. -/
theorem isBlank_of_mem_toBase58 {data : Bytes} {c : CodePoint} (hc : c ∈ toBase58 data) :
    Text.isBlank c = false := by
  rw [toBase58_eq, Text.ofChars, List.map_map] at hc
  obtain ⟨d, hd, rfl⟩ := List.mem_map.mp hc
  have hall : ∀ d : Fin 58, Text.isBlank (.char (base58Digit d)) = false := by decide
  exact hall ⟨d, lt_of_mem_zeros_append (by decide) hd⟩

theorem takeWhile_zeros_append {α : Type} [BEq α] [LawfulBEq α] (zero : α) (count : Nat)
    {rest : List α} (hrest : rest.head? ≠ some zero) :
    (List.replicate count zero ++ rest).takeWhile (· == zero) = List.replicate count zero := by
  have hzeros : ∀ d ∈ List.replicate count zero, d == zero := by
    intro d hd
    exact beq_iff_eq.mpr (List.eq_of_mem_replicate hd)
  rw [List.takeWhile_append_of_pos hzeros]
  cases rest with
  | nil => simp
  | cons first rest =>
      have hstop : (first :: rest).takeWhile (· == zero) = [] := by
        apply List.takeWhile_cons_of_neg
        intro h
        exact hrest (congrArg some (beq_iff_eq.mp h))
      rw [hstop, List.append_nil]

/-- A row is zeros and then a row of which the first is not zero. -/
theorem exists_zeros_append {α : Type} [DecidableEq α] (zero : α) (xs : List α) :
    ∃ count rest, xs = List.replicate count zero ++ rest ∧ rest.head? ≠ some zero := by
  induction xs with
  | nil => exact ⟨0, [], rfl, by simp⟩
  | cons x xs ih =>
      by_cases hx : x = zero
      · obtain ⟨count, rest, hxs, hrest⟩ := ih
        refine ⟨count + 1, rest, ?_, hrest⟩
        rw [hx, List.replicate_succ, List.cons_append, ← hxs]
      · exact ⟨0, x :: xs, rfl, by simpa using hx⟩

/-- Bytes are read back from their text. -/
theorem ofBase58?_toBase58 (data : Bytes) : ofBase58? (toBase58 data) = some data := by
  obtain ⟨count, rest, rfl, hrest⟩ := exists_zeros_append 0 data
  have hnumber : ofDigitsIn 256 ((List.replicate count (0 : UInt8) ++ rest).map UInt8.toNat) =
      ofDigitsIn 256 (rest.map UInt8.toNat) := by
    rw [List.map_append, List.map_replicate]
    exact ofDigitsIn_zeros_append 256 count _
  have hbytes : digitsIn 256 (ofDigitsIn 256 (rest.map UInt8.toNat)) = rest.map UInt8.toNat := by
    apply digitsIn_ofDigitsIn (by decide)
    · intro d hd
      obtain ⟨byte, -, rfl⟩ := List.mem_map.mp hd
      exact byte.toNat_lt
    · intro hzero
      rw [List.head?_map] at hzero
      obtain ⟨byte, hbyte, hvalue⟩ := Option.map_eq_some_iff.mp hzero
      apply hrest
      rw [hbyte, UInt8.toNat_inj.mp (hvalue.trans UInt8.toNat_zero.symm)]
  rw [toBase58_eq, takeWhile_zeros_append 0 count hrest, List.length_replicate, hnumber,
    ofBase58?, Text.chars?_ofChars, Option.bind_some,
    mapM_base58Value? fun d hd => lt_of_mem_zeros_append (by decide) hd, Option.map_some]
  dsimp only
  rw [takeWhile_zeros_append 0 count (head?_digitsIn_ne_zero (by decide) _),
    ofDigitsIn_zeros_append, ofDigitsIn_digitsIn (by decide), hbytes, List.map_map,
    List.map_replicate]
  congr 2
  refine (List.map_congr_left fun byte _ => ?_).trans (List.map_id rest)
  exact UInt8.ofNat_toNat

theorem base58Digit_of_base58Value? {c : Char} {d : Nat} (h : base58Value? c = some d) :
    d < 58 ∧ base58Digit d = c := by
  rw [base58Value?, List.findIdx?_eq_some_iff_getElem] at h
  obtain ⟨hd, hvalue, -⟩ := h
  refine ⟨hd, ?_⟩
  rw [base58Digit, List.getD_eq_getElem _ _ hd]
  exact beq_iff_eq.mp hvalue

theorem eq_map_of_mapM_base58Value? {cs : List Char} {ds : List Nat}
    (h : cs.mapM base58Value? = some ds) : cs = ds.map base58Digit ∧ ∀ d ∈ ds, d < 58 := by
  induction cs generalizing ds with
  | nil => simp_all
  | cons c rest ih =>
      simp only [List.mapM_cons, Option.bind_eq_bind, Option.bind_eq_some_iff, Option.pure_def,
        Option.some.injEq] at h
      obtain ⟨d, hd, tail, htail, rfl⟩ := h
      obtain ⟨hlt, hdigit⟩ := base58Digit_of_base58Value? hd
      obtain ⟨hrest, hall⟩ := ih htail
      rw [List.map_cons, hdigit, ← hrest]
      exact ⟨rfl, List.forall_mem_cons.mpr ⟨hlt, hall⟩⟩

/-- All characters of a text in base 58 are digits. -/
theorem ofBase58?_eq_none_of_mem {cs : List Char} {c : Char} (hc : c ∈ cs)
    (hvalue : base58Value? c = none) : ofBase58? (Text.ofChars cs) = none := by
  rw [ofBase58?, Text.chars?_ofChars, Option.bind_some, Option.map_eq_none_iff]
  cases hds : cs.mapM base58Value? with
  | none => rfl
  | some ds =>
      obtain ⟨rfl, hlt⟩ := eq_map_of_mapM_base58Value? hds
      obtain ⟨d, hd, rfl⟩ := List.mem_map.mp hc
      rw [base58Value?_base58Digit (hlt d hd)] at hvalue
      cases hvalue

/-- No other text is read as the same bytes. -/
theorem toBase58_of_ofBase58? {t : Text} {data : Bytes} (h : ofBase58? t = some data) :
    toBase58 data = t := by
  simp only [ofBase58?, Option.map_eq_some_iff, Option.bind_eq_some_iff] at h
  obtain ⟨ds, ⟨cs, hcs, hds⟩, rfl⟩ := h
  obtain ⟨rfl, hlt⟩ := eq_map_of_mapM_base58Value? hds
  obtain ⟨count, rest, rfl, hrest⟩ := exists_zeros_append 0 ds
  have hrest58 : ∀ d ∈ rest, d < 58 := fun d hd => hlt d (List.mem_append_right _ hd)
  have hbytes : ∀ d ∈ digitsIn 256 (ofDigitsIn 58 rest), (UInt8.ofNat d).toNat = d := by
    intro d hd
    exact UInt8.toNat_ofNat_of_lt' (lt_of_mem_digitsIn (by decide) hd)
  have hnumber : ((digitsIn 256 (ofDigitsIn 58 rest)).map UInt8.ofNat).map UInt8.toNat =
      digitsIn 256 (ofDigitsIn 58 rest) := by
    rw [List.map_map]
    exact (List.map_congr_left hbytes).trans (List.map_id _)
  have hhead : ((digitsIn 256 (ofDigitsIn 58 rest)).map UInt8.ofNat).head? ≠ some 0 := by
    intro hzero
    apply head?_digitsIn_ne_zero (show 1 < 256 by decide) (ofDigitsIn 58 rest)
    rw [← hnumber, List.head?_map, hzero]
    rfl
  have hvalue : ofDigitsIn 256 ((List.replicate count 0 ++
      (digitsIn 256 (ofDigitsIn 58 rest)).map UInt8.ofNat).map UInt8.toNat) =
        ofDigitsIn 58 rest := by
    rw [List.map_append, List.map_replicate, hnumber]
    exact (ofDigitsIn_zeros_append 256 count _).trans (ofDigitsIn_digitsIn (by decide) _)
  rw [Text.eq_ofChars_of_chars? hcs, toBase58_eq, takeWhile_zeros_append 0 count hrest,
    List.map_replicate, ofDigitsIn_zeros_append, hvalue, takeWhile_zeros_append 0 count hhead,
    digitsIn_ofDigitsIn (by decide) hrest58 hrest, List.length_replicate]

/-- A text is read as bytes where it is their text. -/
theorem ofBase58?_eq_some_iff {t : Text} {data : Bytes} :
    ofBase58? t = some data ↔ t = toBase58 data := by
  constructor
  · intro h
    exact (toBase58_of_ofBase58? h).symm
  · rintro rfl
    exact ofBase58?_toBase58 data

end SolanaTx.Bytes

namespace SolanaTx.Pubkey

theorem ofText?_text (key : Pubkey) : ofText? key.text = some key := by
  rw [ofText?, text, Bytes.ofBase58?_toBase58, Option.bind_some, ofBytes?, dif_pos key.length_eq]

/-- Keys with the same text are the same. -/
theorem text_injective {key key' : Pubkey} (h : key.text = key'.text) : key = key' := by
  have hread := ofText?_text key
  rw [h, ofText?_text] at hread
  exact (Option.some.inj hread).symm

/-- The text of a key is a word. -/
theorem isWord_text (key : Pubkey) : Text.IsWord key.text := by
  refine ⟨?_, fun c hc => Bytes.isBlank_of_mem_toBase58 hc⟩
  intro hempty
  have hbytes : Bytes.toBase58 key.bytes = Bytes.toBase58 [] := hempty
  have hread := congrArg Bytes.ofBase58? hbytes
  rw [Bytes.ofBase58?_toBase58, Bytes.ofBase58?_toBase58] at hread
  have hlength := key.length_eq
  rw [Option.some.inj hread] at hlength
  cases hlength

end SolanaTx.Pubkey
