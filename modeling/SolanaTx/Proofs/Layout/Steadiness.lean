import SolanaTx.Proofs.Layout.Acceptance

/-!
# How a reader depends on the bytes

Reading that succeeds has no use for bytes behind those that it passes over. Reading that breaks
off for want of bytes breaks off at the same place until there are enough of them, and reading
that breaks off for any other reason does so whatever bytes come behind. These three are laws of
every reader that is made of steady steps, so they are proved for steps first.
-/

namespace SolanaTx.Layout

open Fallible

mutual

/-- The most bytes that one step of reading a layout asks for. -/
def maxStep : Layout → Int
  | .int _ width => width.bytes
  | .bool => 1
  | .pubkey => Pubkey.size
  | .bytes | .string => Nat.pow 2 32
  | .fixedBytes size => size
  | .array element _ => element.maxStep
  | .vec element =>
      max (Nat.pow 2 32) (max (Nat.pow 2 32 * element.minSize) element.maxStep)
  | .option element => max 1 element.maxStep
  | .struct fields => maxStepOfFields fields
  | .enum variants => max 1 (maxStepOfVariants variants)
  | .unknown _ => 0

def maxStepOfFields : List Field → Int
  | [] => 0
  | ⟨_, type, _⟩ :: rest => max type.maxStep (maxStepOfFields rest)

def maxStepOfVariants : List Variant → Int
  | [] => 0
  | ⟨_, none⟩ :: rest => maxStepOfVariants rest
  | ⟨_, some type⟩ :: rest => max type.maxStep (maxStepOfVariants rest)

end

/-- A reader of values as a function of the bytes that it reads. -/
abbrev Reader (α : Type) := Bytes → Int → Except Fault (α × Int)

variable {α β : Type} {data : Bytes} {start : Nat} {least least' most most' : Int}

/-- Reading has come to `stop`, and bytes from there on have no part in it. -/
structure Settles (reader : Reader α) (least : Int) (data : Bytes) (start : Nat) (a : α)
    (stop : Nat) : Prop where
  start_le : start ≤ stop
  stop_le : stop ≤ data.length
  least_le : start + least ≤ stop
  agrees : ∀ other : Bytes, other.take stop = data.take stop →
    reader other start = .ok (a, (stop : Int))

/-- At a place where `needed` bytes are asked for only `available` are left, and reading fails in
this way as long as they are not enough. -/
structure FallsShort (reader : Reader α) (most : Int) (data : Bytes) (start : Nat)
    (needed : Int) (available place : Nat) : Prop where
  start_le : start ≤ place
  length_eq : place + available = data.length
  lt_needed : available < needed
  needed_le : needed ≤ most
  lasts : ∀ more : Bytes, (available + more.length : Nat) < needed →
    reader (data ++ more) start =
      .error (.inPayload (.truncated needed (available + more.length : Nat) place))

/-- Reasons to break off that have nothing to do with the number of bytes. A tag or an index that
is refused stands where the error says. -/
inductive Objection (data : Bytes) : DecodeError → Prop
  | optionTag {tag : UInt8} {place : Nat} : data[place]? = some tag → 1 < tag.toNat →
      Objection data (.invalidOptionTag tag.toNat place)
  | variant {index : UInt8} {place : Nat} : data[place]? = some index →
      Objection data (.invalidVariant index.toNat place)
  | type (tag : Json) : Objection data (.unsupportedType tag)

/-- Whether a fault of reading comes from an objection, or from a name that is no key. -/
def Objects (data : Bytes) (fault : Fault) : Prop :=
  fault = .wrongKind ∨ ∃ e, .inPayload e = fault ∧ Objection data e

/-- How a reader depends on the bytes from `start` on. A value takes up `least` bytes or more, and
no step asks for more than `most` of them. -/
structure Steady (reader : Reader α) (least most : Int) (data : Bytes) (start : Nat) : Prop where
  ok : ∀ {a : α} {e : Int}, reader data start = .ok (a, e) →
    ∃ stop : Nat, e = stop ∧ Settles reader least data start a stop
  error : ∀ {fault : Fault}, reader data start = .error fault →
    (∃ (needed : Int) (available place : Nat),
      .inPayload (.truncated needed available place) = fault ∧
      FallsShort reader most data start needed available place) ∨
    (Objects data fault ∧ ∀ more, reader (data ++ more) start = .error fault)

theorem take_eq_of_le {other : Bytes} {m n : Nat} (hle : m ≤ n)
    (h : other.take n = data.take n) : other.take m = data.take m := by
  rw [← Nat.min_eq_left hle, ← List.take_take, h, List.take_take]

theorem length_le_of_take_eq {other : Bytes} {n : Nat} (hle : n ≤ data.length)
    (h : other.take n = data.take n) : n ≤ other.length := by
  have hlength := congrArg List.length h
  rw [List.length_take, List.length_take] at hlength
  omega

theorem Settles.append {reader : Reader α} {a : α} {stop : Nat}
    (h : Settles reader least data start a stop) (more : Bytes) :
    reader (data ++ more) start = .ok (a, (stop : Int)) :=
  h.agrees _ (List.take_append_of_le_length h.stop_le)

namespace Steady

theorem mono {reader : Reader α} (h : Steady reader least most data start)
    (hleast : least' ≤ max least 0) (hmost : most ≤ most') :
    Steady reader least' most' data start where
  ok hok := by
    obtain ⟨stop, rfl, hstart, hstop, hle, hagrees⟩ := h.ok hok
    exact ⟨stop, rfl, hstart, hstop, by omega, hagrees⟩
  error herror := by
    rcases h.error herror with ⟨needed, available, place, rfl, hshort⟩ | hobjection
    · exact .inl ⟨needed, available, place, rfl, hshort.start_le, hshort.length_eq,
        hshort.lt_needed, Int.le_trans hshort.needed_le hmost, hshort.lasts⟩
    · exact .inr hobjection

theorem congr {r r' : Reader α} (h : Steady r least most data start)
    (heq : ∀ data o, r' data o = r data o) : Steady r' least most data start := by
  obtain rfl : r' = r := funext fun data => funext fun o => heq data o
  exact h

/-- A value that is given without reading. -/
theorem done {reader : Reader α} {a : α}
    (hreader : ∀ other, reader other start = .ok (a, (start : Int)))
    (hstart : start ≤ data.length) : Steady reader 0 most data start where
  ok hok := by
    rw [hreader] at hok
    obtain ⟨rfl, rfl⟩ := Prod.mk.inj (Except.ok.inj hok)
    exact ⟨start, rfl, Nat.le_refl _, hstart, Int.le_of_eq (Int.add_zero _), fun _ _ => hreader _⟩
  error herror := by
    rw [hreader] at herror
    cases herror

theorem objects {reader : Reader α} {fault : Fault}
    (hreader : ∀ other, reader other start = .error fault) (h : Objects data fault) :
    Steady reader least most data start where
  ok hok := by
    rw [hreader] at hok
    cases hok
  error herror := by
    rw [hreader] at herror
    obtain rfl := Except.error.inj herror
    exact .inr ⟨h, fun _ => hreader _⟩

/-- Two steps one behind the other. The second one starts where the first one has come to. -/
theorem bind (r : Reader α) (k : α → Reader β) {reader : Reader β}
    (hreader : ∀ data o, reader data o = r data o >>= fun p => k p.1 data p.2)
    (hr : Steady r least most data start)
    (hk : ∀ a stop, r data start = .ok (a, (stop : Nat)) → start ≤ stop → stop ≤ data.length →
      Steady (k a) least' most data stop) :
    Steady reader (least + least') most data start where
  ok {b e} hok := by
    rw [hreader] at hok
    obtain ⟨⟨a, offset⟩, ha, hb⟩ := bind_eq_ok.mp hok
    obtain ⟨middle, rfl, hfirst⟩ := hr.ok ha
    obtain ⟨stop, rfl, hsecond⟩ := (hk a middle ha hfirst.start_le hfirst.stop_le).ok hb
    refine ⟨stop, rfl, Nat.le_trans hfirst.start_le hsecond.start_le, hsecond.stop_le, ?_, ?_⟩
    · have := hfirst.least_le
      have := hsecond.least_le
      omega
    · intro other hother
      rw [hreader, hfirst.agrees other (take_eq_of_le hsecond.start_le hother), ok_bind]
      exact hsecond.agrees other hother
  error {fault} herror := by
    rw [hreader] at herror
    cases ha : r data start with
    | error fault' =>
        -- the second step is not reached, whatever bytes come behind
        rw [ha] at herror
        obtain rfl := Except.error.inj herror
        rcases hr.error ha with ⟨needed, available, place, rfl, hshort⟩ | ⟨hobjection, hstays⟩
        · refine .inl ⟨needed, available, place, rfl, hshort.start_le, hshort.length_eq,
            hshort.lt_needed, hshort.needed_le, ?_⟩
          intro more hmore
          rw [hreader, hshort.lasts more hmore]
          rfl
        · refine .inr ⟨hobjection, ?_⟩
          intro more
          rw [hreader, hstays more]
          rfl
    | ok p =>
        -- the first step stays as it is when bytes come behind, so that the second one decides
        obtain ⟨a, offset⟩ := p
        obtain ⟨middle, rfl, hfirst⟩ := hr.ok ha
        rw [ha, ok_bind] at herror
        have hsecond := hk a middle ha hfirst.start_le hfirst.stop_le
        rcases hsecond.error herror with
          ⟨needed, available, place, rfl, hshort⟩ | ⟨hobjection, hstays⟩
        · refine .inl ⟨needed, available, place, rfl,
            Nat.le_trans hfirst.start_le hshort.start_le, hshort.length_eq, hshort.lt_needed,
            hshort.needed_le, ?_⟩
          intro more hmore
          rw [hreader, hfirst.append more, ok_bind]
          exact hshort.lasts more hmore
        · refine .inr ⟨hobjection, ?_⟩
          intro more
          rw [hreader, hfirst.append more, ok_bind]
          exact hstays more

/-- A step whose value is changed. -/
theorem map (r : Reader α) (f : α → β) {reader : Reader β}
    (hreader : ∀ data o, reader data o = r data o >>= fun p => .ok (f p.1, p.2))
    (hr : Steady r least most data start) : Steady reader least most data start := by
  have h := bind r (fun a _ o => .ok (f a, o)) hreader hr fun a stop _ _ hstop =>
    done (fun _ => rfl) hstop
  rwa [Int.add_zero] at h

end Steady

/-! ## Steps -/

theorem take_natCast {size : Nat} (hstart : start ≤ data.length) :
    take data start size =
      if data.length - start < size then
        .error (.inPayload (.truncated size (data.length - start : Nat) start))
      else .ok ((data.drop start).take size) := by
  have havailable : (data.length : Int) - start = (data.length - start : Nat) := by omega
  have hmax : max ((data.length - start : Nat) : Int) 0 = (data.length - start : Nat) := by omega
  rw [take, havailable, hmax, ← Int.natCast_add, Bytes.slice_natCast]
  simp only [Int.ofNat_lt]

/-- What is made of bytes that are taken off matters for that number of bytes only. -/
theorem bind_take_congr {n : Nat} {f g : Bytes → Except Fault (α × Int)}
    (hstart : start ≤ data.length) (h : ∀ raw : Bytes, raw.length = n → f raw = g raw) :
    (take data start n >>= f) = (take data start n >>= g) := by
  rw [take_natCast hstart]
  split
  · rfl
  · next hfits =>
    refine h _ ?_
    rw [List.length_take, List.length_drop]
    omega

/-- A step that takes off a number of bytes and makes a value of them. -/
theorem steady_of_take {reader : Reader α} (size : Nat) (value : Bytes → α)
    (hreader : ∀ (data : Bytes) (start : Nat), start ≤ data.length → reader data start =
      take data start size >>= fun raw => .ok (value raw, start + (size : Int)))
    (hmost : (size : Int) ≤ most) (hstart : start ≤ data.length) :
    Steady reader size most data start := by
  have hread : ∀ other : Bytes, start + size ≤ other.length →
      reader other start = .ok (value ((other.drop start).take size), (start + size : Nat)) := by
    intro other hother
    rw [hreader other start (by omega), take_natCast (by omega), if_neg (by omega)]
    rfl
  have hshort : ∀ other : Bytes, start ≤ other.length → other.length - start < size →
      reader other start =
        .error (.inPayload (.truncated size (other.length - start : Nat) start)) := by
    intro other hother hlt
    rw [hreader other start hother, take_natCast hother, if_pos hlt]
    rfl
  by_cases hfits : start + size ≤ data.length
  · refine ⟨?_, ?_⟩
    · intro a e ha
      rw [hread data hfits] at ha
      obtain ⟨rfl, rfl⟩ := Prod.mk.inj (Except.ok.inj ha)
      refine ⟨_, rfl, Nat.le_add_right _ _, hfits, Int.le_refl _, ?_⟩
      intro other hother
      have hpart : (other.drop start).take size = (data.drop start).take size := by
        have hdrop := congrArg (List.drop start) hother
        rwa [List.drop_take, List.drop_take, Nat.add_sub_cancel_left] at hdrop
      rw [hread other (length_le_of_take_eq hfits hother), hpart]
    · intro fault hfault
      rw [hread data hfits] at hfault
      cases hfault
  · have hlt : data.length - start < size := by omega
    refine ⟨?_, ?_⟩
    · intro a e ha
      rw [hshort data hstart hlt] at ha
      cases ha
    · intro fault hfault
      rw [hshort data hstart hlt] at hfault
      refine .inl ⟨size, data.length - start, start, Except.error.inj hfault, Nat.le_refl _,
        by omega, by omega, hmost, ?_⟩
      intro more hmore
      have hlength : (data ++ more).length - start = data.length - start + more.length := by
        rw [List.length_append]
        omega
      rw [hshort (data ++ more) (by rw [List.length_append]; omega) (by omega), hlength]

theorem steady_readNat (width : Nat) (hmost : (width : Int) ≤ most)
    (hstart : start ≤ data.length) :
    Steady (fun data o => readNat data width o) width most data start :=
  steady_of_take width Bytes.toNat (fun _ _ _ => rfl) hmost hstart

theorem isCount_of_readNat {count : Nat} {stop : Int} (hstart : start ≤ data.length)
    (h : readNat data countSize start = .ok (count, stop)) : IsCount count := by
  obtain ⟨pre, rest, hdata, rfl⟩ := exists_parts hstart
  obtain ⟨-, -, -, -, -, hcount⟩ := passes_of_readNat_countSize hdata h
  exact hcount

/-- The tag that was read stands in front of where reading has come to. -/
theorem getElem?_of_readNat_byte {tag stop : Nat} (hstart : start ≤ data.length)
    (h : readNat data 1 start = .ok (tag, (stop : Nat))) :
    ∃ byte : UInt8, stop = start + 1 ∧ tag = byte.toNat ∧ data[start]? = some byte := by
  obtain ⟨pre, rest, hdata, rfl⟩ := exists_parts hstart
  obtain ⟨b, post, rfl, hstop, byte, rfl, rfl⟩ := passes_of_readNat_byte hdata h
  refine ⟨byte, ?_, rfl, ?_⟩
  · rw [Int.ofNat.inj hstop, List.length_append]
    rfl
  · rw [List.append_assoc, List.getElem?_append_right (Nat.le_refl _), Nat.sub_self]
    rfl

theorem steady_readCounted (hmost : (Nat.pow 2 32 : Int) ≤ most)
    (hstart : start ≤ data.length) :
    Steady (fun data o => readCounted data o) countSize most data start := by
  have hcountSize : (countSize : Int) ≤ most := Int.le_trans (by decide) hmost
  have hcounted : Steady (fun data o => readCounted data o) (countSize + 0) most data start := by
    refine .bind (fun data o => readNat data countSize o)
      (fun length data o => take data o length >>= fun raw => .ok (raw, o + length))
      (fun _ _ => rfl) (steady_readNat countSize hcountSize hstart) ?_
    intro length stop hlength _ hstop
    have hcount : length < Nat.pow 2 32 := isCount_of_readNat hstart hlength
    have htaken : Steady (fun data o => take data o length >>= fun raw => .ok (raw, o + length))
        length most data stop :=
      steady_of_take length id (fun _ _ _ => rfl) (by omega) hstop
    exact htaken.mono (by omega) (Int.le_refl _)
  rwa [Int.add_zero] at hcounted

/-- As many values as a count says, each by a steady reader. -/
theorem steady_readMany {reader : Reader Value}
    (hreader : ∀ start, start ≤ data.length → Steady reader least most data start) (count : Nat)
    (hstart : start ≤ data.length) :
    Steady (fun data o => readMany (fun o => reader data o) count o) (count * least) most data
      start := by
  induction count generalizing start with
  | zero =>
      rw [Int.natCast_zero, Int.zero_mul]
      exact .done (fun _ => rfl) hstart
  | succ count ih =>
      have hmany : Steady (fun data o => readMany (fun o => reader data o) (count + 1) o)
          (least + count * least) most data start := by
        refine .bind reader
          (fun v data o => readMany (fun o => reader data o) count o >>= fun p =>
            .ok (v :: p.1, p.2))
          (fun _ _ => rfl) (hreader start hstart) ?_
        intro v stop _ _ hstop
        exact .map (fun data o => readMany (fun o => reader data o) count o) (v :: ·)
          (fun _ _ => rfl) (ih hstop)
      rwa [Int.natCast_succ, Int.add_mul, Int.one_mul, Int.add_comm]

/-- A list is refused only where its items would not be there. -/
theorem steady_refusal {r : Reader α} {count : Nat} {size : Int}
    (hr : Steady r (count * size) most data start) (hmost : count * size ≤ most)
    (hstart : start ≤ data.length) :
    Steady (fun data o =>
      if size ≠ 0 ∧ (data.length : Int) - o < count * size then
        .error (.inPayload (.truncated (count * size) (data.length - o) o))
      else r data o) 0 most data start where
  ok {a e} hok := by
    split at hok
    · cases hok
    · -- the items were there, so they are in all bytes that agree up to `stop`
      obtain ⟨stop, rfl, hsettles⟩ := hr.ok hok
      have hspan := hsettles.least_le
      refine ⟨stop, rfl, hsettles.start_le, hsettles.stop_le, ?_, ?_⟩
      · have := hsettles.start_le
        omega
      · intro other hother
        have hlength := length_le_of_take_eq hsettles.stop_le hother
        rw [if_neg (by omega), hsettles.agrees other hother]
  error {fault} herror := by
    split at herror
    · next hrefused =>
      have havailable : (data.length : Int) - start = (data.length - start : Nat) := by omega
      rw [havailable] at herror hrefused
      refine .inl ⟨count * size, data.length - start, start, Except.error.inj herror, Nat.le_refl _,
        by omega, hrefused.2, hmost, ?_⟩
      intro more hmore
      have hmore' : ((data ++ more).length : Int) - start =
          (data.length - start + more.length : Nat) := by
        rw [List.length_append]
        omega
      rw [hmore', if_pos ⟨hrefused.1, hmore⟩]
    · next hfits =>
      have hlonger : ∀ more : Bytes,
          ¬ (size ≠ 0 ∧ ((data ++ more).length : Int) - start < count * size) := by
        intro more
        rw [List.length_append]
        omega
      rcases hr.error herror with ⟨needed, available, place, rfl, hshort⟩ | ⟨hobjects, hstays⟩
      · refine .inl ⟨needed, available, place, rfl, hshort.start_le, hshort.length_eq,
          hshort.lt_needed, hshort.needed_le, ?_⟩
        intro more hmore
        rw [if_neg (hlonger more), hshort.lasts more hmore]
      · refine .inr ⟨hobjects, ?_⟩
        intro more
        rw [if_neg (hlonger more), hstays more]

/-! ## Values of all layouts -/

mutual

theorem minSize_nonneg {layout : Layout} (h : layout.Everywhere SizeNonneg) :
    0 ≤ layout.minSize := by
  cases layout with
  | int | bool | pubkey | bytes | string | vec | option | enum =>
      rw [minSize]
      omega
  | unknown tag => exact Int.le_refl _
  | fixedBytes size => exact h
  | array element size => exact Int.mul_nonneg h.1 (minSize_nonneg h.2)
  | struct fields => exact minSizeSum_nonneg h.2

theorem minSizeSum_nonneg {fields : List Field} (h : EverywhereInFields SizeNonneg fields) :
    0 ≤ minSizeSum fields := by
  cases fields with
  | nil => exact Int.le_refl _
  | cons field rest =>
      obtain ⟨name, type, decimals⟩ := field
      exact Int.add_nonneg (minSize_nonneg h.1) (minSizeSum_nonneg h.2)

end

/-- The items of a list of which the number is read already. -/
def readItems (element : Layout) (count : Nat) : Reader Value := fun data o =>
  if element.minSize ≠ 0 ∧ (data.length : Int) - o < count * element.minSize then
    .error (.inPayload (.truncated (count * element.minSize) (data.length - o) o))
  else if element.isByte then .ok (.bytes (data.slice o (o + count)), o + count)
  else readMany (fun o => read data element o) count o >>= fun p => .ok (.list p.1, p.2)

/-- Single bytes are refused as a list where they cannot be taken off in one row. -/
theorem readItems_byte {element : Layout} {count : Nat} (hbyte : element.isByte)
    (hstart : start ≤ data.length) :
    readItems element count data start =
      take data start count >>= fun raw => .ok (.bytes raw, start + (count : Int)) := by
  have hsize : u8.minSize = 1 := rfl
  have havailable : (data.length : Int) - start = (data.length - start : Nat) := by omega
  rw [readItems, if_pos hbyte, isByte_eq hbyte, hsize, Int.mul_one, take_natCast hstart,
    havailable, ← Int.natCast_add, Bytes.slice_natCast]
  by_cases hfits : data.length - start < count
  · rw [if_pos hfits, if_pos ⟨Int.one_ne_zero, Int.ofNat_lt.mpr hfits⟩]
    rfl
  · rw [if_neg hfits, if_neg fun h => hfits (Int.ofNat_lt.mp h.2)]
    rfl

theorem steady_readItems {element : Layout} {count : Nat}
    (hread : ∀ start, start ≤ data.length →
      Steady (fun data o => read data element o) element.minSize element.maxStep data start)
    (hsize : 0 ≤ element.minSize) (hcount : IsCount count) (hstart : start ≤ data.length) :
    Steady (readItems element count) 0 (maxStep (.vec element)) data start := by
  have hlt : count < Nat.pow 2 32 := hcount
  have hmost : count * element.minSize ≤ maxStep (.vec element) := by
    have := Int.mul_le_mul_of_nonneg_right (Int.ofNat_le.mpr (Nat.le_of_lt hlt)) hsize
    rw [maxStep]
    omega
  by_cases hbyte : element.isByte
  · have hsteady : Steady (readItems element count) count (maxStep (.vec element)) data start := by
      refine steady_of_take count .bytes (fun _ _ => readItems_byte hbyte) ?_ hstart
      rw [maxStep]
      omega
    exact hsteady.mono (by omega) (Int.le_refl _)
  · have hmany : Steady
        (fun data o => readMany (fun o => read data element o) count o >>= fun p =>
          .ok (Value.list p.1, p.2))
        (count * element.minSize) (maxStep (.vec element)) data start := by
      refine .map (fun data o => readMany (fun o => read data element o) count o) Value.list
        (fun _ _ => rfl) ((steady_readMany hread count hstart).mono (by omega) ?_)
      rw [maxStep]
      omega
    exact (steady_refusal hmany hmost hstart).congr fun _ _ => by rw [readItems, if_neg hbyte]

mutual

/-- Values of layouts without sizes below zero are read steadily. -/
theorem steady_read {layout : Layout} {start : Nat} (hsizes : layout.Everywhere SizeNonneg)
    (hstart : start ≤ data.length) :
    Steady (fun data o => read data layout o) layout.minSize layout.maxStep data start := by
  cases layout with
  | int signed width =>
      exact steady_of_take width.bytes
        (fun raw => .int (if signed then raw.toInt else raw.toNat))
        (fun _ _ _ => by rw [read]; rfl) (Int.le_refl _) hstart
  | bool =>
      refine steady_of_take 1 (fun raw => .bool (raw.head?.getD 0 != 0)) ?_ (Int.le_refl _) hstart
      intro data start hstart
      rw [read]
      refine bind_take_congr (n := 1) hstart ?_
      intro raw hlength
      obtain ⟨byte, rfl⟩ := List.length_eq_one_iff.mp hlength
      rfl
  | pubkey =>
      refine steady_of_take Pubkey.size (fun raw => (Pubkey.ofBytes? raw).elim .none .pubkey) ?_
        (Int.le_refl _) hstart
      intro data start hstart
      rw [read]
      refine bind_take_congr hstart ?_
      intro raw hlength
      have hsize : raw.length = 32 := hlength
      rw [Pubkey.ofBytes?, dif_pos hsize]
      rfl
  | bytes =>
      exact .map (fun data o => readCounted data o) .bytes (fun _ _ => by rw [read]; rfl)
        (steady_readCounted (Int.le_refl _) hstart)
  | string =>
      exact .map (fun data o => readCounted data o) textValue (fun _ _ => by rw [read]; rfl)
        (steady_readCounted (Int.le_refl _) hstart)
  | fixedBytes size =>
      obtain ⟨n, rfl⟩ := Int.eq_ofNat_of_zero_le hsizes
      exact steady_of_take n .bytes (fun _ _ _ => by rw [read]; rfl) (Int.le_refl _) hstart
  | array element size =>
      obtain ⟨n, rfl⟩ := Int.eq_ofNat_of_zero_le hsizes.1
      exact .map (fun data o => readMany (fun o => read data element o) n o) .list
        (fun _ _ => by rw [read]; rfl)
        (steady_readMany (fun _ hstart => steady_read hsizes.2 hstart) n hstart)
  | vec element =>
      have hvec : Steady (fun data o => read data (.vec element) o) (countSize + 0)
          (maxStep (.vec element)) data start := by
        refine .bind (fun data o => readNat data countSize o) (readItems element)
          (fun _ _ => by rw [read]; rfl) (steady_readNat countSize ?_ hstart) ?_
        · have hpow : countSize ≤ Nat.pow 2 32 := by decide
          rw [maxStep]
          omega
        · intro count stop hcount _ hstop
          exact steady_readItems (fun _ hstart => steady_read hsizes.2 hstart)
            (minSize_nonneg hsizes.2) (isCount_of_readNat hstart hcount) hstop
      rwa [Int.add_zero] at hvec
  | option element =>
      have hoption : Steady (fun data o => read data (.option element) o) (1 + 0)
          (maxStep (.option element)) data start := by
        refine .bind (fun data o => readNat data 1 o)
          (fun tag data o =>
            match tag with
            | 0 => .ok (.none, o)
            | 1 => read data element o
            | tag => .error (.inPayload (.invalidOptionTag tag (o - 1))))
          (fun _ _ => by rw [read]; rfl) (steady_readNat 1 ?_ hstart) ?_
        · rw [maxStep]
          omega
        · intro tag stop htag _ hstop
          obtain ⟨byte, rfl, hbyte, hplace⟩ := getElem?_of_readNat_byte hstart htag
          match tag, hbyte with
          | 0, _ => exact .done (fun _ => rfl) hstop
          | 1, _ =>
              refine (steady_read hsizes.2 hstop).mono ?_ ?_
              · omega
              · rw [maxStep]
                omega
          | tag + 2, hbyte =>
              have hback : ((start + 1 : Nat) : Int) - 1 = start := by omega
              have hobjection : Objection data (.invalidOptionTag (tag + 2) start) := by
                rw [hbyte]
                exact .optionTag hplace (by omega)
              exact .objects (fun _ => by rw [hback]; rfl) (.inr ⟨_, rfl, hobjection⟩)
      rwa [Int.add_zero] at hoption
  | struct fields =>
      exact .map (fun data o => readFields data fields [] o) .struct (fun _ _ => by rw [read]; rfl)
        (steady_readFields [] hsizes.2 hstart)
  | enum variants =>
      have henum : Steady (fun data o => read data (.enum variants) o) (1 + 0)
          (maxStep (.enum variants)) data start := by
        refine .bind (fun data o => readNat data 1 o)
          (fun index data o => readVariant data index variants index o)
          (fun _ _ => by rw [read]) (steady_readNat 1 ?_ hstart) ?_
        · rw [maxStep]
          omega
        · intro index stop hindex _ hstop
          obtain ⟨byte, rfl, rfl, hplace⟩ := getElem?_of_readNat_byte hstart hindex
          refine (steady_readVariant hsizes.2 hstop rfl hplace).mono (by omega) ?_
          rw [maxStep]
          omega
      rwa [Int.add_zero] at henum
  | unknown tag =>
      exact .objects (fun _ => by rw [read]; rfl) (.inr ⟨_, rfl, .type tag⟩)

theorem steady_readFields {fields : List Field} {start : Nat} (entries : List (Json × Value))
    (hsizes : EverywhereInFields SizeNonneg fields) (hstart : start ≤ data.length) :
    Steady (fun data o => readFields data fields entries o) (minSizeSum fields)
      (maxStepOfFields fields) data start := by
  cases fields with
  | nil => exact .done (fun _ => by rw [readFields]) hstart
  | cons field rest =>
      obtain ⟨name, type, decimals⟩ := field
      refine .bind (fun data o => read data type o)
        (fun v data o =>
          if name.isKey then readFields data rest (Value.putEntry name v entries) o
          else .error .wrongKind)
        (fun _ _ => by rw [readFields]; rfl) ((steady_read hsizes.1 hstart).mono ?_ ?_) ?_
      · omega
      · rw [maxStepOfFields]
        omega
      · intro v stop _ _ hstop
        by_cases hkey : name.isKey
        · refine (steady_readFields (Value.putEntry name v entries) hsizes.2 hstop).congr
            (fun _ _ => by rw [if_pos hkey]) |>.mono ?_ ?_
          · omega
          · rw [maxStepOfFields]
            omega
        · exact .objects (fun _ => by rw [if_neg hkey]) (.inl rfl)

theorem steady_readVariant {variants : List Variant} {start place left : Nat} {index : UInt8}
    (hsizes : EverywhereInVariants SizeNonneg variants) (hstart : start ≤ data.length)
    (hplace : start = place + 1) (hindex : data[place]? = some index) :
    Steady (fun data o => readVariant data index.toNat variants left o) 0
      (maxStepOfVariants variants) data start := by
  cases variants with
  | nil =>
      have hread : ∀ other, readVariant other index.toNat [] left start =
          .error (.inPayload (.invalidVariant index.toNat place)) := by
        intro other
        have hback : (start : Int) - 1 = place := by omega
        rw [readVariant, hback]
        rfl
      exact .objects hread (.inr ⟨_, rfl, .variant hindex⟩)
  | cons variant rest =>
      cases left with
      | zero =>
          obtain ⟨name, _ | type⟩ := variant
          · exact .done (fun _ => by rw [readVariant]; rfl) hstart
          · refine (Steady.map (fun data o => read data type o) (.variant name)
              (fun _ _ => by rw [readVariant]; rfl) (steady_read hsizes.1 hstart)).mono ?_ ?_
            · omega
            · rw [maxStepOfVariants]
              omega
      | succ left =>
          refine (steady_readVariant hsizes.rest hstart hplace hindex).congr
            (fun _ _ => by rw [readVariant_succ]) |>.mono (by omega) ?_
          obtain ⟨name, _ | type⟩ := variant
          · exact Int.le_refl _
          · rw [maxStepOfVariants]
            omega

end

/-- The values of a schema are read steadily. -/
theorem steady_readSchema {fields : List Field}
    (hsizes : ∀ field ∈ fields, field.type.Everywhere SizeNonneg) (hstart : start ≤ data.length) :
    Steady (fun data o => readSchema data fields o) (minSizeSum fields) (maxStepOfFields fields)
      data start := by
  induction fields generalizing start with
  | nil => exact .done (fun _ => rfl) hstart
  | cons field rest ih =>
      obtain ⟨name, type, decimals⟩ := field
      rw [List.forall_mem_cons] at hsizes
      refine .bind (fun data o => read data type o)
        (fun v data o => readSchema data rest o >>= fun p => .ok (v :: p.1, p.2))
        (fun _ _ => rfl) ((steady_read hsizes.1 hstart).mono (Int.le_max_left _ _) ?_) ?_
      · rw [maxStepOfFields]
        exact Int.le_max_left _ _
      · intro v stop _ _ hstop
        refine .map (fun data o => readSchema data rest o) (v :: ·) (fun _ _ => rfl)
          ((ih hsizes.2 hstop).mono ?_ ?_)
        · omega
        · rw [maxStepOfFields]
          omega

/-! ## Cutting off bytes -/

/-- Where bytes that a value was read from are cut off, reading falls short of no more bytes than
there were. -/
theorem truncated_of_take {reader : Reader α} {a : α} {stop m : Nat}
    (hsteady : Steady reader least most (data.take m) start)
    (hread : reader data start = .ok (a, (stop : Nat))) (hm : m < stop)
    (hlength : m ≤ data.length) :
    ∃ needed available place : Nat,
      reader (data.take m) start = .error (.inPayload (.truncated needed available place)) ∧
        place + available = m ∧ needed ≤ data.length := by
  have hparts : data.take m ++ data.drop m = data := List.take_append_drop m data
  have htake : (data.take m).length = m := List.length_take_of_le hlength
  cases hcut : reader (data.take m) start with
  | ok p =>
      -- such a value would have been read from all bytes, and come as far as that one
      obtain ⟨b, offset⟩ := p
      obtain ⟨stop', rfl, hsettles⟩ := hsteady.ok hcut
      have hall := hsettles.append (data.drop m)
      rw [hparts, hread] at hall
      have hstop := hsettles.stop_le
      have hsame : stop = stop' := Int.ofNat.inj (Prod.mk.inj (Except.ok.inj hall)).2
      omega
  | error fault =>
      rcases hsteady.error hcut with ⟨needed, available, place, rfl, hshort⟩ | ⟨-, hstays⟩
      · have hlt := hshort.lt_needed
        obtain ⟨n, rfl⟩ := Int.eq_ofNat_of_zero_le (show 0 ≤ needed by omega)
        have hplace := hshort.length_eq
        rw [htake] at hplace
        refine ⟨n, available, place, rfl, hplace, ?_⟩
        -- all bytes are enough
        by_contra hmore
        have hlasts := hshort.lasts (data.drop m) (by rw [List.length_drop]; omega)
        rw [hparts, hread] at hlasts
        cases hlasts
      · have hall := hstays (data.drop m)
        rw [hparts, hread] at hall
        cases hall

end SolanaTx.Layout
