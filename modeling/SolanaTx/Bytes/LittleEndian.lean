import SolanaTx.Bytes.Slice

/-!
# Whole numbers in bytes

The least significant byte comes first. Signed numbers are in two's complement of
the width at hand.
-/

namespace SolanaTx.Bytes

def toNat : Bytes → Nat
  | [] => 0
  | b :: rest => b.toNat + 256 * toNat rest

/-- How many numbers a row of bytes can write. -/
def capacity (width : Nat) : Nat :=
  Nat.pow 256 width

/-- The signed number that bytes write; no byte writes zero. -/
def toInt (data : Bytes) : Int :=
  let n := toNat data
  if 2 * n < capacity data.length then n else (n : Int) - capacity data.length

/-- The `width` lowest bytes of a number. -/
def ofNat : Nat → Nat → Bytes
  | 0, _ => []
  | width + 1, n => UInt8.ofNat n :: ofNat width (n / 256)

/-- The bytes of a signed number of `width` bytes. -/
def ofInt (width : Nat) (n : Int) : Bytes :=
  ofNat width (n % capacity width).toNat

theorem length_ofNat (width n : Nat) : (ofNat width n).length = width := by
  induction width generalizing n with
  | zero => rfl
  | succ width ih => simp [ofNat, ih]

theorem capacity_succ (width : Nat) : capacity (width + 1) = 256 * capacity width :=
  Nat.mul_comm _ _

theorem toNat_lt_capacity (data : Bytes) : toNat data < capacity data.length := by
  induction data with
  | nil => exact Nat.one_pos
  | cons b rest ih =>
    have hb := b.toNat_lt
    simp only [toNat, List.length_cons, capacity_succ]
    omega

theorem toNat_ofNat (width n : Nat) : toNat (ofNat width n) = n % capacity width := by
  induction width generalizing n with
  | zero => exact (Nat.mod_one n).symm
  | succ width ih =>
    have hsplit : n % (256 * capacity width) = n % 256 + 256 * (n / 256 % capacity width) :=
      Nat.mod_mul
    simp only [ofNat, toNat, ih, capacity_succ, hsplit]
    simp

/-- A row of bytes is the writing of its number. -/
theorem ofNat_toNat (data : Bytes) : ofNat data.length (toNat data) = data := by
  induction data with
  | nil => rfl
  | cons b rest ih =>
    have hb := b.toNat_lt
    have hdiv : (b.toNat + 256 * toNat rest) / 256 = toNat rest := by omega
    have hmod : UInt8.ofNat (b.toNat + 256 * toNat rest) = b := by
      apply UInt8.toNat_inj.mp
      simp only [UInt8.toNat_ofNat']
      omega
    simp only [toNat, List.length_cons, ofNat, hdiv, hmod, ih]

end SolanaTx.Bytes
