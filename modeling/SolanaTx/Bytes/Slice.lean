/-!
# Parts of a byte string

Positions below zero count from the end, and positions outside the string stand
for its nearest end.
-/

namespace SolanaTx

abbrev Bytes := List UInt8

namespace Bytes

/-- The position that a number stands for in a string of `length` bytes. -/
def position (length : Nat) (i : Int) : Nat :=
  if i < 0 then (i + length).toNat else min i.toNat length

/-- The bytes from one position to before another. -/
def slice (data : Bytes) (start stop : Int) : Bytes :=
  (data.take (position data.length stop)).drop (position data.length start)

/-- The bytes before a position. -/
def before (data : Bytes) (stop : Int) : Bytes :=
  data.take (position data.length stop)

/-- The first `count` rows of `size` bytes. -/
def rows (size : Nat) : Nat → Bytes → List Bytes
  | 0, _ => []
  | count + 1, data => data.take size :: rows size count (data.drop size)

theorem position_natCast (length n : Nat) : position length (n : Int) = min n length := by
  rw [position, if_neg (by omega), Int.toNat_natCast]

theorem slice_natCast (data : Bytes) (start size : Nat) :
    slice data start (start + size : Nat) = (data.drop start).take size := by
  rw [slice, position_natCast, position_natCast, List.take_eq_take_min.symm, List.drop_take]
  by_cases h : start ≤ data.length
  · rw [Nat.min_eq_left h, Nat.add_sub_cancel_left]
  · rw [Nat.min_eq_right (by omega), List.drop_eq_nil_of_le (Nat.le_refl _),
      List.drop_eq_nil_of_le (by omega), List.take_nil, List.take_nil]

end Bytes

end SolanaTx
