import SolanaTx.Bytes.Base58

/-!
# Public keys

Programs and accounts are named by 32 bytes, which are shown in base 58.
-/

namespace SolanaTx

structure Pubkey where
  bytes : Bytes
  length_eq : bytes.length = 32
  deriving DecidableEq

namespace Pubkey

def size : Nat := 32

def ofBytes? (data : Bytes) : Option Pubkey :=
  if h : data.length = 32 then some ⟨data, h⟩ else none

/-- The key that a text names: base 58 of exactly 32 bytes. -/
def ofText? (t : Text) : Option Pubkey :=
  (Bytes.ofBase58? t).bind ofBytes?

def text (key : Pubkey) : Text :=
  Bytes.toBase58 key.bytes

/-- The key of zeros. -/
def zero : Pubkey := ⟨List.replicate 32 0, rfl⟩

end Pubkey

end SolanaTx
