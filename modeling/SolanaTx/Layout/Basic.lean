import SolanaTx.Json.Basic

/-!
# Layouts of values in bytes

Whole numbers are little-endian, booleans and option tags one byte, and text,
bytes and lists have their length in four bytes in front. Names come from
unchecked interface descriptions, so any JSON value may stand as a name.
-/

namespace SolanaTx

inductive IntWidth where
  | w8 | w16 | w32 | w64 | w128
  deriving DecidableEq

def IntWidth.bytes : IntWidth → Nat
  | w8 => 1
  | w16 => 2
  | w32 => 4
  | w64 => 8
  | w128 => 16

mutual

inductive Layout where
  | int (signed : Bool) (width : IntWidth)
  | bool
  | pubkey
  /-- Bytes after their number. -/
  | bytes
  /-- Text after its number of bytes. -/
  | string
  | fixedBytes (size : Int)
  | array (element : Layout) (size : Int)
  /-- Elements after their number. -/
  | vec (element : Layout)
  | option (element : Layout)
  | struct (fields : List Field)
  /-- The index of a variant in one byte, and what the variant carries. -/
  | enum (variants : List Variant)
  /-- A tag that names no layout. -/
  | unknown (tag : Json)

/-- A named value. Whole numbers in it are shown with `decimals` places. -/
structure Field where
  name : Json
  type : Layout
  decimals : Option Int := none

structure Variant where
  name : Json
  type : Option Layout := none

end

instance : Inhabited Layout := ⟨.bool⟩

instance : Inhabited Field := ⟨⟨.null, .bool, none⟩⟩

namespace Layout

def u8 : Layout := .int false .w8
def u16 : Layout := .int false .w16
def u32 : Layout := .int false .w32
def u64 : Layout := .int false .w64

def integerTags : List (Text × Layout) := [
  ("u8", u8), ("u16", u16), ("u32", u32), ("u64", u64), ("u128", .int false .w128),
  ("i8", .int true .w8), ("i16", .int true .w16), ("i32", .int true .w32),
  ("i64", .int true .w64), ("i128", .int true .w128)]

def plainTags : List (Text × Layout) := [
  ("bool", .bool), ("pubkey", .pubkey), ("bytes", .bytes), ("string", .string)]

/-- The layout that a tag names. -/
def ofTag : Json → Layout
  | .text tag => ((integerTags ++ plainTags).lookup tag).getD (.unknown (.text tag))
  | tag => .unknown tag

/-- Whether values are single unsigned bytes. -/
def isByte : Layout → Bool
  | .int false .w8 => true
  | _ => false

/-- The size of the numbers in front of text, bytes and lists. -/
def countSize : Nat := 4

mutual

/-- The fewest bytes that a value can occupy. Sizes below zero are taken as they stand. How deep
layouts may stand inside one another is left out. -/
def minSize : Layout → Int
  | .int _ width => width.bytes
  | .bool => 1
  | .pubkey => 32
  | .bytes | .string | .vec _ => countSize
  | .fixedBytes size => size
  | .array element size => size * element.minSize
  | .option _ | .enum _ => 1
  | .struct fields => minSizeSum fields
  | .unknown _ => 0

def minSizeSum : List Field → Int
  | [] => 0
  | ⟨_, type, _⟩ :: rest => type.minSize + minSizeSum rest

end

end Layout

end SolanaTx
