/-!
# Text

A text is a row of code points. JSON can write half of a pair of UTF-16 code units
without the other half: that is no character, and no bytes in UTF-8 stand for it,
but it has its place in a text like any character.
-/

namespace SolanaTx

/-- A character, or half of a pair of code units that stands alone. -/
inductive CodePoint where
  | char (c : Char)
  /-- The half with the code `0xD800 + n`. -/
  | half (n : Fin 0x800)
  deriving DecidableEq

instance : Coe Char CodePoint := ⟨.char⟩

abbrev Text := List CodePoint

namespace CodePoint

def toNat : CodePoint → Nat
  | char c => c.toNat
  | half n => 0xD800 + n

/-- The code point with a number. -/
def ofNat (n : Nat) : CodePoint :=
  if h : 0xD800 ≤ n ∧ n < 0xE000 then half ⟨n - 0xD800, by omega⟩ else char (Char.ofNat n)

def char? : CodePoint → Option Char
  | char c => some c
  | half _ => none

theorem toNat_ofNat {n : Nat} (h : n < 0x110000) : (ofNat n).toNat = n := by
  unfold ofNat
  split
  · next hhalf => simp only [toNat]; omega
  · next hchar =>
    have hvalid : n.isValidChar := by
      simp only [Nat.isValidChar]
      omega
    rw [toNat, Char.ofNat, dif_pos hvalid]
    rfl

end CodePoint

namespace Text

def ofChars (cs : List Char) : Text :=
  cs.map .char

def ofString (s : String) : Text :=
  ofChars s.toList

instance : Coe String Text := ⟨ofString⟩

/-- The characters of a text that holds nothing else. -/
def chars? (t : Text) : Option (List Char) :=
  t.mapM CodePoint.char?

/-- A text for a channel of characters, on which the replacement character stands for a half. -/
def toString (t : Text) : String :=
  String.ofList (t.map fun p => p.char?.getD '\uFFFD')

/-- Whether a text stands before another or is the same, by the numbers of the code points. -/
def le : Text → Text → Bool
  | [], _ => true
  | _ :: _, [] => false
  | a :: s, b :: t => a.toNat < b.toNat || (a == b && le s t)

/-- Texts one after the other, with a separator between them. -/
def join (separator : Text) (parts : List Text) : Text :=
  List.intercalate separator parts

theorem chars?_ofChars (cs : List Char) : chars? (ofChars cs) = some cs := by
  induction cs with
  | nil => rfl
  | cons c rest ih =>
    simp only [chars?, ofChars, List.map_cons, List.mapM_cons] at ih ⊢
    simp [CodePoint.char?, ih]

end Text

end SolanaTx
