import SolanaTx.Text.Basic
import SolanaTx.Text.CaseTable

/-!
# Small and capital letters

A capital sigma at the end of a word becomes the final sigma; every other
character has one small form, wherever it stands.
-/

namespace SolanaTx.Text

/-- Moves a character by the first run that holds it. -/
def shiftBy? (runs : List CaseRun) (c : CodePoint) : Option CodePoint :=
  (runs.find? (·.has c.toNat)).map fun run => .ofNat ((c.toNat : Int) + run.shift).toNat

def inRanges (ranges : List (Nat × Nat)) (c : CodePoint) : Bool :=
  ranges.any fun range => range.1 ≤ c.toNat && c.toNat ≤ range.2

/-- Whether a character is a capital letter. -/
def isCapital (c : CodePoint) : Bool :=
  capitalRuns.any (·.has c.toNat)

/-- The small form of a character on its own; a dotted capital i keeps its dot as a mark. -/
def lowerChar (c : CodePoint) : Text :=
  if c.toNat = 0x130 then ['i', .ofNat 0x307]
  else [(shiftBy? lowerRuns c).getD c]

/-- The capital form of a character. -/
def upperChar (c : CodePoint) : Text :=
  match upperExpansions.lookup c.toNat with
  | some codes => codes.map .ofNat
  | none => [(shiftBy? upperRuns c).getD c]

/-- Whether the next character that counts, in either direction, is a letter with case. -/
def meetsCased (cs : Text) : Bool :=
  match cs.dropWhile (inRanges caseIgnorableRanges) with
  | c :: _ => inRanges casedRanges c
  | [] => false

/-- The small form of a text, of which `before` holds the part already passed, last first. -/
def lowerAfter (before : Text) : Text → Text
  | [] => []
  | c :: rest =>
      let small : Text :=
        if c = 'Σ' then [if meetsCased before && !meetsCased rest then 'ς' else 'σ']
        else lowerChar c
      small ++ lowerAfter (c :: before) rest

/-- A text in small letters. -/
def lower (t : Text) : Text :=
  lowerAfter [] t

/-- A text with its first character in capital form. -/
def capitalize : Text → Text
  | [] => []
  | c :: rest => upperChar c ++ rest

end SolanaTx.Text
