import SolanaTx.Bytes.Utf8
import SolanaTx.Json.Basic

/-!
# Reading JSON text

Of two fields with one name the later value counts, in the place of the first.
`NaN`, `Infinity` and `-Infinity` are numbers, and a byte order mark is refused.
-/

namespace SolanaTx.Json

/-- Why a text is not read as JSON. -/
inductive ReadError where
  | malformed
  /-- Lists and objects stand inside one another too deep. -/
  | tooDeep
  deriving DecidableEq

/-- How deep lists and objects may stand inside one another. Of a thousand levels ten are taken by
whatever reads a document: the number is that of a caller near the top, such as a command line. -/
def maxDepth : Nat := 990

/-- Drops the blanks that may stand between tokens. -/
def skipBlanks (cs : List Char) : List Char :=
  cs.dropWhile fun c => c == ' ' || c == '\t' || c == '\n' || c == '\r'

/-- The code unit that four hexadecimal digits write. -/
def codeUnit? (ds : List Char) : Option Nat :=
  ds.foldlM (fun n c =>
    if '0' ≤ c ∧ c ≤ '9' then some (16 * n + (c.toNat - '0'.toNat))
    else if 'a' ≤ c ∧ c ≤ 'f' then some (16 * n + (c.toNat - 'a'.toNat + 10))
    else if 'A' ≤ c ∧ c ≤ 'F' then some (16 * n + (c.toNat - 'A'.toNat + 10))
    else none) 0

/-- The character of an escape of one letter. -/
def shortEscape? : Char → Option Char
  | '"' => some '"'
  | '\\' => some '\\'
  | '/' => some '/'
  | 'b' => some (Char.ofNat 0x8)
  | 'f' => some (Char.ofNat 0xC)
  | 'n' => some '\n'
  | 'r' => some '\r'
  | 't' => some '\t'
  | _ => none

/-- The text read so far, last code point first, with one more code unit. The second half of a pair
makes a character of the first one. -/
def pushUnit (read : Text) (n : Nat) : Text :=
  match read with
  | .half high :: before =>
      if high < 0x400 ∧ 0xDC00 ≤ n ∧ n < 0xE000 then
        .ofNat (0x10000 + 0x400 * high + (n - 0xDC00)) :: before
      else .ofNat n :: read
  | _ => .ofNat n :: read

/-- The rest of a string after its opening quote, `read` being what stands before it, last first. -/
def readString? (read : Text) : List Char → Option (Text × List Char)
  | '"' :: rest => some (read.reverse, rest)
  | '\\' :: 'u' :: a :: b :: c :: d :: rest =>
      match codeUnit? [a, b, c, d] with
      | some n => readString? (pushUnit read n) rest
      | none => none
  | '\\' :: c :: rest =>
      match shortEscape? c with
      | some e => readString? (.char e :: read) rest
      | none => none
  | c :: rest => if c.toNat < 0x20 then none else readString? (.char c :: read) rest
  | [] => none

def isAsciiDigit (c : Char) : Bool := '0' ≤ c && c ≤ '9'

/-- The number that ASCII digits write. -/
def ofDigits (ds : List Char) : Nat :=
  ds.foldl (fun n c => 10 * n + (c.toNat - '0'.toNat)) 0

/-- The digits before the point: a zero alone, or digits that start with another one. -/
def readWhole? : List Char → Option (List Char × List Char)
  | '0' :: rest => some (['0'], rest)
  | cs =>
      let ds := cs.takeWhile isAsciiDigit
      if ds.isEmpty then none else some (ds, cs.dropWhile isAsciiDigit)

/-- A point with digits after it, where there is one. -/
def readFraction : List Char → List Char × List Char
  | '.' :: rest =>
      let ds := rest.takeWhile isAsciiDigit
      if ds.isEmpty then ([], '.' :: rest) else (ds, rest.dropWhile isAsciiDigit)
  | cs => ([], cs)

/-- An exponent, where there is one. -/
def readExponent (cs : List Char) : Option Int × List Char :=
  match cs with
  | e :: rest =>
      if e = 'e' || e = 'E' then
        let (sign, digits) : Int × List Char :=
          match rest with
          | '-' :: ds => (-1, ds)
          | '+' :: ds => (1, ds)
          | ds => (1, ds)
        let ds := digits.takeWhile isAsciiDigit
        if ds.isEmpty then (none, cs)
        else (some (sign * ofDigits ds), digits.dropWhile isAsciiDigit)
      else (none, cs)
  | [] => (none, cs)

/-- A number at the start of a text. -/
def readNumber? (cs : List Char) : Option (Json × List Char) := do
  let (negative, cs) := match cs with
    | '-' :: rest => (true, rest)
    | _ => (false, cs)
  let (whole, cs) ← readWhole? cs
  let (fraction, cs) := readFraction cs
  let (exponent, cs) := readExponent cs
  if fraction.isEmpty && exponent.isNone then
    if Decimal.maxDigits < whole.length then none
    else
      let n : Int := ofDigits whole
      some (.int (if negative then -n else n), cs)
  else
    let scale := exponent.getD 0 - fraction.length
    some (.real (Binary64.ofScientific negative (ofDigits (whole ++ fraction)) scale), cs)

/-- A value that is no list, object or string, at the start of a text. -/
def readScalar? (cs : List Char) : Option (Json × List Char) :=
  let words : List (String × Json) := [
    ("null", .null), ("true", .bool true), ("false", .bool false), ("NaN", .real .nan),
    ("Infinity", .real (.infinite false)), ("-Infinity", .real (.infinite true))]
  match words.find? fun word => word.1.toList.isPrefixOf cs with
  | some word => some (word.2, cs.drop word.1.length)
  | none => readNumber? cs

/-- What was read, or the error of a text that has no such thing. -/
def expect {α : Type} : Option α → Except ReadError α
  | some found => .ok found
  | none => .error .malformed

mutual

/-- A value at the start of a text, with lists and objects in it up to `depth`. Two steps take one
character at least, so a text is read with twice as much `fuel` as it has characters. -/
def readValue : Nat → Nat → List Char → Except ReadError (Json × List Char)
  | 0, _, _ => .error .malformed
  | fuel + 1, depth, cs =>
      match cs with
      | '"' :: rest => do
          let (t, rest) ← expect (readString? [] rest)
          pure (.text t, rest)
      | '[' :: rest =>
          match depth with
          | 0 => .error .tooDeep
          | depth + 1 =>
              match skipBlanks rest with
              | ']' :: rest => pure (.list [], rest)
              | rest => readItems fuel depth [] rest
      | '\x7b' :: rest =>
          match depth with
          | 0 => .error .tooDeep
          | depth + 1 =>
              match skipBlanks rest with
              | '\x7d' :: rest => pure (.object [], rest)
              | rest => readFields fuel depth [] rest
      | _ => expect (readScalar? cs)

/-- The items of a list from one of them on, after those in `read`, last first. -/
def readItems : Nat → Nat → List Json → List Char → Except ReadError (Json × List Char)
  | 0, _, _, _ => .error .malformed
  | fuel + 1, depth, read, cs => do
      let (item, rest) ← readValue fuel depth cs
      match skipBlanks rest with
      | ',' :: rest => readItems fuel depth (item :: read) (skipBlanks rest)
      | ']' :: rest => pure (.list (item :: read).reverse, rest)
      | _ => .error .malformed

/-- The fields of an object from one of them on, after those in `read`. -/
def readFields : Nat → Nat → Fields → List Char → Except ReadError (Json × List Char)
  | 0, _, _, _ => .error .malformed
  | fuel + 1, depth, read, cs =>
      match cs with
      | '"' :: rest => do
          let (key, rest) ← expect (readString? [] rest)
          match skipBlanks rest with
          | ':' :: rest =>
              let (value, rest) ← readValue fuel depth (skipBlanks rest)
              match skipBlanks rest with
              | ',' :: rest => readFields fuel depth (put key value read) (skipBlanks rest)
              | '\x7d' :: rest => pure (.object (put key value read), rest)
              | _ => .error .malformed
          | _ => .error .malformed
      | _ => .error .malformed

end

/-- The value that a whole text writes. -/
def parse (source : List Char) : Except ReadError Json := do
  let (value, rest) ← readValue (2 * source.length + 1) maxDepth (skipBlanks source)
  if (skipBlanks rest).isEmpty then pure value else .error .malformed

/-- The value that bytes write in UTF-8. -/
def ofBytes (data : Bytes) : Except ReadError Json := do
  parse (← expect data.toChars?)

end SolanaTx.Json
