import SolanaTx.Text.Case

/-!
# Spellings of names

A name may be written in snake case, camel case or Pascal case. Word boundaries
are found by ASCII letters and digits; the case of letters is that of all scripts.
-/

namespace SolanaTx.Naming

def isAsciiUpper (c : CodePoint) : Bool := 'A'.toNat ≤ c.toNat && c.toNat ≤ 'Z'.toNat

def isAsciiLower (c : CodePoint) : Bool := 'a'.toNat ≤ c.toNat && c.toNat ≤ 'z'.toNat

def isAsciiDigit (c : CodePoint) : Bool := '0'.toNat ≤ c.toNat && c.toNat ≤ '9'.toNat

/-- Parts a capitalised word from the character before it. The word starts with a capital letter
and goes on in small ones; `inWord` says whether the text starts inside such a word. -/
def partWords (inWord : Bool) : Text → Text
  | c :: upper :: small :: rest =>
      if inWord && isAsciiLower c then c :: partWords true (upper :: small :: rest)
      else if c ≠ '\n' && isAsciiUpper upper && isAsciiLower small then
        c :: .char '_' :: upper :: partWords true (small :: rest)
      else c :: partWords false (upper :: small :: rest)
  | cs => cs

/-- Parts a capital letter from a small letter or a digit before it. -/
def partCapitals : Text → Text
  | c :: upper :: rest =>
      if (isAsciiLower c || isAsciiDigit c) && isAsciiUpper upper then
        c :: .char '_' :: partCapitals (upper :: rest)
      else c :: partCapitals (upper :: rest)
  | cs => cs

/-- The parts of a text between underscores. -/
def splitUnderscores : Text → List Text
  | [] => [[]]
  | c :: rest =>
      if c = '_' then [] :: splitUnderscores rest
      else
        match splitUnderscores rest with
        | part :: parts => (c :: part) :: parts
        | [] => [[c]]

/-- The parts between underscores that are not empty, each with a capital first letter. -/
def capitalParts (t : Text) : List Text :=
  ((splitUnderscores t).filter fun part => !part.isEmpty).map Text.capitalize

/-- Words in small letters joined by underscores. -/
def snakeCase (name : Text) : Text :=
  Text.lower (partCapitals (partWords false name))

/-- Words with capital first letters and nothing between them. A name without underscores that
starts with a capital letter stays as it is. -/
def pascalCase (name : Text) : Text :=
  if !name.contains '_' && (name.take 1).any Text.isCapital then name
  else (capitalParts (snakeCase name)).flatten

/-- The words between underscores and hyphens, with capital first letters and spaces. -/
def title (name : Text) : Text :=
  Text.join " " (capitalParts (name.map fun c : CodePoint => if c = '-' then .char '_' else c))

end SolanaTx.Naming
