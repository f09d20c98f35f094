/-!
# Blanks and letter case

* `Text.isBlank`: the characters with the Unicode property `White_Space`;
* `Text.trim`, `Text.words`: text without its outer blanks, and cut at blanks;
* `Text.lower`, `Text.upper`, `Text.sameLetters`: letter case of ASCII letters only;
* `Text.cutAt`, `Text.splitOnAny`: text cut at given characters.
-/

namespace Switchboard.Text

/-- The Unicode property `White_Space`. -/
def isBlank (c : Char) : Bool :=
  let n := c.toNat
  (0x09 ≤ n && n ≤ 0x0D) || n = 0x20 || n = 0x85 || n = 0xA0 || n = 0x1680 || (0x2000 ≤ n && n ≤ 0x200A)
    || n = 0x2028 || n = 0x2029 || n = 0x202F || n = 0x205F || n = 0x3000

/-- Characters without leading ones of a class. -/
def trimStartOf (p : Char → Bool) (s : String) : String := String.ofList (s.toList.dropWhile p)

/-- Characters without trailing ones of a class. -/
def trimEndOf (p : Char → Bool) (s : String) : String :=
  String.ofList (s.toList.reverse.dropWhile p).reverse

/-- Text without leading and trailing blanks. -/
def trim (s : String) : String := trimEndOf isBlank (trimStartOf isBlank s)

/-- Is there nothing but blanks? -/
def isBlankText (s : String) : Bool := s.toList.all isBlank

/-- Pieces between characters of a class, empty ones included. -/
def splitChars (p : Char → Bool) (current : List Char) : List Char → List (List Char)
  | [] => [current.reverse]
  | c :: rest => if p c then current.reverse :: splitChars p [] rest else splitChars p (c :: current) rest

/-- Pieces between characters of a class, empty ones included. -/
def splitOnAny (p : Char → Bool) (s : String) : List String :=
  (splitChars p [] s.toList).map String.ofList

/-- The pieces between blanks that are not empty. -/
def words (s : String) : List String := (splitOnAny isBlank s).filter (· ≠ "")

/-- What stands before and after the first occurrence of a character. -/
def cutAt (c : Char) (s : String) : Option (String × String) :=
  let cs := s.toList
  match cs.dropWhile (· ≠ c) with
  | [] => none
  | _ :: rest => some (String.ofList (cs.takeWhile (· ≠ c)), String.ofList rest)

/-- ASCII letters in lower case. -/
def lower (s : String) : String := String.ofList (s.toList.map Char.toLower)

/-- ASCII letters in upper case. -/
def upper (s : String) : String := String.ofList (s.toList.map Char.toUpper)

/-- Equal up to the case of ASCII letters. -/
def sameLetters (a b : String) : Bool := lower a == lower b

/-- Decimal digits with an optional plus sign, as long as the value stays below `limit`. -/
def unsigned? (limit : Nat) (s : String) : Option Nat :=
  let ds := match s.toList with
    | '+' :: rest => rest
    | cs => cs
  if ds ≠ [] ∧ ds.all Char.isDigit then
    let n := ds.foldl (fun n c => n * 10 + (c.toNat - 48)) 0
    if n < limit then some n else none
  else none

/-- Decimal digits with an optional sign, as long as the value fits 64 signed bits. -/
def int64? (s : String) : Option Int :=
  match s.toList with
  | '-' :: rest =>
    if rest.head? = some '+' then none
    else (unsigned? 0x8000000000000001 (String.ofList rest)).map fun n => -(n : Int)
  | _ => (unsigned? 0x8000000000000000 s).map fun n => (n : Int)

end Switchboard.Text
