import Switchboard.Json.Reader

/-!
# Words of TOML text

Blanks, comments, line ends, strings, numbers and dates. Each reader gives what it read and the characters
after it, or nothing.
-/

namespace Switchboard.Toml.Lexeme

/-- What a reader gives: a value and the characters after it. -/
abbrev Reader (α : Type) := List Char → Option (α × List Char)

/-! ## Blanks and line ends -/

/-- A blank or a tab. -/
def isBlank (c : Char) : Bool := c = ' ' || c = '\t'

/-- Drop blanks. -/
def skip (cs : List Char) : List Char := cs.dropWhile isBlank

/-- A character that a comment may hold. -/
def isCommentChar (c : Char) : Bool := c = '\t' || (0x20 ≤ c.toNat && c.toNat ≠ 0x7F)

/-- Drop a comment. -/
def skipComment : List Char → List Char
  | '#' :: rest => rest.dropWhile isCommentChar
  | cs => cs

/-- A line end. -/
def newline? : List Char → Option (List Char)
  | '\n' :: rest => some rest
  | '\r' :: '\n' :: rest => some rest
  | _ => none

/-- Blanks, a comment, and the end of the line or of the text. -/
def lineEnd? (cs : List Char) : Option (List Char) :=
  match skipComment (skip cs) with
  | [] => some []
  | rest => newline? rest

/-- Blanks, comments and line ends between the elements of an array. -/
def skipLines : Nat → List Char → List Char
  | 0, cs => cs
  | fuel + 1, cs =>
    let rest := skipComment (skip cs)
    match newline? rest with
    | some rest => skipLines fuel rest
    | none => rest

/-! ## Strings -/

/-- A character that stands for itself in a string on one line. -/
def isPlain (c : Char) : Bool := c = '\t' || (0x20 ≤ c.toNat && c.toNat ≠ 0x7F)

/-- A character by its number, if it is one. -/
def scalar? (n : Nat) : Option Char :=
  if n < 0xD800 ∨ (0xDFFF < n ∧ n < 0x110000) then some (Char.ofNat n) else none

/-- A character after a backslash. -/
def escape : Reader Char
  | 'b' :: rest => some ('\x08', rest)
  | 't' :: rest => some ('\t', rest)
  | 'n' :: rest => some ('\n', rest)
  | 'f' :: rest => some ('\x0c', rest)
  | 'r' :: rest => some ('\r', rest)
  | '"' :: rest => some ('"', rest)
  | '\\' :: rest => some ('\\', rest)
  | 'u' :: a :: b :: c :: d :: rest => do
    return (← scalar? (← Json.Reader.hexUnit? a b c d), rest)
  | 'U' :: a :: b :: c :: d :: e :: f :: g :: h :: rest => do
    let high ← Json.Reader.hexUnit? a b c d
    let low ← Json.Reader.hexUnit? e f g h
    return (← scalar? (0x10000 * high + low), rest)
  | _ => none

/-- The rest of a string on one line after its quote. -/
def basic : Nat → List Char → Reader String
  | 0, _, _ => none
  | fuel + 1, acc, cs =>
    match cs with
    | '"' :: rest => some (String.ofList acc.reverse, rest)
    | '\\' :: rest =>
      match escape rest with
      | some (c, rest) => basic fuel (c :: acc) rest
      | none => none
    | c :: rest => if isPlain c then basic fuel (c :: acc) rest else none
    | [] => none

/-- The rest of a literal string on one line after its quote. -/
def literal (acc : List Char) : Reader String
  | '\'' :: rest => some (String.ofList acc.reverse, rest)
  | c :: rest => if isPlain c then literal (c :: acc) rest else none
  | [] => none

/-- Quotes at the start, at most so many. -/
def quotes (q : Char) : Nat → List Char → Nat × List Char
  | 0, cs => (0, cs)
  | fuel + 1, c :: rest =>
    if c = q then
      let (n, rest) := quotes q fuel rest
      (n + 1, rest)
    else (0, c :: rest)
  | _ + 1, [] => (0, [])

/-- The rest of a string over several lines: three quotes end it, and up to two before them belong to it. -/
def multi (q : Char) : Nat → List Char → Reader String
  | 0, _, _ => none
  | fuel + 1, acc, cs =>
    match cs with
    | [] => none
    | c :: rest =>
      if c = q then
        let (n, after) := quotes q 5 cs
        if 3 ≤ n then some (String.ofList (List.replicate (n - 3) q ++ acc).reverse, after)
        else multi q fuel (List.replicate n q ++ acc) after
      else if c = '\\' ∧ q = '"' then
        match newline? (skip rest) with
        | some after => multi q fuel acc (dropLines fuel after)
        | none =>
          match escape rest with
          | some (e, rest) => multi q fuel (e :: acc) rest
          | none => none
      else
        match newline? cs with
        | some after => multi q fuel ('\n' :: acc) after
        | none => if isPlain c then multi q fuel (c :: acc) rest else none
where
  /-- Drop blanks and line ends. -/
  dropLines : Nat → List Char → List Char
    | 0, cs => cs
    | fuel + 1, cs =>
      match newline? (skip cs) with
      | some rest => dropLines fuel rest
      | none => skip cs

/-- A string over several lines after its three quotes; a line end right after them does not count. -/
def multiLine (q : Char) (cs : List Char) : Option (String × List Char) :=
  multi q (cs.length + 1) [] ((newline? cs).getD cs)

/-- A string of any kind. -/
def string : Reader String
  | '"' :: '"' :: '"' :: rest => multiLine '"' rest
  | '\'' :: '\'' :: '\'' :: rest => multiLine '\'' rest
  | '"' :: rest => basic (rest.length + 1) [] rest
  | '\'' :: rest => literal [] rest
  | _ => none

/-! ## Numbers -/

/-- Digits of a class, single underscores between them. -/
def digitRun (p : Char → Bool) : Reader (List Char)
  | [] => none
  | c :: rest => if p c then some (more [c] rest) else none
where
  /-- Further digits, `acc` holding those read, last one first. -/
  more (acc : List Char) : List Char → List Char × List Char
    | '_' :: c :: rest => if p c then more (c :: acc) rest else (acc.reverse, '_' :: c :: rest)
    | c :: rest => if p c then more (c :: acc) rest else (acc.reverse, c :: rest)
    | [] => (acc.reverse, [])

/-- The value of digits. -/
def valueOf (base : Nat) (ds : List Char) : Nat :=
  ds.foldl (fun n c => n * base + (Json.Reader.hexDigit? c).getD 0) 0

/-- Integer digits: a single zero, or digits that do not start with one. -/
def wholeDigits : Reader (List Char)
  | '0' :: rest => some (['0'], rest)
  | cs => digitRun Char.isDigit cs

/-- A sign, if there is one: is it minus? -/
def sign : List Char → Bool × List Char
  | '+' :: rest => (false, rest)
  | '-' :: rest => (true, rest)
  | cs => (false, cs)

/-- An integer with a base prefix. -/
def prefixed : Reader Int
  | '0' :: 'x' :: rest => ofBase 16 (fun c => (Json.Reader.hexDigit? c).isSome) rest
  | '0' :: 'o' :: rest => ofBase 8 (fun c => '0' ≤ c && c ≤ '7') rest
  | '0' :: 'b' :: rest => ofBase 2 (fun c => c = '0' || c = '1') rest
  | _ => none
where
  /-- Digits of a base, as long as they fit 64 signed bits. -/
  ofBase (base : Nat) (p : Char → Bool) (cs : List Char) : Option (Int × List Char) := do
    let (ds, rest) ← digitRun p cs
    if valueOf base ds < 0x8000000000000000 then some ((valueOf base ds : Int), rest) else none

/-- A decimal integer that fits 64 signed bits. -/
def decimal (cs : List Char) : Option (Int × List Char) := do
  let (minus, rest) := sign cs
  let (ds, rest) ← wholeDigits rest
  let n := valueOf 10 ds
  if minus then if n ≤ 0x8000000000000000 then some (-(n : Int), rest) else none
  else if n < 0x8000000000000000 then some ((n : Int), rest) else none

/-- An integer. -/
def integer (cs : List Char) : Option (Int × List Char) := prefixed cs <|> decimal cs

/-- Bits of positive infinity. -/
def infinity : Double := ⟨0x7FF0000000000000⟩

/-- Bits of the positive NaN. -/
def notANumber : Double := ⟨0x7FF8000000000000⟩

/-- A number of a name. -/
def special : Reader Double
  | 'i' :: 'n' :: 'f' :: rest => some (infinity, rest)
  | 'n' :: 'a' :: 'n' :: rest => some (notANumber, rest)
  | _ => none

/-- The exponent of a float. -/
def exponent : Reader Int
  | c :: rest =>
    if c = 'e' ∨ c = 'E' then do
      let (minus, rest) := sign rest
      let (ds, rest) ← digitRun Char.isDigit rest
      let n : Int := valueOf 10 ds
      some (if minus then -n else n, rest)
    else none
  | [] => none

/-- Exponents beyond these make every number zero or infinite. -/
def clamp (e : Int) : Int := max (-100000) (min e 100000)

/-- A float: a fraction or an exponent has to be there. Positive ones may not overflow. -/
def float (cs : List Char) : Option (Double × List Char) := do
  let (minus, rest) := sign cs
  let signed (d : Double) : Double := if minus then d.neg else d
  match special rest with
  | some (d, rest) => some (signed d, rest)
  | none =>
    let (whole, rest) ← wholeDigits rest
    let (fraction, rest, pointed) ← match rest with
      | '.' :: after => (digitRun Char.isDigit after).map fun r => (r.1, r.2, true)
      | _ => some ([], rest, false)
    let (e, rest, scaled) := match exponent rest with
      | some (e, rest) => (e, rest, true)
      | none => (0, rest, false)
    if pointed || scaled then
      let d := signed (Double.nearest (valueOf 10 (whole ++ fraction)) (clamp (e - fraction.length)))
      if d = infinity then none else some (d, rest)
    else none

/-! ## Dates -/

/-- Two digits. -/
def twoDigits : Reader Nat
  | a :: b :: rest => if a.isDigit ∧ b.isDigit then some (valueOf 10 [a, b], rest) else none
  | _ => none

/-- Four digits. -/
def fourDigits (cs : List Char) : Option (Nat × List Char) := do
  let (a, rest) ← twoDigits cs
  let (b, rest) ← twoDigits rest
  some (100 * a + b, rest)

/-- One given character. -/
def char (c : Char) : Reader Unit
  | d :: rest => if c = d then some ((), rest) else none
  | [] => none

/-- Days of a month. -/
def daysIn (year month : Nat) : Nat :=
  if month = 2 then if year % 4 = 0 ∧ (year % 100 ≠ 0 ∨ year % 400 = 0) then 29 else 28
  else if month = 4 ∨ month = 6 ∨ month = 9 ∨ month = 11 then 30
  else 31

/-- Decimal digits, zeros before them up to a width. -/
def padded (width n : Nat) : String :=
  let ds := toString n
  String.ofList (List.replicate (width - ds.length) '0') ++ ds

/-- A day. -/
def date (cs : List Char) : Option (String × List Char) := do
  let (year, rest) ← fourDigits cs
  let (_, rest) ← char '-' rest
  let (month, rest) ← twoDigits rest
  let (_, rest) ← char '-' rest
  let (day, rest) ← twoDigits rest
  if 1 ≤ month ∧ month ≤ 12 ∧ 1 ≤ day ∧ day ≤ daysIn year month then
    some (padded 4 year ++ "-" ++ padded 2 month ++ "-" ++ padded 2 day, rest)
  else none

/-- The fraction of a second: nine digits count, zeros at the end are dropped. -/
def secondFraction (cs : List Char) : String × List Char :=
  match cs with
  | '.' :: rest =>
    match rest.takeWhile Char.isDigit with
    | [] => ("", cs)
    | ds =>
      let shown := ((ds.take 9).reverse.dropWhile (· = '0')).reverse
      (if shown.isEmpty then "" else "." ++ String.ofList shown, rest.dropWhile Char.isDigit)
  | _ => ("", cs)

/-- A time of day. -/
def time (cs : List Char) : Option (String × List Char) := do
  let (hour, rest) ← twoDigits cs
  let (_, rest) ← char ':' rest
  let (minute, rest) ← twoDigits rest
  let (_, rest) ← char ':' rest
  let (second, rest) ← twoDigits rest
  if hour ≤ 23 ∧ minute ≤ 59 ∧ second ≤ 60 then
    let (fraction, rest) := secondFraction rest
    some (padded 2 hour ++ ":" ++ padded 2 minute ++ ":" ++ padded 2 second ++ fraction, rest)
  else none

/-- The distance from universal time. -/
def zone : Reader String
  | c :: rest =>
    if c = 'Z' ∨ c = 'z' then some ("Z", rest)
    else if c = '+' ∨ c = '-' then do
      let (hour, rest) ← twoDigits rest
      let (_, rest) ← char ':' rest
      let (minute, rest) ← twoDigits rest
      if hour ≤ 23 ∧ minute ≤ 59 then
        let mark := if c = '-' ∧ (hour ≠ 0 ∨ minute ≠ 0) then "-" else "+"
        some (mark ++ padded 2 hour ++ ":" ++ padded 2 minute, rest)
      else none
    else none
  | [] => none

/-- What may stand between day and time. -/
def isDateTimeMark (c : Char) : Bool := c = 'T' || c = 't' || c = ' '

/-- A day, a time, or both with or without a zone; its normal text. -/
def datetime (cs : List Char) : Option (String × List Char) :=
  match date cs with
  | some (day, rest) =>
    match rest with
    | c :: after =>
      if isDateTimeMark c then
        match time after with
        | some (t, rest) =>
          match zone rest with
          | some (z, rest) => some (day ++ "T" ++ t ++ z, rest)
          | none => some (day ++ "T" ++ t, rest)
        | none => some (day, rest)
      else some (day, rest)
    | [] => some (day, [])
  | none => time cs

end Switchboard.Toml.Lexeme
