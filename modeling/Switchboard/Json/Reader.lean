import Switchboard.Json.Basic

/-!
# Reading JSON text

* `Json.readRaw?`: one value with nothing but blanks around it, members as written;
* `Json.read?`: the same, made canonical;
* `Json.readBytes?`: the same from bytes, which have to be UTF-8.

Arrays and objects may nest 127 deep. A number is an integer if it is written without a point or exponent
and fits `-2^63 … 2^64-1`; `-0` and everything else is a `Double`, and one that overflows is refused.
-/

namespace Switchboard.Json

namespace Reader

/-- The four blanks of JSON. -/
def isBlank (c : Char) : Bool := c = ' ' || c = '\n' || c = '\t' || c = '\r'

/-- Drop leading blanks. -/
def skip (cs : List Char) : List Char := cs.dropWhile isBlank

/-! ## Strings -/

/-- Value of a hexadecimal digit. -/
def hexDigit? (c : Char) : Option Nat :=
  if '0' ≤ c ∧ c ≤ '9' then some (c.toNat - 48)
  else if 'a' ≤ c ∧ c ≤ 'f' then some (c.toNat - 87)
  else if 'A' ≤ c ∧ c ≤ 'F' then some (c.toNat - 55)
  else none

/-- Value of four hexadecimal digits. -/
def hexUnit? (a b c d : Char) : Option Nat := do
  return 4096 * (← hexDigit? a) + 256 * (← hexDigit? b) + 16 * (← hexDigit? c) + (← hexDigit? d)

/-- Character of a one-letter escape. -/
def shortEscape? (c : Char) : Option Char :=
  match c with
  | '"' => some '"'
  | '\\' => some '\\'
  | '/' => some '/'
  | 'b' => some '\x08'
  | 'f' => some '\x0c'
  | 'n' => some '\n'
  | 'r' => some '\r'
  | 't' => some '\t'
  | _ => none

/-- First half of a surrogate pair. -/
def isHighSurrogate (u : Nat) : Bool := 0xD800 ≤ u && u < 0xDC00

/-- Second half of a surrogate pair. -/
def isLowSurrogate (u : Nat) : Bool := 0xDC00 ≤ u && u < 0xE000

/-- The rest of a string after its opening quote; `acc` holds what was read, last character first. -/
def string (acc : List Char) : List Char → Option (String × List Char)
  | [] => none
  | '"' :: rest => some (String.ofList acc.reverse, rest)
  | '\\' :: 'u' :: a :: b :: c :: d :: rest =>
    match hexUnit? a b c d with
    | none => none
    | some high =>
      if isLowSurrogate high then none
      else if isHighSurrogate high then
        match rest with
        | '\\' :: 'u' :: e :: f :: g :: h :: rest =>
          match hexUnit? e f g h with
          | none => none
          | some low =>
            if isLowSurrogate low then
              string (Char.ofNat (0x10000 + (high - 0xD800) * 0x400 + (low - 0xDC00)) :: acc) rest
            else none
        | _ => none
      else string (Char.ofNat high :: acc) rest
  | '\\' :: c :: rest =>
    match shortEscape? c with
    | some e => string (e :: acc) rest
    | none => none
  | c :: rest => if c.toNat < 0x20 ∨ c = '\\' then none else string (c :: acc) rest

/-! ## Numbers -/

/-- Largest integer that is kept exact. -/
def maxInteger : Nat := 0xFFFFFFFFFFFFFFFF

/-- Value of a decimal digit. -/
def digit (c : Char) : Nat := c.toNat - 48

/-- Leading digits and the rest. -/
def digits (cs : List Char) : List Char × List Char := (cs.takeWhile Char.isDigit, cs.dropWhile Char.isDigit)

/-- Take digits into the significand while it stays within 64 bits; the result says how many were taken. -/
def accumulate (significand taken : Nat) : List Char → Nat × Nat × List Char
  | [] => (significand, taken, [])
  | c :: rest =>
    if significand * 10 + digit c ≤ maxInteger then accumulate (significand * 10 + digit c) (taken + 1) rest
    else (significand, taken, c :: rest)

/-- Integer digits without a needless leading zero. -/
def integerDigits? (cs : List Char) : Option (List Char × List Char) :=
  match digits cs with
  | ([], _) => none
  | ('0' :: _ :: _, _) => none
  | r => some r

/-- Largest exponent that is counted. -/
def maxExponent : Nat := 0x7FFFFFFF

/-- Exponents stay within 32 signed bits. -/
def clampExponent (e : Int) : Int := max (-0x80000000) (min e 0x7FFFFFFF)

/-- The part from `e` on, if there is one: the exponent, `none` when it is too large to count. -/
def exponentPart (cs : List Char) : Option (Option (Bool × Option Nat) × List Char) :=
  match cs with
  | c :: rest =>
    if c = 'e' ∨ c = 'E' then
      let (positive, rest) := match rest with
        | '+' :: r => (true, r)
        | '-' :: r => (false, r)
        | r => (true, r)
      match digits rest with
      | ([], _) => none
      | (ds, rest) =>
        let e := ds.foldl (fun n c => n * 10 + digit c) 0
        some (some (positive, if e ≤ maxExponent then some e else none), rest)
    else some (none, cs)
  | [] => some (none, [])

/-- The value of `significand · 10 ^ start` shifted by a written exponent. -/
def scaled (significand : Nat) (start : Int) : Option (Bool × Option Nat) → Option Double
  | none => Double.ofSignificand significand start
  | some (positive, some e) =>
    Double.ofSignificand significand (clampExponent (if positive then start + e else start - e))
  | some (positive, none) =>
    if positive ∧ significand ≠ 0 then none else some (Double.ofNat 0)

/-- A number after its sign. Of a long number only the digits that fit 64 bits count, the others of the
integer part raise the exponent and those of the fraction are dropped. -/
def unsigned (negative : Bool) (cs : List Char) : Option (Number × List Char) := do
  let (whole, rest) ← integerDigits? cs
  let (significand, _, dropped) := accumulate 0 0 whole
  let signed (d : Double) : Number := .double (if negative then d.neg else d)
  match rest with
  | '.' :: rest =>
    match digits rest with
    | ([], _) => none
    | (fraction, rest) =>
      let (significand, taken, _) := accumulate significand 0 fraction
      let (exponent, rest) ← exponentPart rest
      let d ← scaled significand ((dropped.length : Int) - taken) exponent
      return (signed d, rest)
  | _ =>
    let (exponent, rest) ← exponentPart rest
    if exponent.isNone ∧ dropped.isEmpty then
      if negative then
        if significand = 0 ∨ 0x8000000000000000 < significand then return (signed (Double.ofNat significand), rest)
        else return (.int (-(significand : Int)), rest)
      else return (.int significand, rest)
    else
      let d ← scaled significand dropped.length exponent
      return (signed d, rest)

/-- A number. -/
def number : List Char → Option (Number × List Char)
  | '-' :: rest => unsigned true rest
  | cs => unsigned false cs

/-! ## Values -/

mutual

/-- One value, blanks before it skipped. The fuel bounds the calls, `depth` the nesting left. -/
def value : Nat → Nat → List Char → Option (Json × List Char)
  | 0, _, _ => none
  | fuel + 1, depth, cs =>
    match skip cs with
    | 'n' :: 'u' :: 'l' :: 'l' :: rest => some (.null, rest)
    | 't' :: 'r' :: 'u' :: 'e' :: rest => some (.bool true, rest)
    | 'f' :: 'a' :: 'l' :: 's' :: 'e' :: rest => some (.bool false, rest)
    | '"' :: rest => (string [] rest).map fun r => (.str r.1, r.2)
    | '[' :: rest =>
      if depth ≤ 1 then none
      else
        match skip rest with
        | ']' :: rest => some (.arr [], rest)
        | rest => items fuel (depth - 1) [] rest
    | '\x7b' :: rest =>
      if depth ≤ 1 then none
      else
        match skip rest with
        | '\x7d' :: rest => some (.obj [], rest)
        | rest => members fuel (depth - 1) [] rest
    | rest => (number rest).map fun r => (.num r.1, r.2)

/-- Elements of an array after its bracket, at least one; `acc` holds those read, last one first. -/
def items : Nat → Nat → List Json → List Char → Option (Json × List Char)
  | 0, _, _, _ => none
  | fuel + 1, depth, acc, cs =>
    match value fuel depth cs with
    | none => none
    | some (v, rest) =>
      match skip rest with
      | ',' :: rest => items fuel depth (v :: acc) rest
      | ']' :: rest => some (.arr (v :: acc).reverse, rest)
      | _ => none

/-- Members of an object after its brace, at least one; `acc` holds those read, last one first. -/
def members : Nat → Nat → List (String × Json) → List Char → Option (Json × List Char)
  | 0, _, _, _ => none
  | fuel + 1, depth, acc, cs =>
    match skip cs with
    | '"' :: rest =>
      match string [] rest with
      | none => none
      | some (key, rest) =>
        match skip rest with
        | ':' :: rest =>
          match value fuel depth rest with
          | none => none
          | some (v, rest) =>
            match skip rest with
            | ',' :: rest => members fuel depth ((key, v) :: acc) rest
            | '\x7d' :: rest => some (.obj ((key, v) :: acc).reverse, rest)
            | _ => none
        | _ => none
    | _ => none

end

end Reader

/-- Nesting that is refused. -/
def maxDepth : Nat := 128

/-- One value with only blanks around it, members in written order and repeated keys kept. -/
def readRaw? (text : String) : Option Json :=
  let cs := text.toList
  match Reader.value (2 * cs.length + 2) maxDepth cs with
  | some (v, rest) => if (Reader.skip rest).isEmpty then some v else none
  | none => none

/-- One canonical value with only blanks around it. -/
def read? (text : String) : Option Json := (readRaw? text).map canonical

/-- One canonical value from UTF-8 bytes. -/
def readBytes? (bytes : ByteArray) : Option Json := (String.fromUTF8? bytes).bind read?

end Switchboard.Json
