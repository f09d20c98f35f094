import Switchboard.Json.Basic

/-!
# Writing JSON text

* `Json.text`: compact form on one line;
* `Json.pretty`: two blanks of indent per level, one member or element per line.

Members are written in the order in which the object holds them.
-/

namespace Switchboard.Json

namespace Writer

/-- Lower-case hexadecimal digit. -/
def hexDigit (n : Nat) : Char := if n < 10 then Char.ofNat (48 + n) else Char.ofNat (87 + n)

/-- A character inside quotes: the quote, the backslash and control characters are escaped. -/
def escape (c : Char) : List Char :=
  match c with
  | '"' => ['\\', '"']
  | '\\' => ['\\', '\\']
  | '\x08' => ['\\', 'b']
  | '\x0c' => ['\\', 'f']
  | '\n' => ['\\', 'n']
  | '\r' => ['\\', 'r']
  | '\t' => ['\\', 't']
  | c =>
    if c.toNat < 0x20 then ['\\', 'u', '0', '0', hexDigit (c.toNat / 16), hexDigit (c.toNat % 16)]
    else [c]

/-- A quoted string. -/
def quoted (s : String) : String := "\"" ++ String.ofList (s.toList.flatMap escape) ++ "\""

/-- Integers in decimal, doubles in their shortest form; what is not finite has no number and becomes `null`. -/
def number : Number → String
  | .int i => toString i
  | .double d => if d.isFinite then d.text else "null"

mutual

/-- Compact form of a value. -/
def value : Json → String
  | .null => "null"
  | .bool b => if b then "true" else "false"
  | .num n => number n
  | .str s => quoted s
  | .arr items => "[" ++ elements items ++ "]"
  | .obj members => "\x7b" ++ entries members ++ "\x7d"

/-- Elements with commas between them. -/
def elements : List Json → String
  | [] => ""
  | [v] => value v
  | v :: rest => value v ++ "," ++ elements rest

/-- Members with commas between them. -/
def entries : List (String × Json) → String
  | [] => ""
  | [(k, v)] => quoted k ++ ":" ++ value v
  | (k, v) :: rest => quoted k ++ ":" ++ value v ++ "," ++ entries rest

end

/-- A line break and two blanks per level. -/
def newline (level : Nat) : String := "\n" ++ String.ofList (List.replicate (2 * level) ' ')

mutual

/-- Indented form of a value at a nesting level. -/
def prettyValue (level : Nat) : Json → String
  | .arr [] => "[]"
  | .arr items => "[" ++ prettyElements (level + 1) items ++ newline level ++ "]"
  | .obj [] => "\x7b\x7d"
  | .obj members => "\x7b" ++ prettyEntries (level + 1) members ++ newline level ++ "\x7d"
  | .null => "null"
  | .bool b => if b then "true" else "false"
  | .num n => number n
  | .str s => quoted s

/-- Elements, each on its own line. -/
def prettyElements (level : Nat) : List Json → String
  | [] => ""
  | [v] => newline level ++ prettyValue level v
  | v :: rest => newline level ++ prettyValue level v ++ "," ++ prettyElements level rest

/-- Members, each on its own line. -/
def prettyEntries (level : Nat) : List (String × Json) → String
  | [] => ""
  | [(k, v)] => newline level ++ quoted k ++ ": " ++ prettyValue level v
  | (k, v) :: rest =>
    newline level ++ quoted k ++ ": " ++ prettyValue level v ++ "," ++ prettyEntries level rest

end

end Writer

/-- Compact text of a value. -/
def text (v : Json) : String := Writer.value v

/-- Indented text of a value. -/
def pretty (v : Json) : String := Writer.prettyValue 0 v

end Switchboard.Json
