/-!
# Lines, positions and anchors of a text

* `Text.Position`: a line and a column, both counted from zero;
* `Text.Lines`: a text cut after each line break, columns and offsets counted in characters;
* `Lines.offsetOf`, `Lines.positionOf`: the way from a position to an offset and back;
* `Text.Anchor`: an offset that was handed out and can be resolved later.

A line ends after LF, CRLF, CR, VT, FF, NEL, LS or PS; the last line may be empty.
-/

namespace Switchboard.Text

/-- A line and a column, counted from zero. -/
structure Position where
  line : Nat
  col : Nat
deriving DecidableEq, Repr, Inhabited

/-- The position an editor names from one; zero counts as one. -/
def Position.ofOneBased (line col : Nat) : Position := ⟨line - 1, col - 1⟩

/-- A position between brackets. -/
def Position.text (p : Position) : String := "(" ++ toString p.line ++ ", " ++ toString p.col ++ ")"

/-- Why a position or offset was refused. -/
inductive PositionError where
  | position (at_ : Position)
  | offset (at_ : Nat)
deriving DecidableEq, Repr

/-- The wording of a refusal. -/
def PositionError.message : PositionError → String
  | position p => "position " ++ p.text ++ " is outside the file"
  | offset n => "offset " ++ toString n ++ " is outside the file"

/-- An offset handed out for a place in a text. -/
structure Anchor where
  offset : Nat
deriving DecidableEq, Repr, Inhabited

/-! ## Lines -/

/-- Characters that end a line on their own; CR does so unless LF follows. -/
def isLineBreak (c : Char) : Bool :=
  let n := c.toNat
  (0x0A ≤ n && n ≤ 0x0D) || n = 0x85 || n = 0x2028 || n = 0x2029

/-- Lengths of the lines with their breaks; `current` characters of the line were read. -/
def lineLengths (current : Nat) : List Char → List Nat
  | [] => [current]
  | '\r' :: '\n' :: rest => (current + 2) :: lineLengths 0 rest
  | c :: rest => if isLineBreak c then (current + 1) :: lineLengths 0 rest else lineLengths (current + 1) rest

/-- The sum of some lengths. -/
def totalLength : List Nat → Nat
  | [] => 0
  | n :: rest => n + totalLength rest

/-- The line lengths of a text, breaks included. -/
structure Lines where
  lengths : List Nat
deriving DecidableEq, Repr, Inhabited

namespace Lines

/-- Cut a text into lines. -/
def ofText (text : String) : Lines := ⟨lineLengths 0 text.toList⟩

/-- Number of lines. -/
def count (f : Lines) : Nat := f.lengths.length

/-- Number of characters. -/
def size (f : Lines) : Nat := totalLength f.lengths

/-- Offset of the first character of a line. -/
def start (f : Lines) (line : Nat) : Nat := totalLength (f.lengths.take line)

/-- Offset of a position. The column may stand right after the line break. -/
def offsetOf (f : Lines) (p : Position) : Except PositionError Nat :=
  match f.lengths[p.line]? with
  | some n => if p.col ≤ n then pure (f.start p.line + p.col) else throw (.position p)
  | none => throw (.position p)

/-- The line that holds an offset and the column in it, given the lengths from `line` on. -/
def locate (line offset : Nat) : List Nat → Position
  | [] => ⟨line, offset⟩
  | [_] => ⟨line, offset⟩
  | n :: rest => if offset < n then ⟨line, offset⟩ else locate (line + 1) (offset - n) rest

/-- Position of an offset; the end of the text is the last one. -/
def positionOf (f : Lines) (offset : Nat) : Except PositionError Position :=
  if offset ≤ f.size then pure (locate 0 offset f.lengths) else throw (.offset offset)

/-- An anchor at an offset, at most the end of the text. -/
def anchorAt (f : Lines) (offset : Nat) : Anchor := ⟨min offset f.size⟩

/-- The offset of an anchor that still lies in the text. -/
def resolve? (f : Lines) (a : Anchor) : Option Nat := if a.offset ≤ f.size then some a.offset else none

end Lines

end Switchboard.Text
