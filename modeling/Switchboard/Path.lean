import Switchboard.Text.Blank

/-!
# File paths

* `Path`: a path as it was written;
* `Path.components`: what two spellings of one path have in common, and what paths are compared by;
* `Path.join`, `Path.parent?`, `Path.fileName?`, `Path.extension?`, `Path.ancestors`.

Repeated, inner and trailing slashes and inner `.` components do not count; a leading `.` does, and `..` is
an ordinary component.
-/

namespace Switchboard

/-- A path as it was written. -/
structure Path where
  text : String
deriving DecidableEq, Repr, Inhabited

namespace Path

/-- One step of a path. -/
inductive Component where
  | root
  | here
  | up
  | name (text : String)
deriving DecidableEq, Repr, Inhabited

instance : ToString Path := ⟨Path.text⟩

/-- Does the path start at the root? -/
def isAbsolute (p : Path) : Bool := p.text.toList.head? = some '/'

/-- The pieces between slashes. -/
def pieces (p : Path) : List String := Text.splitOnAny (· = '/') p.text

/-- The component of an inner piece, if it counts. -/
def Component.ofPiece? (piece : String) : Option Component :=
  if piece = "" ∨ piece = "." then none
  else if piece = ".." then some .up
  else some (.name piece)

/-- The steps that count. -/
def components (p : Path) : List Component :=
  match p.pieces with
  | "" :: rest =>
    if p.isAbsolute then .root :: rest.filterMap Component.ofPiece? else rest.filterMap Component.ofPiece?
  | "." :: rest => .here :: rest.filterMap Component.ofPiece?
  | all => all.filterMap Component.ofPiece?

/-- Two spellings of the same path. -/
def same (p q : Path) : Bool := p.components = q.components

/-- The rank of a component among those of different kinds. -/
def Component.rank : Component → Nat
  | root => 0
  | here => 1
  | up => 2
  | name _ => 3

/-- Order of components. -/
def Component.lt : Component → Component → Bool
  | name a, name b => a < b
  | a, b => a.rank < b.rank

/-- Lexicographic order of component lists. -/
def componentsLt : List Component → List Component → Bool
  | _, [] => false
  | [], _ :: _ => true
  | a :: as, b :: bs => if a = b then componentsLt as bs else a.lt b

/-- Order of paths. -/
def lt (p q : Path) : Bool := componentsLt p.components q.components

/-- The path `q` seen from `p`: an absolute `q` stands alone, else one slash parts them. -/
def join (p q : Path) : Path :=
  if q.isAbsolute then q
  else if p.text = "" ∨ p.text.toList.getLast? = some '/' then ⟨p.text ++ q.text⟩
  else ⟨p.text ++ "/" ++ q.text⟩

/-! ## Last component -/

/-- Characters after the last piece that counts, dropped from the reversed text. -/
def dropTail : Nat → List Char → List Char
  | 0, cs => cs
  | fuel + 1, cs =>
    match cs with
    | ['/'] => ['/']
    | '/' :: rest => dropTail fuel rest
    | ['.', '/'] => ['/']
    | '.' :: '/' :: rest => dropTail fuel ('/' :: rest)
    | cs => cs

/-- The text without trailing slashes and `.` pieces. -/
def trimmed (text : String) : String := String.ofList (dropTail text.length text.toList.reverse).reverse

/-- The last component, if it is a name. -/
def fileName? (p : Path) : Option String :=
  match p.components.getLast? with
  | some (.name n) => some n
  | _ => none

/-- The path without its last component; none for the root and the empty path. -/
def parent? (p : Path) : Option Path :=
  match p.components.getLast? with
  | none => none
  | some .root => none
  | some _ =>
    let upTo := ((trimmed p.text).toList.reverse.dropWhile (· ≠ '/')).reverse
    some ⟨trimmed (String.ofList upTo)⟩

/-- The path, its parent, and so on. -/
def ancestorsFrom : Nat → Path → List Path
  | 0, p => [p]
  | fuel + 1, p =>
    match p.parent? with
    | some q => p :: ancestorsFrom fuel q
    | none => [p]

/-- The path, its parent, and so on. -/
def ancestors (p : Path) : List Path := ancestorsFrom p.text.length p

/-- What follows the last dot of the file name, unless the name only starts with it. -/
def extension? (p : Path) : Option String := do
  let name ← p.fileName?
  let reversed := name.toList.reverse
  match reversed.dropWhile (· ≠ '.') with
  | [] => none
  | [_] => none
  | _ :: _ => some (String.ofList (reversed.takeWhile (· ≠ '.')).reverse)

end Path

end Switchboard
