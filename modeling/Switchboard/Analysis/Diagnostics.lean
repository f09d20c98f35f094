import Switchboard.Json.Shape
import Switchboard.Path
import Switchboard.Text.Lines

/-!
# Diagnostics of documents

* `Diagnostic`: a remark of an analysis server on a range of a document;
* `Diagnostics`: the current remarks of every document of one workspace;
* `Diagnostics.publish`, `publishParams`: a server replaces the remarks of a document, and the editor is told.

Remarks of an unexpected form are skipped; the others of the same document are kept.
-/

namespace Switchboard.Analysis

open Json (Shape Fields)

/-- Line and character count from zero; characters are UTF-16 units. -/
structure Position where
  line : Nat
  character : Nat
deriving DecidableEq, Repr, Inhabited

namespace Position

/-- Numbers have 32 bits. -/
def limit : Nat := 0x100000000

/-- A place in a file; the numbers are cut to their width. -/
def ofText (p : Text.Position) : Position := ⟨p.line % limit, p.col % limit⟩

/-- The same numbers as a place in a file. -/
def toText (p : Position) : Text.Position := ⟨p.line, p.character⟩

/-- A position as JSON. -/
def toJson (p : Position) : Json := .obj [("line", .nat p.line), ("character", .nat p.character)]

/-- Read a position. -/
def shape : Shape Position :=
  (Position.mk <$> Fields.field "line" Shape.u32 <*> Fields.field "character" Shape.u32).shape "LspPosition"

end Position

/-- From `start` up to, and without, `stop`. -/
structure Range where
  start : Position
  stop : Position
deriving DecidableEq, Repr, Inhabited

namespace Range

/-- A range as JSON. -/
def toJson (r : Range) : Json := .obj [("start", r.start.toJson), ("end", r.stop.toJson)]

/-- Read a range. -/
def shape : Shape Range :=
  (Range.mk <$> Fields.field "start" Position.shape <*> Fields.field "end" Position.shape).shape "LspRange"

end Range

/-- How serious a remark is. -/
inductive Severity where
  | error
  | warning
  | information
  | hint
deriving DecidableEq, Repr, Inhabited

namespace Severity

/-- The number of a severity. -/
def number : Severity → Nat
  | error => 1
  | warning => 2
  | information => 3
  | hint => 4

/-- Every severity. -/
def all : List Severity := [error, warning, information, hint]

/-- Read a severity by its number. -/
def shape : Shape Severity := fun v => do
  let n ← Shape.u8 v
  match all.find? (·.number = n) with
  | some s => return s
  | none => throw (.other ("invalid diagnostic severity " ++ toString n))

end Severity

/-- A remark of an analysis server. -/
structure Diagnostic where
  range : Range
  severity : Option Severity := none
  message : String
  /-- Who remarks. -/
  source : Option String := none
  /-- A text or a number. -/
  code : Option Json := none
deriving BEq, Repr, Inhabited

namespace Diagnostic

/-- A remark as JSON. -/
def toJson (d : Diagnostic) : Json :=
  .record [("range", some d.range.toJson), ("severity", d.severity.map fun s => .nat s.number),
    ("message", some d.message), ("source", d.source.map .str), ("code", d.code)]

/-- The fields of a remark. -/
def fields : Fields Diagnostic :=
  Diagnostic.mk <$> .field "range" Range.shape <*> .fieldD? "severity" Severity.shape
    <*> .field "message" Shape.string <*> .fieldD? "source" Shape.string <*> .fieldD? "code" Shape.any

/-- Read a remark. -/
def shape : Shape Diagnostic := fields.shape "Diagnostic"

/-- Read the remarks that have the form of one. -/
def readAll (items : List Json) : List Diagnostic :=
  items.filterMap fun v => match shape v with
    | .ok d => some d
    | .error _ => none

end Diagnostic

/-- What an editor is told when the remarks on a document change. -/
structure Diagnostics.Note where
  language : String
  workspace : Path
  uri : String
  /-- Empty when the document has none any more. -/
  diagnostics : List Diagnostic
deriving BEq, Repr, Inhabited

/-- A note as JSON. -/
def Diagnostics.Note.toJson (n : Note) : Json :=
  .obj [("language", n.language), ("workspace", n.workspace.text), ("uri", n.uri),
    ("diagnostics", .arr (n.diagnostics.map Diagnostic.toJson))]

/-- The current remarks of one workspace, by document. -/
structure Diagnostics where
  language : String
  workspace : Path
  documents : List (String × List Diagnostic) := []
deriving BEq, Repr, Inhabited

namespace Diagnostics

/-- The remarks on a document. -/
def get (s : Diagnostics) (uri : String) : List Diagnostic := (s.documents.lookup uri).getD []

/-- Replace the remarks on a document. -/
def publish (s : Diagnostics) (uri : String) (l : List Diagnostic) : Diagnostics × Note :=
  let others := s.documents.filter (·.1 ≠ uri)
  ({ s with documents := if l.isEmpty then others else (uri, l) :: others }, ⟨s.language, s.workspace, uri, l⟩)

/-- Apply what a server published; without a document or a list there is nothing to apply. -/
def publishParams (s : Diagnostics) (params : Json) : Option (Diagnostics × Note) := do
  let uri ← (params.get? "uri").bind Json.asStr?
  let items ← (params.get? "diagnostics").bind Json.asArr?
  return s.publish uri (Diagnostic.readAll items)

end Diagnostics

end Switchboard.Analysis
