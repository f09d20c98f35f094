import Switchboard.Debug.Fault
import Switchboard.Debug.Template

/-!
# Launch configurations

* `Launch`: a named recipe for starting a debuggee;
* `Launch.Attribute`, `Launch.Mode`: what a recipe may carry, and whether it starts or attaches;
* `Launch.vars`: the template values of a recipe;
* `Launch.shape`, `Launch.toJson`: the JSON form, in which `saved` takes no part.
-/

namespace Switchboard.Debug

open Json (Shape Fields)

/-- The attributes that a recipe may carry. -/
inductive Launch.Attribute where
  | workingDirectory
  | program
  | mainClass
  | programArguments
  | vmArguments
  | toolArguments
  /-- `KEY=VALUE` pairs parted by line feeds or `;`. -/
  | environment
  | port
  | processId
  | stopOnEntry
deriving DecidableEq, Repr, Inhabited

namespace Launch

namespace Attribute

/-- Every attribute, in their order. -/
def all : List Attribute :=
  [workingDirectory, program, mainClass, programArguments, vmArguments, toolArguments, environment, port,
    processId, stopOnEntry]

/-- The name of an attribute, also its template token. -/
def name : Attribute → String
  | workingDirectory => "workingDirectory"
  | program => "program"
  | mainClass => "mainClass"
  | programArguments => "programArguments"
  | vmArguments => "vmArguments"
  | toolArguments => "toolArguments"
  | environment => "environment"
  | port => "port"
  | processId => "processId"
  | stopOnEntry => "stopOnEntry"

/-- Position in their order. -/
def rank (a : Attribute) : Nat := all.idxOf a

/-- The attribute of a name, in letters of either case. -/
def ofName (s : String) : Except Fault Attribute :=
  match all.find? fun a => Text.sameLetters a.name s with
  | some a => pure a
  | none => throw (.unknownAttribute s)

/-- Every attribute by its exact name. -/
def byName : List (String × Attribute) := all.map fun a => (a.name, a)

/-- The pairs of an environment text. -/
def environmentPairs (raw : String) : List (String × Json) :=
  (Text.splitOnAny (fun c => c = '\n' || c = ';') raw).filterMap fun pair => do
    let (key, value) ← Text.cutAt '=' pair
    if Text.trim key = "" then none else some (Text.trim key, Json.str (Text.trim value))

/-- The template value of an attribute text. -/
def value (a : Attribute) (raw : String) : Json :=
  match a with
  | port | processId =>
    match Text.int64? (Text.trim raw) with
    | some i => .int i
    | none => .str raw
  | stopOnEntry => .bool (Text.lower (Text.trim raw) ∈ ["true", "1", "yes"])
  | environment => .obj (Json.sortMembers (environmentPairs raw))
  | _ => .str raw

end Attribute

/-- Start a process or attach to one. -/
inductive Mode where
  | launch
  | attach
deriving DecidableEq, Repr, Inhabited

namespace Mode

/-- The name of a mode, also the request that is sent. -/
def name : Mode → String
  | launch => "launch"
  | attach => "attach"

/-- Both modes by name. -/
def byName : List (String × Mode) := [("launch", launch), ("attach", attach)]

/-- The mode of a name, in letters of either case. -/
def ofName (s : String) : Except Fault Mode :=
  match byName.lookup (Text.lower s) with
  | some m => pure m
  | none => throw (.unknownMode s)

/-- Read a mode by its exact name. -/
def shape : Shape Mode := Shape.variant byName

end Mode

end Launch

/-- A recipe for starting a debuggee. -/
structure Launch where
  id : Nat
  name : String
  /-- The language whose adapter is used. -/
  language : String
  /-- A tag of the editor's. -/
  type : String := ""
  mode : Launch.Mode := .launch
  project : String
  /-- Attributes in their order, each at most once. -/
  attributes : List (Launch.Attribute × String) := []
  /-- Kept on disk. -/
  saved : Bool := false
deriving DecidableEq, Repr, Inhabited

namespace Launch

/-- The text of an attribute. -/
def attribute? (l : Launch) (a : Attribute) : Option String := l.attributes.lookup a

/-- Put an attribute into an ordered list, over an equal one. -/
def insertAttribute (a : Attribute) (v : String) : List (Attribute × String) → List (Attribute × String)
  | [] => [(a, v)]
  | (b, w) :: rest =>
    if a.rank < b.rank then (a, v) :: (b, w) :: rest
    else if a = b then (a, v) :: rest
    else (b, w) :: insertAttribute a v rest

/-- Attributes in their order; of equal ones the last is kept. -/
def sortAttributes (l : List (Attribute × String)) : List (Attribute × String) :=
  l.foldl (fun acc x => insertAttribute x.1 x.2 acc) []

/-- Set an attribute, or remove it with an empty text. -/
def setAttribute (l : Launch) (a : Attribute) (v : String) : Launch :=
  if v = "" then { l with attributes := l.attributes.filter (·.1 ≠ a) }
  else { l with attributes := insertAttribute a v l.attributes }

/-- The template values of a recipe. The working directory is the project root unless it is set. -/
def vars (l : Launch) (root : Option Path) : Template.Vars :=
  let base := Template.Vars.set (Template.Vars.set [] "project" (.str l.project)) "name" (.str l.name)
  let rooted := match root with
    | some r => Template.Vars.set (Template.Vars.set base "projectRoot" (.str r.text))
        Attribute.workingDirectory.name (.str r.text)
    | none => base
  let all := l.attributes.foldl (fun vs x => Template.Vars.set vs x.1.name (x.1.value x.2)) rooted
  match l.attribute? .programArguments with
  | some arguments => Template.Vars.set all "programArgumentList" (.arr ((Text.words arguments).map .str))
  | none => all

/-! ## JSON -/

/-- Attributes as JSON. -/
def attributesJson (l : List (Attribute × String)) : Json := .obj (l.map fun x => (x.1.name, .str x.2))

/-- Read attributes. -/
def attributesShape : Shape (List (Attribute × String)) := fun v =>
  sortAttributes <$> Shape.entries (Shape.variantName Attribute.byName) Shape.string v

/-- A recipe as JSON. -/
def toJson (l : Launch) : Json :=
  .obj [("id", .nat l.id), ("name", l.name), ("language", l.language), ("type", l.type),
    ("mode", l.mode.name), ("project", l.project), ("attributes", attributesJson l.attributes)]

/-- The fields of a recipe. -/
def fields : Fields Launch :=
  (fun id name language type mode project attributes =>
      { id, name, language, type, mode, project, attributes })
    <$> .field "id" Shape.u64 <*> .field "name" Shape.string <*> .field "language" Shape.string
    <*> .fieldD "type" Shape.string "" <*> .fieldD "mode" Mode.shape .launch
    <*> .field "project" Shape.string <*> .fieldD "attributes" attributesShape []

/-- Read a recipe. -/
def shape : Shape Launch := fields.shape "LaunchConfiguration"

end Launch

end Switchboard.Debug
