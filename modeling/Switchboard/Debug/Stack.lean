import Switchboard.Channel.Features
import Switchboard.Debug.Messages
import Switchboard.Sources

/-!
# Stack frames, scopes and variables

* `Frame`, `Scope`, `Variable` under `Stack`: what an editor sees of a suspended thread;
* `Rules`: which scopes are local or static and which types are primitive or text, per language;
* `Stack.Frame.ofMessage`, `Rules.scope`, `Rules.variable`: what an adapter's answer means.
-/

namespace Switchboard.Debug

/-- What a variable holds, as far as an editor cares. -/
inductive Stack.Kind where
  | primitive
  | text
  | array
  | object
  /-- A scope that stands for variables not fetched yet. -/
  | placeholder
deriving DecidableEq, Repr, Inhabited

/-- What kind of variables a scope holds. -/
inductive Stack.ScopeClass where
  | local_
  | static_
  | other
deriving DecidableEq, Repr, Inhabited

namespace Stack

/-- The name of a kind. -/
def Kind.name : Kind → String
  | primitive => "PRIMITIVE"
  | text => "STRING"
  | array => "ARRAY"
  | object => "OBJECT"
  | placeholder => "SCOPE_PLACEHOLDER"

/-- The name of a class. -/
def ScopeClass.name : ScopeClass → String
  | local_ => "local"
  | static_ => "static"
  | other => "other"

/-- A variable. -/
structure Variable where
  name : String
  value : String
  declaredType : Option String := none
  /-- What evaluates to the variable. -/
  expression : Option String := none
  /-- Under which its children are found; zero for leaves. -/
  reference : Int
  kind : Kind
  isLocal : Bool
  isStatic : Bool
deriving DecidableEq, Repr, Inhabited

/-- A scope. -/
structure Scope where
  name : String
  class_ : ScopeClass
  reference : Int
  /-- Its variables are fetched only when asked for. -/
  delayable : Bool
  expensive : Bool
deriving DecidableEq, Repr, Inhabited

/-- A frame. -/
structure Frame where
  /-- Position in the stack; zero is innermost. -/
  index : Nat
  /-- The adapter's number. -/
  id : Int
  name : String
  path : Option Path := none
  /-- Line and column count from one. -/
  line : Option Nat := none
  column : Option Nat := none
  /-- Offset in the file, when that could be opened. -/
  offset : Option Nat := none
  /-- A label of the adapter and no real code. -/
  synthetic : Bool
  scopes : Option (List Scope) := none
  contents : Option (List Variable) := none
deriving DecidableEq, Repr, Inhabited

/-- The single variable that stands for a scope. -/
def Scope.placeholder (s : Scope) : Variable where
  name := s.name
  value := ""
  reference := s.reference
  kind := .placeholder
  isLocal := s.class_ = .local_
  isStatic := s.class_ = .static_

/-! ## JSON -/

/-- A variable as JSON. -/
def Variable.toJson (v : Variable) : Json :=
  .record [("name", some v.name), ("value", some v.value), ("declared_type", v.declaredType.map .str),
    ("expression", v.expression.map .str), ("reference", some (.int v.reference)),
    ("kind", some v.kind.name), ("is_local", some v.isLocal), ("is_static", some v.isStatic)]

/-- A scope as JSON. -/
def Scope.toJson (s : Scope) : Json :=
  .obj [("name", s.name), ("class", s.class_.name), ("reference", .int s.reference),
    ("delayable", s.delayable), ("expensive", s.expensive)]

/-- A frame as JSON. -/
def Frame.toJson (f : Frame) : Json :=
  .record [("index", some (.nat f.index)), ("id", some (.int f.id)), ("name", some f.name),
    ("path", f.path.map fun p => .str p.text), ("line", f.line.map .nat), ("column", f.column.map .nat),
    ("offset", f.offset.map .nat), ("synthetic", some f.synthetic),
    ("scopes", f.scopes.map fun l => .arr (l.map Scope.toJson)),
    ("variables", f.contents.map fun l => .arr (l.map Variable.toJson))]

/-! ## Frames -/

/-- What an adapter's frame means; without a path or with line zero it has no place. -/
def Frame.ofMessage (index : Nat) (m : StackFrame) : Frame :=
  let path := m.source.bind (·.path)
  let placed := path.isSome && 0 < m.line
  { index
    id := m.id
    name := m.name
    path := path.map Path.mk
    line := if placed then some m.line else none
    column := if placed && 0 < m.column then some m.column else none
    synthetic := m.presentationHint = some "label" }

/-- Fill in the offset, if the file has that place. -/
def Frame.locate (f : Frame) (sources : Sources) (d : Disk) (project : String) : Frame :=
  match f.path, f.line with
  | some path, some line =>
    match sources.offsetIn d project path (.ofOneBased line (f.column.getD 1)) with
    | .ok n => { f with offset := some n }
    | .error _ => f
  | _, _ => f

end Stack

/-! ## Rules -/

/-- Which scopes and types mean what, for one language. -/
structure Rules where
  localScopes : List String
  staticScopes : List String
  primitiveTypes : List String
  textTypes : List String
deriving DecidableEq, Repr, Inhabited

namespace Rules

/-- The rules that a language entry declares, with defaults for those it does not. -/
def ofFeatures (f : Features) : Rules where
  localScopes := f.getStrings "debug.scopes.local" ["Locals", "Local", "Arguments"]
  staticScopes := f.getStrings "debug.scopes.static" ["Statics", "Static", "Globals"]
  primitiveTypes := f.getStrings "debug.types.primitive"
    ["bool", "boolean", "byte", "char", "short", "int", "long", "float", "double", "i8", "i16", "i32", "i64",
      "u8", "u16", "u32", "u64", "usize", "isize", "f32", "f64"]
  textTypes := f.getStrings "debug.types.string" ["String", "string", "str", "&str", "java.lang.String"]

/-- The class of a scope, by its name in letters of either case. -/
def classOf (r : Rules) (name : String) : Stack.ScopeClass :=
  let name := Text.trim name
  if r.localScopes.any (Text.sameLetters · name) then .local_
  else if r.staticScopes.any (Text.sameLetters · name) then .static_
  else .other

/-- What an adapter's scope means; all but local ones are delayed. -/
def scope (r : Rules) (m : Debug.Scope) : Stack.Scope :=
  let c := r.classOf m.name
  { name := m.name, class_ := c, reference := m.variablesReference, delayable := c ≠ .local_
    expensive := m.expensive }

/-- The kind of a variable: by its type, or by its children if it has none. -/
def kindOf (r : Rules) (m : Debug.Variable) : Stack.Kind :=
  match (m.type.map Text.trim).filter (· ≠ "") with
  | some type =>
    if r.primitiveTypes.contains type then .primitive
    else if r.textTypes.contains type then .text
    else .object
  | none =>
    if 0 < m.indexedVariables.getD 0 then .array
    else if 0 < m.namedVariables.getD 0 ∨ m.variablesReference ≠ 0 then .object
    else .primitive

/-- What an adapter's variable means in a scope. -/
def variable_ (r : Rules) (m : Debug.Variable) (c : Stack.ScopeClass) : Stack.Variable where
  name := m.name
  value := m.value
  declaredType := m.type
  expression := m.evaluateName
  reference := m.variablesReference
  kind := r.kindOf m
  isLocal := c = .local_
  isStatic := c = .static_

end Rules

end Switchboard.Debug
