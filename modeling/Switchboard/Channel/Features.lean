import Switchboard.Json.Basic
import Switchboard.Text.Blank

/-!
# Feature maps

What a language entry declares and what a peer advertises, looked up by dotted path such as
`debug.scopes.local`. A lookup brings its own default, so a missing or mistyped key is never an error.
-/

namespace Switchboard

/-- Nested features; the members of the outermost object. -/
structure Features where
  root : List (String × Json) := []
deriving BEq, Repr, Inhabited

namespace Features

/-- The features in an object; any other value has none. -/
def ofJson : Json → Features
  | .obj members => ⟨members⟩
  | _ => {}

/-- The keys along a dotted path. -/
def keys (path : String) : List String := Text.splitOnAny (· = '.') path

/-- Store a value below an object, with objects made along the way over anything else. -/
def insertAt (value : Json) : List String → List (String × Json) → List (String × Json)
  | [], members => members
  | [last], members => Json.insertMember last value members
  | key :: rest, members =>
    let inner := match members.lookup key with
      | some (.obj inner) => inner
      | _ => []
    Json.insertMember key (.obj (insertAt value rest inner)) members

/-- Store a value at a dotted path. -/
def insert (f : Features) (path : String) (value : Json) : Features := ⟨insertAt value (keys path) f.root⟩

/-- The value below an object. -/
def lookupAt : List String → Json → Option Json
  | [], v => some v
  | key :: rest, v => (v.get? key).bind (lookupAt rest)

/-- The value at a dotted path. -/
def lookup (f : Features) (path : String) : Option Json := lookupAt (keys path) (.obj f.root)

/-- The truth value at a path. -/
def getBool (f : Features) (path : String) (default : Bool) : Bool :=
  ((f.lookup path).bind Json.asBool?).getD default

/-- The text at a path. -/
def getStr (f : Features) (path : String) (default : String) : String :=
  ((f.lookup path).bind Json.asStr?).getD default

/-- The list of texts at a path; a list with anything else in it does not count. -/
def getStrings (f : Features) (path : String) (default : List String) : List String :=
  (((f.lookup path).bind Json.asArr?).bind fun items => items.mapM Json.asStr?).getD default

end Features

end Switchboard
