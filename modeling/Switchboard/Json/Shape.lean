import Switchboard.Json.Writer
import Switchboard.Text.Quoted

/-!
# Expected shapes of JSON values

* `Fault`: why a value does not have the expected shape, with one wording per cause;
* `Shape`: a reader of values of one type;
* `Fields`: the fields of a record, from which `Fields.shape` reads an object or, in declaration order, an array.

An object is visited member by member, so the first faulty member is reported; a missing field is reported
after that, in declaration order. Members that no field names are ignored.
-/

namespace Switchboard.Json

/-! ## Faults -/

/-- Why a value was refused. -/
inductive Fault where
  /-- A value of another kind than expected. -/
  | wrongType (found : Json) (expected : String)
  /-- An integer outside the range of its type. -/
  | outOfRange (found : Int) (expected : String)
  /-- An object where exactly one member was expected. -/
  | notSingleton
  /-- A required field that is not there. -/
  | missing (field : String)
  /-- A field that is there twice. -/
  | repeated (field : String)
  /-- A name that no variant has. -/
  | unknownVariant (found : String) (variants : List String)
  /-- An array that ends before the fields of the record are filled. -/
  | tooShort (length : Nat) (record : String) (fields : Nat)
  /-- An array with elements left over. -/
  | tooLong (length : Nat)
  /-- Any other reason. -/
  | other (reason : String)
deriving Repr, BEq

namespace Fault

/-- A name between backquotes. -/
def tick (s : String) : String := "\x60" ++ s ++ "\x60"

/-- What a value is called in a fault. -/
def describe : Json → String
  | .null => "null"
  | .bool b => "boolean " ++ tick (if b then "true" else "false")
  | .num (.int i) => "integer " ++ tick (toString i)
  | .num (.double d) => "floating point " ++ tick d.text
  | .str s => "string " ++ Text.quoted s
  | .arr _ => "sequence"
  | .obj _ => "map"

/-- The names of the variants as a fault lists them. -/
def oneOf : List String → String
  | [] => "there are no variants"
  | [a] => "expected " ++ tick a
  | [a, b] => "expected " ++ tick a ++ " or " ++ tick b
  | names => "expected one of " ++ ", ".intercalate (names.map tick)

/-- The wording of a fault. -/
def message : Fault → String
  | wrongType found expected => "invalid type: " ++ describe found ++ ", expected " ++ expected
  | outOfRange found expected =>
    "invalid value: integer " ++ tick (toString found) ++ ", expected " ++ expected
  | notSingleton => "invalid value: map, expected map with a single key"
  | missing field => "missing field " ++ tick field
  | repeated field => "duplicate field " ++ tick field
  | unknownVariant found variants => "unknown variant " ++ tick found ++ ", " ++ oneOf variants
  | tooShort length record fields =>
    "invalid length " ++ toString length ++ ", expected struct " ++ record ++ " with " ++ toString fields
      ++ (if fields = 1 then " element" else " elements")
  | tooLong length => "invalid length " ++ toString length ++ ", expected fewer elements in array"
  | other reason => reason

end Fault

/-- A reader of values of one type. -/
abbrev Shape (α : Type) := Json → Except Fault α

namespace Shape

/-! ## Plain values -/

/-- Any value as it is. -/
def any : Shape Json := pure

/-- Text. -/
def string : Shape String
  | .str s => pure s
  | v => throw (.wrongType v "a string")

/-- Text that names a file. -/
def path : Shape String
  | .str s => pure s
  | v => throw (.wrongType v "path string")

/-- A truth value. -/
def bool : Shape Bool
  | .bool b => pure b
  | v => throw (.wrongType v "a boolean")

/-- An integer from `low` to `high`. -/
def integer (type : String) (low high : Int) : Shape Int
  | .num (.int i) => if low ≤ i ∧ i ≤ high then pure i else throw (.outOfRange i type)
  | v => throw (.wrongType v type)

/-- A 64-bit signed integer. -/
def i64 : Shape Int := integer "i64" (-0x8000000000000000) 0x7FFFFFFFFFFFFFFF

/-- A 32-bit signed integer. -/
def i32 : Shape Int := integer "i32" (-0x80000000) 0x7FFFFFFF

/-- A 64-bit unsigned integer. -/
def u64 : Shape Nat := fun v => Int.toNat <$> integer "u64" 0 0xFFFFFFFFFFFFFFFF v

/-- A 32-bit unsigned integer. -/
def u32 : Shape Nat := fun v => Int.toNat <$> integer "u32" 0 0xFFFFFFFF v

/-- An 8-bit unsigned integer. -/
def u8 : Shape Nat := fun v => Int.toNat <$> integer "u8" 0 0xFF v

/-- A size or index. -/
def usize : Shape Nat := fun v => Int.toNat <$> integer "usize" 0 0xFFFFFFFFFFFFFFFF v

/-- A value or `null`. -/
def nullable {α : Type} (shape : Shape α) : Shape (Option α)
  | .null => pure none
  | v => some <$> shape v

/-- An array. -/
def list {α : Type} (shape : Shape α) : Shape (List α)
  | .arr items => items.mapM shape
  | v => throw (.wrongType v "a sequence")

/-- An object with free keys, in member order. -/
def entries {κ α : Type} (key : String → Except Fault κ) (shape : Shape α) : Shape (List (κ × α))
  | .obj members => members.mapM fun m => do return (← key m.1, ← shape m.2)
  | v => throw (.wrongType v "a map")

/-- One of several names. -/
def variantName {α : Type} (variants : List (String × α)) (name : String) : Except Fault α :=
  match variants.lookup name with
  | some a => pure a
  | none => throw (.unknownVariant name (variants.map (·.1)))

/-- A variant without content: its name, or an object with its name over `null`. -/
def variant {α : Type} (variants : List (String × α)) : Shape α
  | .str name => variantName variants name
  | .obj [(name, content)] => do
    let a ← variantName variants name
    match content with
    | .null => pure a
    | v => throw (.wrongType v "unit")
  | .obj _ => throw .notSingleton
  | v => throw (.wrongType v "string or map")

end Shape

/-! ## Records -/

/-- One field: its name, what its value has to be, and whether an array may end before it. -/
structure Field where
  name : String
  check : Json → Except Fault Unit
  optional : Bool

/-- Fields in declaration order and how a record is built from those that are there. -/
structure Fields (α : Type) where
  fields : List Field
  build : (String → Option Json) → Except Fault α

namespace Fields

instance : Functor Fields where
  map f r := ⟨r.fields, fun get => f <$> r.build get⟩

instance : Pure Fields where
  pure a := ⟨[], fun _ => pure a⟩

instance : Seq Fields where
  seq f r := ⟨f.fields ++ (r ()).fields, fun get => do
    let g ← f.build get
    let a ← (r ()).build get
    return g a⟩

/-- A field that has to be there. -/
def field {α : Type} (name : String) (shape : Shape α) : Fields α where
  fields := [⟨name, fun v => do let _ ← shape v, false⟩]
  build get :=
    match get name with
    | some v => shape v
    | none => throw (.missing name)

/-- A field with a value for when it is not there. -/
def fieldD {α : Type} (name : String) (shape : Shape α) (default : α) : Fields α where
  fields := [⟨name, fun v => do let _ ← shape v, true⟩]
  build get :=
    match get name with
    | some v => shape v
    | none => pure default

/-- A field that may be absent or `null`; an array has to reach it. -/
def field? {α : Type} (name : String) (shape : Shape α) : Fields (Option α) where
  fields := [⟨name, fun v => do let _ ← Shape.nullable shape v, false⟩]
  build get :=
    match get name with
    | some v => Shape.nullable shape v
    | none => pure none

/-- A field that may be absent or `null`, also past the end of an array. -/
def fieldD? {α : Type} (name : String) (shape : Shape α) : Fields (Option α) :=
  fieldD name (Shape.nullable shape) none

/-- Visit the members of an object: each known field once, its value checked. -/
def visit (fields : List Field) : List (String × Json) → List String → Except Fault Unit
  | [], _ => pure ()
  | (key, v) :: rest, seen =>
    match fields.find? (·.name == key) with
    | none => visit fields rest seen
    | some f =>
      if seen.contains key then throw (.repeated key)
      else do
        f.check v
        visit fields rest (key :: seen)

/-- Read a record from the members of an object. -/
def ofMembers {α : Type} (r : Fields α) (members : List (String × Json)) : Except Fault α := do
  visit r.fields members []
  r.build (members.lookup ·)

/-- Pair array elements with fields, checking each. -/
def place (name : String) (count : Nat) : List Field → Nat → List Json → Except Fault (List (String × Json))
  | [], _, _ => pure []
  | f :: fs, i, [] => if f.optional then place name count fs i [] else throw (.tooShort i name count)
  | f :: fs, i, v :: vs => do
    f.check v
    let rest ← place name count fs (i + 1) vs
    return (f.name, v) :: rest

/-- Read a record from array elements in declaration order. -/
def ofItems {α : Type} (name : String) (r : Fields α) (items : List Json) : Except Fault α := do
  let members ← place name r.fields.length r.fields 0 items
  if r.fields.length < items.length then throw (.tooLong items.length)
  r.build (members.lookup ·)

/-- A record as an object or as an array of its fields. -/
def shape {α : Type} (name : String) (r : Fields α) : Shape α
  | .obj members => r.ofMembers members
  | .arr items => r.ofItems name items
  | v => throw (.wrongType v ("struct " ++ name))

/-- A record as an object only. -/
def mapShape {α : Type} (name : String) (r : Fields α) : Shape α
  | .obj members => r.ofMembers members
  | v => throw (.wrongType v ("struct " ++ name))

end Fields

end Switchboard.Json
