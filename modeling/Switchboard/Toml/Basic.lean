import Switchboard.Json.Shape

/-!
# TOML values

* `Toml`: values of the configuration format, tables with sorted keys;
* `Toml.toJson`, `Toml.ofJson`: their JSON form, in which a date is a record with one marked member;
* `Toml.marked`, `Toml.textual`: values without dates;
* `Toml.overlay`: one value laid over another, tables key by key.
-/

namespace Switchboard

/-- A TOML value. Dates keep their normal text. -/
inductive Toml where
  | str (value : String)
  | int (value : Int)
  | float (value : Double)
  | bool (value : Bool)
  | datetime (text : String)
  | arr (items : List Toml)
  | table (entries : List (String × Toml))
deriving BEq, Repr, Inhabited

namespace Toml

/-- The member that marks a date in JSON. -/
def dateKey : String := "$__toml_private_datetime"

/-- Put an entry into a sorted list, over an equal key. -/
def insertEntry (key : String) (value : Toml) : List (String × Toml) → List (String × Toml)
  | [] => [(key, value)]
  | (k, v) :: rest =>
    if key < k then (key, value) :: (k, v) :: rest
    else if key = k then (key, value) :: rest
    else (k, v) :: insertEntry key value rest

mutual

/-- The JSON form; numbers that are not finite keep their bits. -/
def toJson : Toml → Json
  | str s => .str s
  | int i => .int i
  | float d => .num (.double d)
  | bool b => .bool b
  | datetime t => .obj [(dateKey, .str t)]
  | arr items => .arr (itemsToJson items)
  | table entries => .obj (entriesToJson entries)

/-- The JSON forms of elements. -/
def itemsToJson : List Toml → List Json
  | [] => []
  | v :: rest => v.toJson :: itemsToJson rest

/-- The JSON forms of entries. -/
def entriesToJson : List (String × Toml) → List (String × Json)
  | [] => []
  | (k, v) :: rest => (k, v.toJson) :: entriesToJson rest

end

mutual

/-- Read the JSON form. There is no `null`, and integers have 64 signed bits. -/
def ofJson : Json → Except Json.Fault Toml
  | .null => throw (.wrongType .null "any valid TOML value")
  | .bool b => pure (.bool b)
  | .num (.int i) =>
    if -0x8000000000000000 ≤ i ∧ i < 0x8000000000000000 then pure (.int i) else throw (.other "u64 value was too large")
  | .num (.double d) => pure (.float d)
  | .str s => pure (.str s)
  | .arr items => do return .arr (← itemsOfJson items)
  | .obj ((key, v) :: rest) =>
    if key = dateKey then
      match v, rest with
      | .str text, [] => pure (.datetime text)
      | v, [] => throw (.wrongType v "a string")
      | _, rest => throw (.tooLong (rest.length + 1))
    else do return .table (insertEntry key (← ofJson v) (← entriesOfJson rest))
  | .obj [] => pure (.table [])

/-- Read the JSON forms of elements. -/
def itemsOfJson : List Json → Except Json.Fault (List Toml)
  | [] => pure []
  | v :: rest => do return (← ofJson v) :: (← itemsOfJson rest)

/-- Read the JSON forms of entries. -/
def entriesOfJson : List (String × Json) → Except Json.Fault (List (String × Toml))
  | [] => pure []
  | (k, v) :: rest => do return insertEntry k (← ofJson v) (← entriesOfJson rest)

end

/-- The entries of a table. -/
def tableShape : Json.Shape (List (String × Toml))
  | .obj members => entriesOfJson members
  | v => throw (.wrongType v "a map")

mutual

/-- Numbers that are not finite become `null`. -/
def finite : Json → Json
  | .num (.double d) => if d.isFinite then .num (.double d) else .null
  | .arr items => .arr (finiteItems items)
  | .obj members => .obj (finiteMembers members)
  | v => v

/-- `finite` of elements. -/
def finiteItems : List Json → List Json
  | [] => []
  | v :: rest => finite v :: finiteItems rest

/-- `finite` of members. -/
def finiteMembers : List (String × Json) → List (String × Json)
  | [] => []
  | (k, v) :: rest => (k, finite v) :: finiteMembers rest

end

/-- The value as JSON text can hold it. -/
def plainJson (v : Toml) : Json := finite v.toJson

/-! ## Dates -/

mutual

/-- The value with something else in place of its dates. -/
def mapDates (f : String → Toml) : Toml → Toml
  | datetime t => f t
  | arr items => arr (itemsMapDates f items)
  | table entries => table (entriesMapDates f entries)
  | v => v

/-- `mapDates` of elements. -/
def itemsMapDates (f : String → Toml) : List Toml → List Toml
  | [] => []
  | v :: rest => mapDates f v :: itemsMapDates f rest

/-- `mapDates` of entries. -/
def entriesMapDates (f : String → Toml) : List (String × Toml) → List (String × Toml)
  | [] => []
  | (k, v) :: rest => (k, mapDates f v) :: entriesMapDates f rest

end

/-- Dates as tables with one marked member, as they are when settings are written as a value. -/
def marked : Toml → Toml := mapDates fun t => table [(dateKey, str t)]

/-- Dates as their texts, as they are when settings are read from a value. -/
def textual : Toml → Toml := mapDates str

/-! ## Layers -/

mutual

/-- `top` laid over a value: tables key by key, anything else in place of what was there. -/
def overlay (base : Toml) (top : Toml) : Toml :=
  match base, top with
  | table b, table o => table (overlayEntries b o)
  | _, o => o
termination_by sizeOf top

/-- Entries laid over entries. -/
def overlayEntries (base : List (String × Toml)) (top : List (String × Toml)) : List (String × Toml) :=
  match top with
  | [] => base
  | (k, v) :: rest =>
    let merged := match base.lookup k with
      | some old => overlay old v
      | none => v
    overlayEntries (insertEntry k merged base) rest
termination_by sizeOf top

end

end Toml

end Switchboard
