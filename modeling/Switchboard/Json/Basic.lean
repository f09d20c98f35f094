import Switchboard.Json.Double

/-!
# JSON values

* `Json`: values as they travel between the editor, the servers and the disk;
* `Json.canonical`: object keys sorted, of equal keys the last one kept;
* accessors that answer `none` on any other shape.

Members of an object keep the order in which they were written, so the same type also holds text with
repeated keys and records in declaration order.
-/

namespace Switchboard

/-- Integers are exact, every other number is a `Double`. -/
inductive Json.Number where
  | int (value : Int)
  | double (value : Double)
deriving DecidableEq, Repr, Inhabited

/-- A JSON value. -/
inductive Json where
  | null
  | bool (value : Bool)
  | num (value : Json.Number)
  | str (value : String)
  | arr (items : List Json)
  | obj (members : List (String × Json))
deriving BEq, Repr, Inhabited

namespace Json

/-- An integer value. -/
abbrev int (i : Int) : Json := .num (.int i)

/-- A natural number value. -/
abbrev nat (n : Nat) : Json := .num (.int n)

instance : Coe String Json := ⟨Json.str⟩
instance : Coe Bool Json := ⟨Json.bool⟩

/-! ## Accessors -/

/-- Member of an object. -/
def get? (v : Json) (key : String) : Option Json :=
  match v with
  | obj members => members.lookup key
  | _ => none

/-- The text of a string. -/
def asStr? : Json → Option String
  | str s => some s
  | _ => none

/-- The truth value of a boolean. -/
def asBool? : Json → Option Bool
  | bool b => some b
  | _ => none

/-- An integer that fits 64 signed bits. -/
def asInt64? : Json → Option Int
  | num (.int i) => if -0x8000000000000000 ≤ i ∧ i < 0x8000000000000000 then some i else none
  | _ => none

/-- The elements of an array. -/
def asArr? : Json → Option (List Json)
  | arr items => some items
  | _ => none

/-- The members of an object. -/
def asObj? : Json → Option (List (String × Json))
  | obj members => some members
  | _ => none

/-- Is this `null`? -/
def isNull : Json → Bool
  | null => true
  | _ => false

/-- Is this an object? -/
def isObj : Json → Bool
  | obj _ => true
  | _ => false

/-! ## Canonical objects -/

/-- Put a member into a sorted list, over an equal key. -/
def insertMember (key : String) (value : Json) : List (String × Json) → List (String × Json)
  | [] => [(key, value)]
  | (k, v) :: rest =>
    if key < k then (key, value) :: (k, v) :: rest
    else if key = k then (key, value) :: rest
    else (k, v) :: insertMember key value rest

/-- Sorted members; of equal keys the last one wins. -/
def sortMembers (members : List (String × Json)) : List (String × Json) :=
  members.foldl (fun acc kv => insertMember kv.1 kv.2 acc) []

mutual

/-- The same value with every object sorted by key and free of repeated keys. -/
def canonical : Json → Json
  | arr items => arr (canonicalItems items)
  | obj members => obj (sortMembers (canonicalMembers members))
  | v => v

/-- `canonical` of every element. -/
def canonicalItems : List Json → List Json
  | [] => []
  | v :: rest => canonical v :: canonicalItems rest

/-- `canonical` of every member. -/
def canonicalMembers : List (String × Json) → List (String × Json)
  | [] => []
  | (k, v) :: rest => (k, canonical v) :: canonicalMembers rest

end

/-- Replace or add a member of an object; any other value is left alone. -/
def set (v : Json) (key : String) (value : Json) : Json :=
  match v with
  | obj members => obj (insertMember key value (sortMembers members))
  | other => other

/-- An object from its members, those without a value left out. -/
def record (members : List (String × Option Json)) : Json :=
  obj (members.filterMap fun m => m.2.map (m.1, ·))

end Json

end Switchboard
