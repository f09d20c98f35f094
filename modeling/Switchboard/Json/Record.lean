import Switchboard.Json.Reader
import Switchboard.Json.Shape

/-!
# Reading a record from text

* `Reader.passValue`: go past one value without reading it;
* `Json.readRecord?`: one value, of an object only the members with given names;
* `Fields.read?`: a record from text.

A member that is passed over has to be well formed, but its nesting, the size of its numbers and the pairing of
its surrogates do not matter.
-/

namespace Switchboard.Json

namespace Reader

/-! ## Going past values -/

/-- The rest after a string, from behind its opening quote. -/
def passString : List Char → Option (List Char)
  | [] => none
  | '"' :: rest => some rest
  | '\\' :: 'u' :: a :: b :: c :: d :: rest => if (hexUnit? a b c d).isSome then passString rest else none
  | '\\' :: c :: rest => if (shortEscape? c).isSome then passString rest else none
  | c :: rest => if c.toNat < 0x20 ∨ c = '\\' then none else passString rest

/-- The rest after a number without its sign. -/
def passUnsigned (cs : List Char) : Option (List Char) := do
  let (_, rest) ← integerDigits? cs
  match rest with
  | '.' :: rest =>
    match digits rest with
    | ([], _) => none
    | (_, rest) => Prod.snd <$> exponentPart rest
  | rest => Prod.snd <$> exponentPart rest

/-- The rest after a number. -/
def passNumber : List Char → Option (List Char)
  | '-' :: rest => passUnsigned rest
  | cs => passUnsigned cs

mutual

/-- The rest after one value, blanks before it skipped. The fuel bounds the calls. -/
def passValue : Nat → List Char → Option (List Char)
  | 0, _ => none
  | fuel + 1, cs =>
    match skip cs with
    | 'n' :: 'u' :: 'l' :: 'l' :: rest => some rest
    | 't' :: 'r' :: 'u' :: 'e' :: rest => some rest
    | 'f' :: 'a' :: 'l' :: 's' :: 'e' :: rest => some rest
    | '"' :: rest => passString rest
    | '[' :: rest =>
      match skip rest with
      | ']' :: rest => some rest
      | rest => passItems fuel rest
    | '\x7b' :: rest =>
      match skip rest with
      | '\x7d' :: rest => some rest
      | rest => passMembers fuel rest
    | rest => passNumber rest

/-- The rest after the elements of an array, at least one, and its closing bracket. -/
def passItems : Nat → List Char → Option (List Char)
  | 0, _ => none
  | fuel + 1, cs =>
    match (passValue fuel cs).map skip with
    | some (',' :: rest) => passItems fuel rest
    | some (']' :: rest) => some rest
    | _ => none

/-- The rest after the members of an object, at least one, and its closing brace. -/
def passMembers : Nat → List Char → Option (List Char)
  | 0, _ => none
  | fuel + 1, cs =>
    match skip cs with
    | '"' :: rest =>
      match (passString rest).map skip with
      | some (':' :: rest) =>
        match (passValue fuel rest).map skip with
        | some (',' :: rest) => passMembers fuel rest
        | some ('\x7d' :: rest) => some rest
        | _ => none
      | _ => none
    | _ => none

end

/-! ## Records -/

/-- Members of an object after its brace, at least one; those without one of the names are passed over. `acc`
holds those read, last one first. -/
def namedMembers (names : List String) :
    Nat → Nat → List (String × Json) → List Char → Option (Json × List Char)
  | 0, _, _, _ => none
  | fuel + 1, depth, acc, cs =>
    match skip cs with
    | '"' :: rest =>
      match string [] rest with
      | none => none
      | some (key, rest) =>
        match skip rest with
        | ':' :: rest =>
          let step : Option (List (String × Json) × List Char) :=
            if names.contains key then (value fuel depth rest).map fun r => ((key, r.1) :: acc, r.2)
            else (passValue fuel rest).map fun rest => (acc, rest)
          match step with
          | none => none
          | some (acc, rest) =>
            match skip rest with
            | ',' :: rest => namedMembers names fuel depth acc rest
            | '\x7d' :: rest => some (.obj acc.reverse, rest)
            | _ => none
        | _ => none
    | _ => none

/-- One value, of an object only the members with one of the names. -/
def namedValue (names : List String) (fuel depth : Nat) (cs : List Char) : Option (Json × List Char) :=
  match skip cs with
  | '\x7b' :: rest =>
    match skip rest with
    | '\x7d' :: rest => some (.obj [], rest)
    | rest => namedMembers names fuel (depth - 1) [] rest
  | cs => value fuel depth cs

end Reader

/-- One value with only blanks around it, of an object only the members with one of the names. -/
def readRecord? (names : List String) (text : String) : Option Json :=
  let cs := text.toList
  match Reader.namedValue names (2 * cs.length + 2) maxDepth cs with
  | some (v, rest) => if (Reader.skip rest).isEmpty then some v else none
  | none => none

/-- A record from text, if it is one. -/
def Fields.read? {α : Type} (name : String) (r : Fields α) (text : String) : Option α :=
  (readRecord? (r.fields.map (·.name)) text).bind fun v => (r.shape name v).toOption

end Switchboard.Json
