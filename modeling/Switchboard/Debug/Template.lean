import Switchboard.Json.Writer

/-!
# Templates

A template is a JSON value whose texts may hold tokens such as `port` between `$` and braces.

* `Template.Vars`: the values of tokens;
* `Template.render`: a text that is one token becomes the token's value, of any kind; tokens inside a longer
  text become their text; a text that is one token without a value takes its element or member with it.

Values are put in once: tokens inside them stay as they are.
-/

namespace Switchboard.Debug.Template

/-- The values of tokens; a name set twice has its last value. -/
abbrev Vars := List (String × Json)

/-- Set the value of a name. -/
def Vars.set (vars : Vars) (name : String) (value : Json) : Vars := Json.insertMember name value vars

/-- First character of a token name. -/
def isNameStart (c : Char) : Bool := c.isAlpha || c = '_'

/-- Further character of a token name. -/
def isNamePart (c : Char) : Bool := c.isAlphanum || c = '_' || c = '.'

/-- The name of a token at the start of a text and what follows the token. -/
def token? : List Char → Option (List Char × List Char)
  | '$' :: '\x7b' :: c :: rest =>
    if isNameStart c then
      match rest.dropWhile isNamePart with
      | '\x7d' :: after => some (c :: rest.takeWhile isNamePart, after)
      | _ => none
    else none
  | _ => none

/-- Text of a value inside a longer text: elements of an array are parted by blanks. -/
def textOf : Json → String
  | .str s => s
  | .null => ""
  | .arr items => " ".intercalate (texts items)
  | v => v.text
where
  /-- Texts of the elements. -/
  texts : List Json → List String
    | [] => []
    | v :: rest => textOf v :: texts rest

/-- Text of the value of a name, empty if it has none. -/
def spliced (vars : Vars) (name : List Char) : List Char :=
  match vars.lookup (String.ofList name) with
  | some v => (textOf v).toList
  | none => []

theorem token?_length {cs name rest : List Char} (h : token? cs = some (name, rest)) :
    rest.length < cs.length := by
  unfold token? at h
  split at h
  · rename_i c tail
    split at h
    · split at h
      · rename_i after hd
        simp only [Option.some.injEq, Prod.mk.injEq] at h
        obtain ⟨-, rfl⟩ := h
        have hle : (tail.dropWhile isNamePart).length ≤ tail.length :=
          (List.dropWhile_sublist _).length_le
        rw [hd] at hle
        simp only [List.length_cons] at hle ⊢
        omega
      · simp at h
    · simp at h
  · simp at h

/-- Replace every token by the text of its value. -/
def splice (vars : Vars) (cs : List Char) : List Char :=
  match _h : token? cs with
  | some (name, rest) => spliced vars name ++ splice vars rest
  | none =>
    match cs with
    | [] => []
    | c :: rest => c :: splice vars rest
termination_by cs.length
decreasing_by
  · exact token?_length _h
  · simp

/-- Render a text. -/
def renderText (vars : Vars) (s : String) : Option Json :=
  match token? s.toList with
  | some (name, []) => vars.lookup (String.ofList name)
  | _ => some (.str (String.ofList (splice vars s.toList)))

mutual

/-- Render a value; nothing if it goes with its token. -/
def renderValue (vars : Vars) : Json → Option Json
  | .str s => renderText vars s
  | .arr items => some (.arr (renderItems vars items))
  | .obj members => some (.obj (renderMembers vars members))
  | v => some v

/-- Render elements, leaving out those that go. -/
def renderItems (vars : Vars) : List Json → List Json
  | [] => []
  | v :: rest =>
    match renderValue vars v with
    | some w => w :: renderItems vars rest
    | none => renderItems vars rest

/-- Render members, leaving out those that go. -/
def renderMembers (vars : Vars) : List (String × Json) → List (String × Json)
  | [] => []
  | (k, v) :: rest =>
    match renderValue vars v with
    | some w => (k, w) :: renderMembers vars rest
    | none => renderMembers vars rest

end

/-- Render a template; one that goes with its token becomes `null`. -/
def render (vars : Vars) (template : Json) : Json := (renderValue vars template).getD .null

end Switchboard.Debug.Template
