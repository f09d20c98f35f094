import Switchboard.Debug.Fault
import Switchboard.Debug.Messages
import Switchboard.Text.Lines

/-!
# Breakpoints

* `Breakpoint`: on a line of a file, or on exceptions;
* `Breakpoint.toSource?`: what of it is sent to an adapter;
* `Breakpoint.Property`, `Breakpoint.apply`: edits of single properties;
* `Breakpoint.shape`, `Breakpoint.toJson`: the JSON form, in which anchors never and verifications only
  when written take part.
-/

namespace Switchboard.Debug

open Json (Shape Fields)

/-- Where a breakpoint sits. -/
inductive Breakpoint.Kind where
  /-- Line and column count from one. -/
  | line (project : String) (path : Path) (line : Nat) (column : Option Nat) (anchor : Option Text.Anchor)
  /-- On exceptions that are caught, or that are not. -/
  | exception (caught uncaught : Bool)
deriving DecidableEq, Repr, Inhabited

/-- What the adapter answered when the breakpoint was last sent. -/
structure Breakpoint.Verification where
  verified : Bool
  adapterId : Option Int
  /-- The line on which the adapter placed it. -/
  line : Option Nat
  message : Option String
deriving DecidableEq, Repr, Inhabited

/-- A breakpoint. -/
structure Breakpoint where
  id : Nat
  enabled : Bool := true
  condition : Option String := none
  /-- A condition that is not enabled is kept but not sent. -/
  conditionEnabled : Bool := true
  hitCondition : Option String := none
  /-- With a log message the debuggee does not stop. -/
  logMessage : Option String := none
  kind : Breakpoint.Kind
  verification : Option Breakpoint.Verification := none
deriving DecidableEq, Repr, Inhabited

namespace Breakpoint

/-- The verification that an answer means. -/
def Verification.ofResponse (r : BreakpointResponse) : Verification := ⟨r.verified, r.id, r.line, r.message⟩

/-- Is it on exceptions? -/
def isException (b : Breakpoint) : Bool :=
  match b.kind with
  | .exception _ _ => true
  | .line .. => false

/-- The file of a line breakpoint. -/
def path? (b : Breakpoint) : Option Path :=
  match b.kind with
  | .line _ path _ _ _ => some path
  | .exception _ _ => none

/-- The project of a line breakpoint. -/
def project? (b : Breakpoint) : Option String :=
  match b.kind with
  | .line project _ _ _ _ => some project
  | .exception _ _ => none

/-- The line of a line breakpoint. -/
def line? (b : Breakpoint) : Option Nat :=
  match b.kind with
  | .line _ _ line _ _ => some line
  | .exception _ _ => none

/-- Is it in the file? -/
def isIn (b : Breakpoint) (path : Path) : Bool :=
  match b.path? with
  | some p => p.same path
  | none => false

/-- Is it on that line of the file? -/
def isAt (b : Breakpoint) (path : Path) (line : Nat) : Bool := b.isIn path && b.line? == some line

/-- What is sent of an enabled line breakpoint. -/
def toSource? (b : Breakpoint) : Option SourceBreakpoint :=
  match b.kind with
  | .exception _ _ => none
  | .line _ _ line column _ =>
    if b.enabled then
      some
        { line, column
          condition := if b.conditionEnabled then b.condition else none
          hitCondition := b.hitCondition
          logMessage := b.logMessage }
    else none

/-! ## Edits -/

/-- The properties that can be edited. -/
inductive Property where
  /-- Removes the breakpoint; what follows it is ignored. -/
  | clear
  | enabled
  | condition
  | conditionEnabled
  | hitCondition
  | logMessage
  | caught
  | uncaught
deriving DecidableEq, Repr

/-- All properties with their names. -/
def Property.names : List (String × Property) :=
  [("CLEAR", .clear), ("ENABLED", .enabled), ("CONDITION", .condition),
    ("CONDITION_ENABLED", .conditionEnabled), ("HIT_CONDITION", .hitCondition),
    ("LOG_MESSAGE", .logMessage), ("CAUGHT", .caught), ("UNCAUGHT", .uncaught)]

/-- The name of a property. -/
def Property.name : Property → String
  | clear => "CLEAR"
  | enabled => "ENABLED"
  | condition => "CONDITION"
  | conditionEnabled => "CONDITION_ENABLED"
  | hitCondition => "HIT_CONDITION"
  | logMessage => "LOG_MESSAGE"
  | caught => "CAUGHT"
  | uncaught => "UNCAUGHT"

/-- The property of a name, in letters of either case. -/
def Property.ofName (name : String) : Except Fault Property :=
  match Property.names.lookup (Text.upper name) with
  | some p => pure p
  | none => throw (.unknownProperty name)

/-- Text without outer blanks, if any is left. -/
def nonBlank (value : String) : Option String :=
  if Text.trim value = "" then none else some (Text.trim value)

/-- A truth value as an editor writes it. -/
def flag (p : Property) (value : String) : Except Fault Bool :=
  let word := Text.lower (Text.trim value)
  if word ∈ ["true", "1", "yes", "on"] then pure true
  else if word ∈ ["false", "0", "no", "off"] then pure false
  else throw (.notABoolean p.name word)

/-- Set one property. -/
def apply (b : Breakpoint) (p : Property) (value : String) : Except Fault Breakpoint :=
  match p with
  | .clear => throw .clearInPlace
  | .enabled => do return { b with enabled := ← flag p value }
  | .condition => pure { b with condition := nonBlank value }
  | .conditionEnabled => do return { b with conditionEnabled := ← flag p value }
  | .hitCondition => pure { b with hitCondition := nonBlank value }
  | .logMessage => pure { b with logMessage := nonBlank value }
  | .caught => do
    let on ← flag p value
    match b.kind with
    | .exception _ uncaught => return { b with kind := .exception on uncaught }
    | .line .. => throw (.exceptionOnly p.name)
  | .uncaught => do
    let on ← flag p value
    match b.kind with
    | .exception caught _ => return { b with kind := .exception caught on }
    | .line .. => throw (.exceptionOnly p.name)

/-- Set properties in order up to a `clear`; says whether one was met. -/
def applyAll : Breakpoint → List (String × String) → Except Fault (Breakpoint × Bool)
  | b, [] => pure (b, false)
  | b, (name, value) :: rest => do
    match ← Property.ofName name with
    | .clear => return (b, true)
    | p => applyAll (← b.apply p value) rest

/-! ## JSON -/

/-- A verification as JSON. -/
def Verification.toJson (v : Verification) : Json :=
  .record [("verified", some v.verified), ("adapter_id", v.adapterId.map .int), ("line", v.line.map .nat),
    ("message", v.message.map .str)]

/-- The members that tell where a breakpoint sits. -/
def placeMembers : Kind → List (String × Option Json)
  | .line project path line column _ =>
    [("type", some "line"), ("project", some project), ("path", some path.text), ("line", some (.nat line)),
      ("column", column.map .nat)]
  | .exception caught uncaught =>
    [("type", some "exception"), ("caught", some caught), ("uncaught", some uncaught)]

/-- A breakpoint as JSON. -/
def toJson (b : Breakpoint) : Json :=
  .record ([("id", some (.nat b.id)), ("enabled", some (.bool b.enabled)),
      ("condition", b.condition.map .str), ("condition_enabled", some (.bool b.conditionEnabled)),
      ("hit_condition", b.hitCondition.map .str), ("log_message", b.logMessage.map .str)]
    ++ placeMembers b.kind ++ [("verification", b.verification.map Verification.toJson)])

/-- The fields of a line breakpoint's place. -/
def lineFields : Fields Kind :=
  (fun project path line column => Kind.line project ⟨path⟩ line column none)
    <$> .field "project" Shape.string <*> .field "path" Shape.path <*> .field "line" Shape.u32
    <*> .fieldD? "column" Shape.u32

/-- The fields of an exception breakpoint. -/
def exceptionFields : Fields Kind :=
  Kind.exception <$> .field "caught" Shape.bool <*> .field "uncaught" Shape.bool

/-- The fields that both kinds have. -/
def commonFields : Fields (Kind → Breakpoint) :=
  (fun id enabled condition conditionEnabled hitCondition logMessage kind =>
      { id, enabled, condition, conditionEnabled, hitCondition, logMessage, kind })
    <$> .field "id" Shape.u64 <*> .field "enabled" Shape.bool <*> .fieldD? "condition" Shape.string
    <*> .fieldD "condition_enabled" Shape.bool true <*> .fieldD? "hit_condition" Shape.string
    <*> .fieldD? "log_message" Shape.string

/-- Read where a breakpoint sits: the member `type` says, by name or by number, which fields are there. -/
def readKind (members : List (String × Json)) : Except Json.Fault Kind := do
  match members.filter (·.1 = "type") with
  | [] => throw (.missing "type")
  | [(_, type)] =>
    let rest := members.filter (·.1 ≠ "type")
    match type with
    | .str "line" | .num (.int 0) => lineFields.ofMembers rest
    | .str "exception" | .num (.int 1) => exceptionFields.ofMembers rest
    | .str other => throw (.unknownVariant other ["line", "exception"])
    | v => throw (.wrongType v "variant identifier")
  | _ => throw (.repeated "type")

/-- Read a breakpoint; it has to be an object. -/
def shape : Shape Breakpoint
  | .obj members => do
    let make ← commonFields.ofMembers members
    let own := commonFields.fields.map (·.name)
    return make (← readKind (members.filter fun m => !own.contains m.1))
  | v => throw (.wrongType v "struct Breakpoint")

end Breakpoint

end Switchboard.Debug
