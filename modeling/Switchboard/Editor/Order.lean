import Switchboard.Analysis.Command
import Switchboard.Debug.Command
import Switchboard.Json.Record

/-!
# Orders: the lines that an editor sends

* `Order`: a command with its arguments, and an id that its reply carries;
* `Order.ofLine`: an order from a line of text;
* `Commands`: how commands are carried out; the work on a command may break down;
* `Order.work`: carry an order out, and reply.
-/

namespace Switchboard.Editor

/-- A command as an editor sends it. -/
structure Order where
  id : Json := .null
  command : String
  arguments : Json := .null
deriving BEq, Repr

namespace Order

/-- The command that ends the service. -/
def stop : String := "bridge.shutdown"

/-- The fields of an order. -/
def fields : Json.Fields Order :=
  (fun (id : Json) command (arguments : Json) => ⟨id.canonical, command, arguments.canonical⟩)
    <$> .fieldD "id" Json.Shape.any .null <*> .field "command" Json.Shape.string
    <*> .fieldD "arguments" Json.Shape.any .null

/-- The order of a line, if it is one. -/
def ofLine (line : String) : Option Order := fields.read? "Envelope" line

/-- The answer to a command. -/
def answer (command : String) (arguments : Json) : Task Wait World Json :=
  if Debug.Command.isName command then Debug.Command.answer command arguments
  else Analysis.Command.answer command arguments

/-- An answer with the id of its order. -/
def reply (id answer : Json) : Json := answer.set "id" id

/-- The answer that says that something could not even be carried out. -/
def failure (message : String) : Json :=
  .obj [("error", .obj [("detail", .arr []), ("kind", "ProtocolError"), ("message", .str message)])]

/-- The reply to a line that is no order. -/
def unreadable : Json := reply .null (failure "invalid command")

/-- How the work on a command ends. -/
inductive Ending where
  | answered (answer : Json)
  /-- It broke down. -/
  | aborted (reason : String)

/-- The answer that an ending comes to. -/
def Ending.answer (command : String) : Ending → Json
  | answered answer => answer
  | aborted reason => failure (command ++ " aborted: " ++ reason)

end Order

/-- How commands are carried out, by name and arguments. -/
abbrev Commands := String → Json → Task Wait World Order.Ending

/-- The commands of the debugger and of analysis. -/
def Commands.all : Commands := fun command arguments => .answered <$> Order.answer command arguments

/-- Carry an order out and tell the editor its reply, which is also the result. -/
def Order.work (commands : Commands) (o : Order) : Task Wait World Json := do
  let v := reply o.id ((← commands o.command o.arguments).answer o.command)
  Task.modify fun w => w.tell (.reply v)
  return v

end Switchboard.Editor
