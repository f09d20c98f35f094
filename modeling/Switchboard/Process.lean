import Switchboard.Channel.Network
import Switchboard.Disk

/-!
# Processes

* `Script`: what a process does with its standard input and output until it exits;
* `Programs`: which commands can be started, and what their processes do;
* `Process`: a process at the far end of a channel, with what is left of its script.
-/

namespace Switchboard

/-- One thing that a process does. -/
inductive Script.Step where
  /-- Read so many bytes and forget them. -/
  | take (count : Nat)
  | put (bytes : List UInt8)
deriving DecidableEq, Repr

/-- What a process does before it exits. -/
abbrev Script := List Script.Step

/-- What the process of a command with its arguments does, if the command can be started. -/
abbrev Programs := String → List String → Option Script

/-- A process at the far end of a channel. -/
structure Process where
  channel : ChannelId
  /-- Bytes that reached it and were not read. -/
  unread : List UInt8 := []
  script : Script
deriving Repr

namespace Process

/-- Why a command cannot be started in a directory, if it cannot. -/
def obstacle? (d : Disk) (programs : Programs) (command : String) (args : List String)
    (directory : Option Path) : Option Disk.Fault :=
  let blocked := match directory with
    | some dir =>
      match d.find dir with
      | .error e => some e
      | .ok (_, .file _) => some .notDirectory
      | .ok (_, .directory) => none
    | none => none
  blocked <|> if (programs command args).isSome then none else some .notFound

/-- Can the process go on? -/
def canRun (p : Process) (ch : Channel) : Bool :=
  ch.child = .running &&
    match p.script with
    | .take n :: _ => n ≤ (p.unread ++ ch.outgoing.flatMap Frame.encode).length
    | _ => true

/-- One step of the process. At the end of its script it exits, and both streams end. -/
def step (p : Process) (ch : Channel) : Process × Channel :=
  let p := { p with unread := p.unread ++ ch.outgoing.flatMap Frame.encode }
  let ch := { ch with outgoing := [] }
  match p.script with
  | .take n :: rest => ({ p with unread := p.unread.drop n, script := rest }, ch)
  | .put bytes :: rest => ({ p with script := rest }, { ch with incoming := ch.incoming ++ bytes })
  | [] => (p, { ch with child := .exited, inputEnded := true, outputBroken := true })

end Process

end Switchboard
