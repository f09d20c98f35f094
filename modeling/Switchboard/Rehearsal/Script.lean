import Switchboard.Rehearsal

/-!
# Scripts and reports

Rehearsals are written down as JSON, and what was seen in them is reported as JSON.

* reading a script: members, elements and plain values, with a default for what is not there;
* writing a report: results, faults, lists that are left out when they are empty;
* `Script.peerStep`: the steps of a script that are the doing of a peer or of the clock;
* `Script.run`: the steps of a script one after the other.
-/

namespace Switchboard.Script

/-! ## Reading -/

/-- A member, `null` if it is not there. -/
def get (v : Json) (key : String) : Json := (v.get? key).getD .null

/-- The elements of an array. -/
def items (v : Json) : List Json := v.asArr?.getD []

/-- An element, `null` if it is not there. -/
def at_ (l : List Json) (i : Nat) : Json := (l[i]?).getD .null

/-- A text. -/
def text (v : Json) : String := v.asStr?.getD ""

/-- A text or nothing. -/
def text? (v : Json) : Option String := v.asStr?

/-- A path. -/
def path (v : Json) : Path := ⟨text v⟩

/-- An integer or nothing. -/
def int? (v : Json) : Option Int :=
  match v with
  | .num (.int i) => some i
  | _ => none

/-- An integer. -/
def int (v : Json) : Int := (int? v).getD 0

/-- A natural number or nothing. -/
def nat? (v : Json) : Option Nat := (int? v).map Int.toNat

/-- A natural number. -/
def nat (v : Json) : Nat := (nat? v).getD 0

/-- A truth value. -/
def flag (v : Json) : Bool := v.asBool?.getD false

/-- The bytes of two hexadecimal digits each. -/
def hexBytes : List Char → List UInt8
  | a :: b :: rest =>
    ((Json.Reader.hexDigit? a).getD 0 * 16 + (Json.Reader.hexDigit? b).getD 0).toUInt8 :: hexBytes rest
  | _ => []

/-- Bytes, as text or as hexadecimal digits. -/
def bytes (v : Json) : List UInt8 :=
  match v.get? "hex" with
  | some h => hexBytes (text h).toList
  | none => Utf8.encode (text v)

/-- A disk with a file, or with a directory if the name ends in a slash, below the current directory. -/
def installFile (d : Disk) (file : String × Json) : Disk :=
  let place := d.current ++ (Path.mk file.1).pieces.filter fun p => p ≠ "" ∧ p ≠ "."
  if file.1.toList.getLast? = some '/' then d.install place .directory
  else d.install place (.file ⟨(bytes file.2).toArray⟩)

/-- The first member of an object, which for a step says what happens. -/
def onlyMember (s : Json) : String × Json := ((s.asObj?.getD []).head?).getD ("", .null)

/-! ## Writing -/

/-- A value or `null`. -/
def orNull (v : Option Json) : Json := v.getD .null

/-- A fault by its category and wording. -/
def failure (kind message : String) : Json := .obj [("error", kind), ("message", message)]

/-- A fault of a channel. -/
def channelFailure (e : Channel.Fault) : Json :=
  .record [("error", some e.kind), ("message", some e.message),
    ("payload", match e with
      | .refused r => some r.toJson
      | _ => none)]

/-- A fault of a debug command. -/
def debugFailure (e : Debug.Fault) : Json := failure e.kind e.message

/-- A fault of an analysis command. -/
def analysisFailure (e : Analysis.Fault) : Json := failure e.kind e.message

/-- A success. -/
def success (v : Json) : Json := .obj [("ok", v)]

/-- A result or a fault. -/
def result {ε α : Type} (fail : ε → Json) (ok : α → Json) (r : Except ε α) : Json :=
  match r with
  | .ok a => success (ok a)
  | .error e => fail e

/-- The outcome of work. -/
def settled {ε α : Type} (fail : ε → Json) (ok : α → Json) (work : Work ε α) : Task Wait World Json := do
  return result fail ok (← work.outcome)

/-- Nothing to tell. -/
def unit (_ : Unit) : Json := .null

/-- A member of a report, left out if it is an empty list. -/
def listMember (key : String) (l : List Json) : List (String × Json) := if l.isEmpty then [] else [(key, .arr l)]

/-- A member of a report, left out if it is not there. -/
def optionMember (key : String) (v : Option Json) : List (String × Json) := v.toList.map fun x => (key, x)

/-- Results of calls by number. -/
def doneJson (l : List (Nat × Json)) : List Json := l.map fun x => .arr [.nat x.1, x.2]

/-- What the editor was told of the debugger. -/
def debugNotes (l : List Message) : List Json :=
  l.filterMap fun m => match m with
    | .debug n => some n.toJson
    | _ => none

/-- What the editor was told of documents. -/
def diagnosticNotes (l : List Message) : List Json :=
  l.filterMap fun m => match m with
    | .diagnostics n => some n.toJson
    | _ => none

/-- Events that were passed on, taken up. -/
def takeHeard (c : ChannelId) (r : Rehearsal) : List Channel.Heard × Rehearsal :=
  ((r.world.channel c).heard, r.updateChannel c fun ch => { ch with heard := [] })

/-! ## Steps -/

/-- How a peer answers. -/
def replyOf (v : Json) : Peer.Reply :=
  match v.get? "silent", v.get? "fail" with
  | some _, _ => .silent
  | none, some reason => .refuse reason (v.get? "body")
  | none, none => .accept (v.get? "ok")

/-- One reply or a list of them. -/
def repliesOf (v : Json) : List Peer.Reply :=
  match v with
  | .arr l => l.map replyOf
  | v => [replyOf v]

/-- Replies by name. -/
def habitsOf (v : Json) : List (String × List Peer.Reply) := (v.asObj?.getD []).map fun m => (m.1, repliesOf m.2)

/-- A step that is the doing of a peer or of the clock. Gives what is to be reported of it, and the rehearsal
once nothing moves. -/
def peerStep (k : Nat) (key : String) (v : Json) (r : Rehearsal) : Option (Option Json × Rehearsal) :=
  let l := items v
  match key with
  | "frame" => some (none, (r.sendMessage k v).settle)
  | "raw" => some (none, (r.send k (bytes v)).settle)
  | "respond" =>
    let (found, r) := r.respond k (text (at_ l 0)) (replyOf (at_ l 1))
    some (some found, r.settle)
  | "auto" => some (none, (r.updatePeer k fun p => p.learn (text (at_ l 0)) (repliesOf (at_ l 1))).settle)
  | "eof" => some (none, (r.hangUp k).settle)
  | "close_input" => some (none, (r.turnAway k).settle)
  | "advance" => some (none, r.advance (nat v))
  | _ => none

/-- The steps of a script, numbered. Gives the reports. -/
def run {σ : Type} (step : Nat → Json → σ → Json × σ) : Nat → List Json → σ → List Json
  | _, [], _ => []
  | k, s :: rest, state =>
    let (v, state) := step k s state
    v :: run step (k + 1) rest state

end Switchboard.Script
