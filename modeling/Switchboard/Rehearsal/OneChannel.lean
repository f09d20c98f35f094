import Switchboard.Channel.Call
import Switchboard.Rehearsal.Script

/-!
# Rehearsals on one channel

`OneChannel.play` runs a script of requests, notifications, handshakes and peer steps on one channel.
-/

namespace Switchboard.Script.OneChannel

/-- The handshake of a step. -/
def handshake (c : ChannelId) (v : Json) : Network.Call Unit := do
  match text? (get v "request") with
  | some method => do
    let body ← Network.request c method (get v "params")
    Network.insertFeature c "server" body
  | none => pure ()
  match text? (get v "fail") with
  | some reason => throw (.protocol reason)
  | none => pure ()
  if flag (get v "ready") then Network.setPhase c .ready

/-- The phase of a name. -/
def phase (v : Json) : Phase :=
  match text v with
  | "initializing" => .initializing
  | "ready" => .ready
  | "closed" => .closed
  | _ => .notInitialized

/-- The call that a step begins. -/
def call? (c : ChannelId) (key : String) (v : Json) : Option (Task Wait World Json) :=
  let l := items v
  match key with
  | "request" =>
    some (settled channelFailure id (World.call (Network.request c (text (at_ l 0)) (at_ l 1))))
  | "notify" =>
    some (settled channelFailure unit (World.call (Network.notify c (text (at_ l 0)) (at_ l 1))))
  | "wait_ready" => some (settled channelFailure unit (World.call (Network.awaitReady c)))
  | "wait_closed" => some (do
    World.onNet (Network.awaitClosed c)
    return "closed")
  | "shutdown" => some (do
    World.onNet (Network.shutdown c)
    return "shut down")
  | "init" => some (settled channelFailure unit (World.call (Network.initializeWith c (handshake c v))))
  | _ => none

/-- A step that changes or shows the channel. -/
def channelStep (c : ChannelId) (key : String) (v : Json) (r : Rehearsal) : Option Json × Rehearsal :=
  let ch := r.world.channel c
  let l := items v
  let change (f : Channel → Channel) := (r.updateChannel c f).settle
  match key with
  | "on" => (none, change fun ch => { ch with handlers := ch.handlers.on (text v) "on" })
  | "on_any" => (none, change fun ch => { ch with handlers := ch.handlers.onAny "on_any" })
  | "set_state" => (none, change (·.setPhase (phase v)))
  | "cap" =>
    (none, change fun ch => { ch with features := ch.features.insert (text (at_ l 0)) (at_ l 1) })
  | "cap_bool" => (some (ch.features.getBool (text (at_ l 0)) (flag (at_ l 1))), r)
  | "lookup" => (some (orNull (ch.features.lookup (text v))), r)
  | _ => (none, r)

/-- An event and who heard it. -/
def heardJson (h : Channel.Heard) : Json := .arr [h.handler, h.event.name, h.event.body]

/-- One step and its report. -/
def step (k : Nat) (s : Json) (r : Rehearsal) : Json × Rehearsal :=
  let (key, v) := onlyMember s
  let (ret, r) := match peerStep 0 key v r with
    | some x => x
    | none =>
      match call? 0 key v with
      | some work => (none, (r.begin k work).settle)
      | none => channelStep 0 key v r
  let (done, r) := r.takeResults
  let (sent, r) := r.takeReceived 0
  let (heard, r) := takeHeard 0 r
  let ch := r.world.channel 0
  (.obj ([("state", .str ch.phase.name), ("pending", .nat ch.pending.count)] ++ listMember "sent" sent
    ++ listMember "done" (doneJson done) ++ listMember "events" (heard.map heardJson) ++ optionMember "ret" ret), r)

/-- Run a script on a channel. -/
def play (ch : Channel) (script : Json) : Json :=
  let (_, r) := Rehearsal.connect {} ch (habitsOf (get script "auto"))
  .arr (run step 0 (items (get script "steps")) r)

end Switchboard.Script.OneChannel
