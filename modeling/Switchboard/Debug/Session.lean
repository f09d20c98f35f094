import Switchboard.Channel.Call
import Switchboard.Debug.Stack
import Switchboard.Debug.Launch
import Switchboard.Settings.Basic

/-!
# Debug sessions

* `Session`: one adapter for one language, over one channel;
* `Session.initializeArguments`, `template`, `exceptionFilters`: what the adapter is sent, as its settings and
  its advertised features demand;
* `Session.introduce`, `request`, `finishConfiguration`, `shutdown`: calls over its channel.

The handshake has two halves: `introduce`, and, once the adapter has said that it is initialized and the
breakpoints are in place, `finishConfiguration`. Only then is the session ready.
-/

namespace Switchboard.Debug

/-- One adapter for one language. -/
structure Session where
  language : String
  adapter : Settings.Adapter
  channel : ChannelId
  /-- Somebody takes up its events. -/
  served : Bool := false
deriving BEq, Repr, Inhabited

/-- Calls of a debug session. -/
abbrev Call (α : Type) := Attempt Wait Network Fault α

namespace Session

/-! ## What the adapter is told -/

/-- Where the features lie that the adapter advertises. -/
def advertised : String := "adapter"

/-- What a session sends to introduce itself: the settings of the adapter may add to it and override it. -/
def initializeArguments (s : Session) : Json :=
  let own := (InitializeArguments.ofAdapter s.adapter.adapterId).toJson.canonical
  let extra := ((s.adapter.initialize_.map fun t => (Toml.table t).plainJson).bind Json.asObj?).getD []
  extra.foldl (fun v m => v.set m.1 m.2) own

/-- The template of the `launch` or `attach` request. -/
def template (s : Session) : Launch.Mode → Json
  | .launch => (Toml.table s.adapter.launch).plainJson
  | .attach => (Toml.table s.adapter.attach).plainJson

/-- End the debuggee with the connection. -/
def farewell : Json := DisconnectArguments.toJson { restart := some false, terminateDebuggee := some true }

/-! ## What the adapter advertises -/

/-- Does the adapter advertise a feature? -/
def supports (f : Features) (feature : String) : Bool := f.getBool (advertised ++ "." ++ feature) false

/-- All that the adapter advertises, as far as this client knows it. -/
def adapterFeatures (f : Features) : AdapterFeatures :=
  match f.lookup advertised with
  | some v =>
    match AdapterFeatures.shape v with
    | .ok a => a
    | .error _ => {}
  | none => {}

/-- Does the adapter want to hear that the configuration is done? -/
def wantsConfigurationDone (s : Session) (f : Features) : Bool :=
  s.adapter.configurationDone.getD (supports f "supportsConfigurationDoneRequest")

/-- The filters that stand for exceptions. If the adapter advertises filters, others are left out. -/
def exceptionFilters (f : Features) (caught uncaught : Bool) : List String :=
  let wanted := (if caught then [f.getStr "debug.exceptions.caught" "caught"] else [])
    ++ (if uncaught then [f.getStr "debug.exceptions.uncaught" "uncaught"] else [])
  let known := (adapterFeatures f).exceptionFilters.map (·.filter)
  if known.isEmpty then wanted else wanted.filter known.contains

/-! ## Calls -/

/-- A channel call under the name of its command. -/
def under (command : String) {α : Type} (call : Network.Call α) : Call α := call.mapError (Fault.ofChannel command)

/-- Send a request. Gives the body of the answer. -/
def request (s : Session) (command : String) (arguments : Json) : Call Json :=
  under command (Network.request s.channel command arguments)

/-- Send a request whose answer has a body of a known shape. -/
def requestAs {α : Type} (s : Session) (shape : Json.Shape α) (command : String) (arguments : Json) : Call α := do
  let body ← s.request command arguments
  match shape body with
  | .ok a => return a
  | .error e => throw (.badBody command e)

/-- First half of the handshake. -/
def introduce (s : Session) : Call Unit :=
  under "initialize" (Network.initializeWith s.channel do
    let body ← Network.request s.channel "initialize" s.initializeArguments
    Network.insertFeature s.channel advertised body)

/-- The features of the channel. -/
def features (s : Session) : Call Features := Attempt.ofTask (Task.view fun n => (n.channel s.channel).features)

/-- Second half of the handshake. The session is ready afterwards even if the adapter refuses. -/
def finishConfiguration (s : Session) : Call Unit := do
  let wanted := s.wantsConfigurationDone (← s.features)
  let outcome ← if wanted then Attempt.ofTask (s.request "configurationDone" .null).outcome else pure (.ok .null)
  Attempt.ofTask (Task.modify fun n => n.update s.channel (·.setPhase .ready))
  match outcome with
  | .ok _ => return ()
  | .error e => throw e

/-- How long the adapter may take to say goodbye, in milliseconds. -/
def disconnectGrace : Nat := 1000

/-- Say goodbye to the adapter, wait a while for its answer, and close the channel. -/
def shutdown (s : Session) : Task Wait Network Unit := do
  let n ← Task.state
  if (n.channel s.channel).isOpen then
    let _ ← (Network.requestUntil s.channel "disconnect" farewell (some (n.now + disconnectGrace))).outcome
  Network.shutdown s.channel

end Session

end Switchboard.Debug
