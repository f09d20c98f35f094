import Switchboard.Analysis.Diagnostics
import Switchboard.Analysis.Messages
import Switchboard.Channel.Call

/-!
# Analysis sessions

* `Fault`: why an analysis command fails, the category that an editor sees, and the wording;
* `Session`: one analysis server for one workspace, over one channel;
* `Session.introduce`: the handshake, run once; `request` and `notify` run it first;
* `Session.shutdown`: end of the server and of the channel.
-/

namespace Switchboard.Analysis

/-! ## Faults -/

/-- Why an analysis command fails. -/
inductive Fault where
  | channel (fault : Channel.Fault)
  /-- No server is configured for the language. -/
  | noServer (language : String)
  /-- No server of the language is running in the workspace. -/
  | noSession (language : String) (workspace : Path)
  | unknownCommand (name : String)
  | unknownProject (name : String)
  | badArguments (command : String) (fault : Json.Fault)
deriving BEq, Repr

namespace Fault

/-- The category of a fault. -/
def kind : Fault → String
  | channel (.refused _) => "RequestFailure"
  | channel (.protocol _) => "ProtocolError"
  | channel _ => "TransportError"
  | noServer _ | unknownCommand _ | unknownProject _ | badArguments _ _ => "ConfigurationError"
  | noSession _ _ => "SessionStateError"

/-- The wording of a fault. -/
def message : Fault → String
  | channel fault => fault.message
  | noServer language => "no analysis server configured for language: " ++ language
  | noSession language workspace => "no session for " ++ language ++ " in " ++ workspace.text
  | unknownCommand name => "unknown command: " ++ name
  | unknownProject name => "unknown project: " ++ name
  | badArguments command fault => "invalid arguments for " ++ command ++ ": " ++ fault.message

/-- The fault as an editor sees it. -/
def toJson (f : Fault) : Json :=
  .obj [("error", .obj [("detail", .arr []), ("kind", f.kind), ("message", f.message)])]

end Fault

/-! ## Sessions -/

/-- One analysis server for one workspace. -/
structure Session where
  server : Server
  channel : ChannelId
  diagnostics : Diagnostics
  /-- What the handshake sends. -/
  introduction : Json := .null
deriving BEq, Repr, Inhabited

/-- Calls of an analysis session. -/
abbrev Call (α : Type) := Attempt Wait Network Fault α

namespace Session

/-- The event in which a server publishes remarks. -/
def publishEvent : String := "textDocument/publishDiagnostics"

/-- The event in which a server has something to log. -/
def logEvent : String := "window/logMessage"

/-- Who listens on the channel of a session. -/
def handlers : Handlers String := (Handlers.on {} publishEvent "diagnostics").on logEvent "log"

/-- A session on a channel. -/
def attach (server : Server) (channel : ChannelId) (current : Path) (processId : Nat) : Session where
  server := server
  channel := channel
  diagnostics := { language := server.language, workspace := server.workspace }
  introduction := initializeParams server current processId

/-- Where the features lie that the server advertises. -/
def advertised : String := "server"

/-- A channel call. -/
def channelCall {α : Type} (call : Network.Call α) : Call α := call.mapError .channel

/-- The handshake; it may be called again and again. -/
def introduce (s : Session) : Call Unit :=
  channelCall (Network.initializeWith s.channel do
    let result ← Network.request s.channel "initialize" s.introduction
    Network.insertFeature s.channel advertised ((result.get? "capabilities").getD .null)
    Network.notify s.channel "initialized" (.obj [])
    Network.setPhase s.channel .ready)

/-- Send a request once the server is ready. -/
def request (s : Session) (method : String) (params : Json) : Call Json := do
  s.introduce
  channelCall (Network.request s.channel method params)

/-- Send a notification once the server is ready. -/
def notify (s : Session) (method : String) (params : Json) : Call Unit := do
  s.introduce
  channelCall (Network.notify s.channel method params)

/-- A document was opened. -/
def didOpen (s : Session) (uri text : String) : Call Unit :=
  s.notify "textDocument/didOpen" (opened s.server.language uri text)

/-- A document has another text. -/
def didChange (s : Session) (uri : String) (version : Int) (text : String) : Call Unit :=
  s.notify "textDocument/didChange" (changed uri version text)

/-- A document was saved. -/
def didSave (s : Session) (uri : String) : Call Unit := s.notify "textDocument/didSave" (document uri)

/-- A document was closed. -/
def didClose (s : Session) (uri : String) : Call Unit := s.notify "textDocument/didClose" (document uri)

/-- What the server advertises. -/
def serverFeatures (f : Features) : Json := (f.lookup advertised).getD .null

/-- How the server numbers tokens, if it tells. -/
def legend? (f : Features) : Option Legend :=
  (f.lookup "server.semanticTokensProvider.legend").bind fun v => (Legend.shape v).toOption

/-- End a server that is ready, then close the channel. -/
def shutdown (s : Session) : Task Wait Network Unit := do
  let n ← Task.state
  if (n.channel s.channel).phase = .ready then
    let _ ← (Network.request s.channel "shutdown" .null).outcome
    let _ ← (Network.notify s.channel "exit" .null).outcome
  Network.shutdown s.channel

end Session

/-! ## Sessions by language and workspace -/

/-- All analysis sessions. -/
structure Registry where
  /-- How long a request waits for its answer, in milliseconds. -/
  limit : Option Nat := none
  /-- The current directory and the number of this process, which servers are told. -/
  current : Path := ⟨"/"⟩
  processId : Nat := 1
  /-- Every session there was, in order. -/
  sessions : List Session := []
  /-- The session of each language and workspace. -/
  table : List ((String × Path) × Nat) := []
deriving Inhabited

namespace Registry

/-- A session. -/
def session (r : Registry) (k : Nat) : Session := r.sessions.getD k default

/-- Are these the same language and workspace? -/
def sameKey (a b : String × Path) : Bool := a.1 = b.1 && a.2.same b.2

/-- The session of a language and workspace. -/
def find? (r : Registry) (language : String) (workspace : Path) : Option Nat :=
  (r.table.find? fun x => sameKey x.1 (language, workspace)).map (·.2)

/-- Add a session, in place of the one of the same language and workspace. -/
def insert (r : Registry) (s : Session) : Nat × Registry :=
  let key := (s.server.language, s.server.workspace)
  let k := r.sessions.length
  let table :=
    if r.table.any fun x => sameKey x.1 key then r.table.map fun x => if sameKey x.1 key then (x.1, k) else x
    else r.table ++ [(key, k)]
  (k, { r with sessions := r.sessions ++ [s], table })

/-- Forget the session of a language and workspace. -/
def remove (r : Registry) (language : String) (workspace : Path) : Option Nat × Registry :=
  (r.find? language workspace,
    { r with table := r.table.filter fun x => !sameKey x.1 (language, workspace) })

/-- Languages and workspaces whose session is open, sorted. -/
def active (r : Registry) (n : Network) : List (String × Path) :=
  ((r.table.filter fun x => (n.channel (r.session x.2).channel).isOpen).map (·.1)).mergeSort fun a b =>
    a.1 < b.1 || (a.1 = b.1 && !b.2.lt a.2)

/-- The session of a language and workspace, which has to be open. -/
def require (r : Registry) (n : Network) (language : String) (workspace : Path) : Except Fault Nat :=
  match r.find? language workspace with
  | some k =>
    if (n.channel (r.session k).channel).isOpen then pure k else throw (.noSession language workspace)
  | none => throw (.noSession language workspace)

end Registry

end Switchboard.Analysis
