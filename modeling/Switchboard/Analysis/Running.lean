import Switchboard.World

/-!
# Analysis servers coming and going

* `Running.start`: the open session of a language and workspace, or a new one; its handshake is run;
* `Running.stop`, `Running.stopAll`: the end of one session, of all.

A new session takes its place in the registry in the same step in which it is started, so no two callers
start the same server.
-/

namespace Switchboard

/-- Analysis work. -/
abbrev Analysis.AnalysisWork (α : Type) := Work Analysis.Fault α

namespace World

/-- The channel of a server, before it is connected. -/
def serverChannel (limit : Option Nat) (features : Json) : Channel :=
  { dialect := .jsonRpc, limit, handlers := Analysis.Session.handlers, features := .ofJson features }

/-- Start a server in its workspace; its session is added to the registry. -/
def startServer (w : World) (server : Analysis.Server) (features : Json) : Except Analysis.Fault Nat × World :=
  let r := w.analysis
  match w.spawn (serverChannel r.limit features) server.command server.args (some server.workspace) with
  | (.error e, w) => (throw (.channel e), w)
  | (.ok channel, w) =>
    let (k, r) := r.insert (Analysis.Session.attach server channel r.current r.processId)
    (pure k, { w with analysis := r })

/-- The open session of a server, or a new one. -/
def claimServer (w : World) (server : Analysis.Server) (features : Json) : Except Analysis.Fault Nat × World :=
  match w.analysis.require w.net server.language server.workspace with
  | .ok k => (pure k, w)
  | .error _ => w.startServer server features

end World

namespace Analysis.Running

/-- A session. -/
def session (k : Nat) : AnalysisWork Session := Attempt.ofTask (Task.view fun w => w.analysis.session k)

/-- The number of the session of a server, with its handshake done. -/
def start (server : Server) (features : Json) : AnalysisWork Nat := do
  let k ← Attempt.act fun w => w.claimServer server features
  let s ← session k
  World.call s.introduce
  return k

/-- The number of the open session of a language and workspace. -/
def require (language : String) (workspace : Path) : AnalysisWork Nat := do
  let w ← Attempt.ofTask Task.state
  Attempt.ofExcept (w.analysis.require w.net language workspace)

/-- Forget a session. -/
def forget (language : String) (workspace : Path) (w : World) : Except Fault Session × World :=
  match w.analysis.remove language workspace with
  | (some k, r) => (pure (r.session k), { w with analysis := r })
  | (none, _) => (throw (.noSession language workspace), w)

/-- Forget a session and end it. -/
def stop (language : String) (workspace : Path) : AnalysisWork Unit := do
  let s ← Attempt.act (forget language workspace)
  Attempt.ofTask (World.onNet s.shutdown)

/-- Forget every session and end them, one after the other. -/
def stopAll : Task Wait World Unit := do
  let sessions ← Task.act fun w =>
    (w.analysis.table.map fun x => w.analysis.session x.2, { w with analysis := { w.analysis with table := [] } })
  Task.forEach (fun s => World.onNet s.shutdown) sessions

end Analysis.Running

end Switchboard
