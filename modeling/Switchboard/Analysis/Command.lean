import Switchboard.Analysis.Running

/-!
# Analysis commands

* `Command`: what an editor can ask of analysis servers;
* `Command.ofJson`: a command from its name and arguments;
* `Command.perform`: carry it out; `Command.answer`: one answer for every name and arguments.

A command that talks to a server starts the server of its language in the root of its project if none runs.
-/

namespace Switchboard.Analysis

open Json (Shape Fields)
open Json.Fields (field fieldD)

/-- The server that is meant: its language and the project whose root is the workspace. -/
structure Command.Place where
  language : String
  project : String
deriving DecidableEq, Repr

/-- What a server can be told of a document. -/
inductive Command.DocumentEvent where
  | opened
  | changed
  | saved
  | closed
deriving DecidableEq, Repr

/-- A document, with its text and version where they matter. -/
structure Command.Document where
  place : Command.Place
  path : Path
  text : String
  version : Int
deriving DecidableEq, Repr

/-- What an editor can ask of analysis servers. -/
inductive Command where
  | start (place : Command.Place)
  | stop (place : Command.Place)
  | sessions
  | tell (event : Command.DocumentEvent) (document : Command.Document)
  | request (place : Command.Place) (method : String) (params : Json)
  | diagnostics (document : Command.Document)
  | legend (place : Command.Place)
deriving BEq, Repr

namespace Command

/-! ## Reading -/

/-- A command from its arguments. -/
abbrev Reader := Json → Except Json.Fault Command

/-- A place. -/
def placeFields : Fields Place := Place.mk <$> field "language" Shape.string <*> field "project" Shape.string

/-- A document. -/
def documentFields : Fields Document :=
  (fun place path text version => ⟨place, ⟨path⟩, text, version⟩) <$> placeFields <*> field "path" Shape.path
    <*> fieldD "text" Shape.string "" <*> fieldD "version" Shape.i32 0

/-- A request. -/
def requestFields : Fields Command :=
  request <$> placeFields <*> field "method" Shape.string <*> fieldD "params" Shape.any .null

/-- A command on a place. -/
def onPlace (make : Place → Command) : Reader := fun v => make <$> placeFields.shape "SessionArgs" v

/-- A command on a document. -/
def onDocument (make : Document → Command) : Reader := fun v => make <$> documentFields.shape "DocumentArgs" v

/-- Every command by name. -/
def readers : List (String × Reader) :=
  [("analysis.start", onPlace start),
    ("analysis.stop", onPlace stop),
    ("analysis.sessions", fun _ => pure sessions),
    ("analysis.open", onDocument (tell .opened)),
    ("analysis.change", onDocument (tell .changed)),
    ("analysis.save", onDocument (tell .saved)),
    ("analysis.close", onDocument (tell .closed)),
    ("analysis.request", fun v => requestFields.shape "RequestArgs" v),
    ("analysis.diagnostics", onDocument diagnostics),
    ("analysis.legend", onPlace legend)]

/-- The command of a name with its arguments, of which `null` stands for none. -/
def ofJson (name : String) (args : Json) : Except Fault Command :=
  match readers.lookup name with
  | none => throw (.unknownCommand name)
  | some read =>
    match read (if args.isNull then .obj [] else args) with
    | .ok c => pure c
    | .error e => throw (.badArguments name e)

/-! ## Carrying out -/

/-- The root of a project. -/
def rootOf (project : String) : AnalysisWork Path := do
  match ← Attempt.ofTask (Task.view fun w => w.settings.projectRoot? project) with
  | some root => return root
  | none => throw (.unknownProject project)

/-- How the server of a language is started in a workspace. -/
def serverIn (settings : Settings) (language : String) (workspace : Path) : Except Fault Server :=
  match settings.server? language with
  | some entry =>
    pure
      { language, command := entry.command, args := entry.args, workspace
        initializationOptions := entry.initializationOptions.map Toml.plainJson }
  | none => throw (.noServer language)

/-- The session of a place, started if need be. -/
def sessionAt (p : Place) : AnalysisWork Nat := do
  let root ← rootOf p.project
  let settings ← Attempt.ofTask (Task.view World.settings)
  let server ← Attempt.ofExcept (serverIn settings p.language root)
  Running.start server (((settings.languages.lookup p.language).map (·.features)).getD .null)

/-- The open session of a place. -/
def openAt (p : Place) : AnalysisWork Nat := do Running.require p.language (← rootOf p.project)

/-- The features of a session's channel. -/
def featuresOf (k : Nat) : AnalysisWork Features :=
  Attempt.ofTask (Task.view fun w => (w.channel (w.analysis.session k).channel).features)

/-- How a document is named to a server. -/
def uriOf (path : Path) : AnalysisWork String :=
  Attempt.ofTask (Task.view fun w => DocumentUri.ofPath w.analysis.current path)

/-- Tell a server of a document. -/
def tellServer (s : Session) (uri : String) (d : Document) : DocumentEvent → Call Unit
  | .opened => s.didOpen uri d.text
  | .changed => s.didChange uri d.version d.text
  | .saved => s.didSave uri
  | .closed => s.didClose uri

/-- The remarks on a document. -/
def remarks (k : Nat) (uri : String) : AnalysisWork (List Diagnostic) :=
  Attempt.ofTask (Task.view fun w => (w.analysis.session k).diagnostics.get uri)

/-- Carry out a command. -/
def perform : Command → AnalysisWork Json
  | start place => do return Session.serverFeatures (← featuresOf (← sessionAt place))
  | stop place => do
    Running.stop place.language (← rootOf place.project)
    return .null
  | sessions => do
    let active ← Attempt.ofTask (Task.view fun w => w.analysis.active w.net)
    return .arr (active.map fun x => .obj [("language", x.1), ("workspace", x.2.text)])
  | tell event document => do
    let s ← Running.session (← sessionAt document.place)
    World.call (tellServer s (← uriOf document.path) document event)
    return .null
  | request place method params => do
    let s ← Running.session (← sessionAt place)
    World.call (s.request method params)
  | diagnostics document => do
    let k ← openAt document.place
    return .arr ((← remarks k (← uriOf document.path)).map Diagnostic.toJson)
  | legend place => do
    let k ← openAt place
    return ((Session.legend? (← featuresOf k)).map Legend.toJson).getD .null

/-- The answer to a command. -/
def answer (name : String) (args : Json) : Task Wait World Json := do
  let work : AnalysisWork Json := do perform (← Attempt.ofExcept (ofJson name args))
  match ← work.outcome with
  | .ok v => return .obj [("ok", v)]
  | .error e => return e.toJson

end Command

end Switchboard.Analysis
