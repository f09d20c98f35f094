import Switchboard.Toml.Basic
import Switchboard.Path

/-!
# Settings

* `Settings`: logging, protocol tuning, languages with their servers and adapters, and projects;
* `Settings.shape`, `Settings.toToml`: reading and writing;
* `Settings.violations`: the rules that settings have to keep, checked in order.
-/

namespace Switchboard

open Json (Shape Fields)

/-- How much is logged. -/
inductive Settings.LogLevel where
  | trace
  | debug
  | info
  | warn
  | error
deriving DecidableEq, Repr, Inhabited

namespace Settings

/-- The name of a level. -/
def LogLevel.name : LogLevel → String
  | trace => "trace"
  | debug => "debug"
  | info => "info"
  | warn => "warn"
  | error => "error"

/-- Every level by name. -/
def LogLevel.byName : List (String × LogLevel) :=
  [("trace", .trace), ("debug", .debug), ("info", .info), ("warn", .warn), ("error", .error)]

/-- Protocol tuning. -/
structure Rpc where
  /-- How long a request may take, in seconds; zero sets no limit. -/
  requestTimeoutSecs : Nat := 0
  /-- How long after a stop frames are fetched ahead, in milliseconds. -/
  prefetchDelayMs : Nat := 150
  deferredWorkers : Nat := 2
deriving DecidableEq, Repr, Inhabited

/-- How to start an analysis server. -/
structure Server where
  command : String
  args : List String := []
  initializationOptions : Option Toml := none
deriving BEq, Repr, Inhabited

/-- How to start a debug adapter and what to send it. -/
structure Adapter where
  command : String
  args : List String := []
  adapterId : String
  /-- Whether `configurationDone` is sent; left open, the adapter's own word counts. -/
  configurationDone : Option Bool := none
  /-- Further `initialize` arguments. -/
  initialize_ : Option (List (String × Toml)) := none
  launch : List (String × Toml) := []
  attach : List (String × Toml) := []
deriving BEq, Repr, Inhabited

/-- What is known of a language. -/
structure Language where
  extensions : List String := []
  analysis : Option Server := none
  debug : Option Adapter := none
  capabilities : List (String × Toml) := []
deriving BEq, Repr, Inhabited

/-- What is known of a project. -/
structure Project where
  root : Path
  language : Option String := none
deriving DecidableEq, Repr, Inhabited

end Settings

/-- Everything that can be configured; languages and projects are sorted by name. -/
structure Settings where
  level : Settings.LogLevel := .info
  rpc : Settings.Rpc := {}
  languages : List (String × Settings.Language) := []
  projects : List (String × Settings.Project) := []
deriving BEq, Repr, Inhabited

namespace Settings

/-- The deadline of a request in milliseconds, if there is one. -/
def Rpc.limit? (r : Rpc) : Option Nat :=
  if r.requestTimeoutSecs = 0 then none else some (r.requestTimeoutSecs * 1000)

/-- The declared capabilities of a language as JSON. -/
def Language.features (l : Language) : Json := (Toml.table l.capabilities).plainJson

/-- The adapter of a language. -/
def adapter? (s : Settings) (language : String) : Option Adapter := (s.languages.lookup language).bind (·.debug)

/-- The analysis server of a language. -/
def server? (s : Settings) (language : String) : Option Server := (s.languages.lookup language).bind (·.analysis)

/-- The root of a project. -/
def projectRoot? (s : Settings) (project : String) : Option Path := (s.projects.lookup project).map (·.root)

/-! ## Reading -/

/-- What settings are read from. -/
inductive Form where
  /-- One TOML document. -/
  | document
  /-- TOML values laid over each other. -/
  | layers
  | json
deriving DecidableEq, Repr

/-- A record, or an array of its fields; only in a document, elements may be left over. -/
def recordShape {α : Type} (form : Form) (name : String) (r : Fields α) : Shape α
  | .arr items => r.ofItems name (if form = .document then items.take r.fields.length else items)
  | v => r.shape name v

/-- A level by its name. The name may stand over nothing: over `null` in JSON, over an empty table or array
in TOML. -/
def levelShape (form : Form) : Shape LogLevel
  | .obj [(name, content)] =>
    if form = .json then Shape.variant LogLevel.byName (.obj [(name, content)])
    else
      match content with
      | .obj [] | .arr [] => Shape.variantName LogLevel.byName name
      | _ => throw (.wrongType content "unit")
  | v => Shape.variant LogLevel.byName v

/-- Put an entry into a sorted list, over an equal key. -/
def insertNamed {α : Type} (key : String) (value : α) : List (String × α) → List (String × α)
  | [] => [(key, value)]
  | (k, v) :: rest =>
    if key < k then (key, value) :: (k, v) :: rest
    else if key = k then (key, value) :: rest
    else (k, v) :: insertNamed key value rest

/-- Entries by name, sorted. -/
def named {α : Type} (shape : Shape α) : Shape (List (String × α)) := fun v =>
  (·.foldl (fun acc x => insertNamed x.1 x.2 acc) []) <$> Shape.entries pure shape v

/-- Log settings. -/
def logFields (form : Form) : Fields LogLevel := .fieldD "level" (levelShape form) .info

/-- Protocol tuning. -/
def rpcFields : Fields Rpc :=
  Rpc.mk <$> .fieldD "request_timeout_secs" Shape.u64 0 <*> .fieldD "prefetch_delay_ms" Shape.u64 150
    <*> .fieldD "deferred_workers" Shape.usize 2

/-- A server entry. -/
def serverFields : Fields Server :=
  Server.mk <$> .field "command" Shape.string <*> .fieldD "args" (Shape.list Shape.string) []
    <*> .fieldD? "initialization_options" Toml.ofJson

/-- An adapter entry. -/
def adapterFields : Fields Adapter :=
  Adapter.mk <$> .field "command" Shape.string <*> .fieldD "args" (Shape.list Shape.string) []
    <*> .field "adapter_id" Shape.string <*> .fieldD? "configuration_done" Shape.bool
    <*> .fieldD? "initialize" Toml.tableShape <*> .fieldD "launch" Toml.tableShape []
    <*> .fieldD "attach" Toml.tableShape []

/-- A language entry. -/
def languageFields (form : Form) : Fields Language :=
  Language.mk <$> .fieldD "extensions" (Shape.list Shape.string) []
    <*> .fieldD? "analysis" (recordShape form "AnalysisServerEntry" serverFields)
    <*> .fieldD? "debug" (recordShape form "DebugAdapterEntry" adapterFields)
    <*> .fieldD "capabilities" Toml.tableShape []

/-- A project entry. -/
def projectFields : Fields Project :=
  (fun root language => ⟨⟨root⟩, language⟩) <$> .field "root" Shape.path
    <*> .fieldD? "language" Shape.string

/-- All settings. -/
def fields (form : Form) : Fields Settings :=
  Settings.mk <$> .fieldD "log" (recordShape form "LogConfig" (logFields form)) .info
    <*> .fieldD "rpc" (recordShape form "RpcConfig" rpcFields) {}
    <*> .fieldD "languages" (named (recordShape form "LanguageConfig" (languageFields form))) []
    <*> .fieldD "projects" (named (recordShape form "ProjectEntry" projectFields)) []

/-- Read settings. -/
def shape (form : Form) : Shape Settings := recordShape form "Config" (fields form)

/-! ## Writing -/

/-- Values that are there, by key. -/
def entries (l : List (String × Option Toml)) : Toml :=
  .table (l.foldl (fun acc x => match x.2 with
    | some v => Toml.insertEntry x.1 v acc
    | none => acc) [])

/-- Texts. -/
def texts (l : List String) : Toml := .arr (l.map .str)

/-- A server entry. -/
def Server.toToml (s : Server) : Toml :=
  entries [("command", some (.str s.command)), ("args", some (texts s.args)),
    ("initialization_options", s.initializationOptions)]

/-- An adapter entry. -/
def Adapter.toToml (a : Adapter) : Toml :=
  entries [("command", some (.str a.command)), ("args", some (texts a.args)),
    ("adapter_id", some (.str a.adapterId)), ("configuration_done", a.configurationDone.map .bool),
    ("initialize", a.initialize_.map .table), ("launch", some (.table a.launch)),
    ("attach", some (.table a.attach))]

/-- A language entry. -/
def Language.toToml (l : Language) : Toml :=
  entries [("extensions", some (texts l.extensions)), ("analysis", l.analysis.map Server.toToml),
    ("debug", l.debug.map Adapter.toToml), ("capabilities", some (.table l.capabilities))]

/-- A project entry. -/
def Project.toToml (p : Project) : Toml :=
  entries [("root", some (.str p.root.text)), ("language", p.language.map .str)]

/-- All settings; what is not set is left out. -/
def toToml (s : Settings) : Toml :=
  entries [("log", some (entries [("level", some (.str s.level.name))])),
    ("rpc", some (entries [("request_timeout_secs", some (.int s.rpc.requestTimeoutSecs)),
      ("prefetch_delay_ms", some (.int s.rpc.prefetchDelayMs)),
      ("deferred_workers", some (.int s.rpc.deferredWorkers))])),
    ("languages", some (.table (s.languages.map fun x => (x.1, x.2.toToml)))),
    ("projects", some (.table (s.projects.map fun x => (x.1, x.2.toToml))))]

/-- A value or `null`. -/
def orNull (v : Option Json) : Json := v.getD .null

/-- A language entry as JSON; what is not set is `null`. -/
def Language.toJson (l : Language) : Json :=
  .obj [("extensions", .arr (l.extensions.map .str)),
    ("analysis", orNull (l.analysis.map fun s => .obj [("command", s.command), ("args", .arr (s.args.map .str)),
      ("initialization_options", orNull (s.initializationOptions.map Toml.plainJson))])),
    ("debug", orNull (l.debug.map fun a => .obj [("command", a.command), ("args", .arr (a.args.map .str)),
      ("adapter_id", a.adapterId), ("configuration_done", orNull (a.configurationDone.map .bool)),
      ("initialize", orNull (a.initialize_.map fun t => (Toml.table t).plainJson)),
      ("launch", (Toml.table a.launch).plainJson), ("attach", (Toml.table a.attach).plainJson)])),
    ("capabilities", l.features)]

/-- All settings as JSON; what is not set is `null`. -/
def toJson (s : Settings) : Json :=
  .obj [("log", .obj [("level", s.level.name)]),
    ("rpc", .obj [("request_timeout_secs", .nat s.rpc.requestTimeoutSecs),
      ("prefetch_delay_ms", .nat s.rpc.prefetchDelayMs), ("deferred_workers", .nat s.rpc.deferredWorkers)]),
    ("languages", .obj (s.languages.map fun x => (x.1, x.2.toJson))),
    ("projects", .obj (s.projects.map fun x =>
      (x.1, .obj [("root", x.2.root.text), ("language", orNull (x.2.language.map .str))])))]

/-! ## Rules -/

/-- A rule that settings break: the dotted path of the setting and what is wrong with it. -/
structure Violation where
  field : String
  problem : String
deriving DecidableEq, Repr

/-- The wording of a violation. -/
def Violation.message (v : Violation) : String := "validation error: " ++ v.field ++ ": " ++ v.problem

/-- Between one and sixteen workers. -/
def workerViolations (r : Rpc) : List Violation :=
  if r.deferredWorkers = 0 ∨ 16 < r.deferredWorkers then
    [⟨"rpc.deferred_workers", "must be 1-16, got " ++ toString r.deferredWorkers⟩]
  else []

/-- A text that has to hold more than blanks. -/
def blankViolations (field value : String) : List Violation :=
  if Text.isBlankText value then [⟨field, "must not be empty"⟩] else []

/-- Extensions without dots, commands and names that are not blank. -/
def languageViolations (id : String) (l : Language) : List Violation :=
  (l.extensions.filter fun e => e = "" || e.toList.contains '.').map (fun e =>
      ⟨"languages." ++ id ++ ".extensions", "'" ++ e ++ "' must be a bare extension without dots"⟩)
    ++ (match l.analysis with
      | some s => blankViolations ("languages." ++ id ++ ".analysis.command") s.command
      | none => [])
    ++ (match l.debug with
      | some a => blankViolations ("languages." ++ id ++ ".debug.command") a.command
        ++ blankViolations ("languages." ++ id ++ ".debug.adapter_id") a.adapterId
      | none => [])

/-- A project's language has to be known. -/
def projectViolations (s : Settings) (name : String) (p : Project) : List Violation :=
  match p.language with
  | some l =>
    if s.languages.any (·.1 = l) then []
    else [⟨"projects." ++ name ++ ".language", "unknown language '" ++ l ++ "'"⟩]
  | none => []

/-- Every broken rule, in order. -/
def violations (s : Settings) : List Violation :=
  workerViolations s.rpc
    ++ s.languages.flatMap (fun x => languageViolations x.1 x.2)
    ++ s.projects.flatMap (fun x => s.projectViolations x.1 x.2)

end Settings

end Switchboard
