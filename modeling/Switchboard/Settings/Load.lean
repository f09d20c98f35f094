import Switchboard.Disk
import Switchboard.Settings.Basic
import Switchboard.Toml.Document

/-!
# Loading settings

* `Settings.read`: settings from text;
* `Settings.merge`: a layer of text over settings;
* `Settings.load`: the user's file, made with comments only if it is missing, and over it the file of the
  nearest project directory.
-/

namespace Switchboard.Settings

/-- Why settings cannot be loaded. -/
inductive Fault where
  /-- The text is no TOML, or its values do not fit. -/
  | parse
  | cannotCreate (fault : Disk.Fault)
  | violation (v : Violation)
  | disk (fault : Disk.Fault)
deriving DecidableEq, Repr

/-- The wording of a fault. -/
def Fault.message : Fault → String
  | parse => "TOML parse error"
  | cannotCreate f => "failed to create default config: " ++ f.message
  | violation v => v.message
  | disk f => "I/O error: " ++ f.message

/-- Settings as they are written in text, rules not checked. -/
def readUnchecked (text : String) : Except Fault Settings :=
  match Toml.read? text with
  | none => throw .parse
  | some entries =>
    match shape .document (Toml.table entries).toJson with
    | .ok s => pure s
    | .error _ => throw .parse

/-- Settings that break no rule, else the first rule they break. -/
def check (s : Settings) : Except Fault Settings :=
  match s.violations with
  | [] => pure s
  | v :: _ => throw (.violation v)

/-- Settings from text. -/
def read (text : String) : Except Fault Settings := do check (← readUnchecked text)

/-- Settings from a value that layers were laid over. -/
def ofLayers (v : Toml) : Except Fault Settings :=
  match shape .layers v.textual.toJson with
  | .ok s => pure s
  | .error _ => throw .parse

/-- A layer of text over settings: tables key by key, anything else in place of what was there. -/
def merge (s : Settings) (text : String) : Except Fault Settings :=
  match Toml.read? text with
  | none => throw .parse
  | some entries => ofLayers (s.toToml.marked.overlay (.table entries))

/-! ## Files -/

/-- What a new settings file holds. -/
def starter : String :=
  "# relay configuration
# Uncomment and edit settings below to override defaults.

# [log]
# level = \"info\"

# [rpc]
# request_timeout_secs = 0     # 0 waits until the peer answers
# prefetch_delay_ms = 150
# deferred_workers = 2

# [languages.python]
# extensions = [\"py\"]
#
# [languages.python.analysis]
# command = \"pylsp\"
#
# [languages.python.debug]
# command = \"python\"
# args = [\"-m\", \"debugpy.adapter\"]
# adapter_id = \"debugpy\"
#
# [languages.python.debug.launch]
# request = \"launch\"
# program = \"$\x7bprogram\x7d\"
# args = \"$\x7bprogramArguments\x7d\"
# cwd = \"$\x7bworkingDirectory\x7d\"
# env = \"$\x7benvironment\x7d\"
#
# [languages.python.capabilities.debug.scopes]
# local = [\"Locals\"]
# static = [\"Globals\"]

# [projects.demo]
# root = \"/path/to/demo\"
# language = \"python\"
"

/-- Is there anything but blank lines and comments? -/
def hasContent (text : String) : Bool :=
  (Text.splitOnAny (· = '\n') text).any fun line =>
    let line := Text.trim line
    line ≠ "" && line.toList.head? ≠ some '#'

/-- The settings file of the nearest directory upwards that has one. -/
def projectFile? (d : Disk) (start : Path) : Option Path :=
  (start.ancestors.map fun dir => (dir.join ⟨".relay"⟩).join ⟨"config.toml"⟩).find? d.pathExists

/-- A refusal of the disk as a fault. -/
def onDisk {α : Type} (r : Except Disk.Fault α) : Except Fault α :=
  match r with
  | .ok a => pure a
  | .error e => throw (.disk e)

/-- Make the user's directory and file if they are missing. -/
def prepare (d : Disk) (directory file : Path) : Except Fault Disk × Disk :=
  match if d.pathExists directory then (pure (), d) else d.makeDirectories directory with
  | (.error e, d) => (throw (.disk e), d)
  | (.ok (), d) =>
    if d.pathExists file then (pure d, d)
    else
      match d.writeText file starter with
      | .ok d => (pure d, d)
      | .error e => (throw (.cannotCreate e), d)

/-- The settings of the user's file and the project's file. -/
def readLayers (d : Disk) (file : Path) (project : Option Path) : Except Fault Settings := do
  let text ← onDisk (d.readText file)
  let s ← if hasContent text then merge {} text else pure {}
  let s ← match project.bind (projectFile? d) with
    | some path => do merge s (← onDisk (d.readText path))
    | none => pure s
  check s

/-- Load settings; also gives the disk, on which the user's file may have been made. -/
def load (d : Disk) (directory : Path) (project : Option Path) : Except Fault Settings × Disk :=
  let file := directory.join ⟨"config.toml"⟩
  match prepare d directory file with
  | (.error e, d) => (throw e, d)
  | (.ok _, d) => (readLayers d file project, d)

end Switchboard.Settings
