import Switchboard.Debug.Breakpoint

/-!
# The breakpoint catalog

All breakpoints in order of their ids. On one line of one file there is at most one line breakpoint, and
there is at most one exception breakpoint. Every operation that adds a breakpoint keeps both rules.

A line breakpoint is anchored to an offset of its file. When the file is edited its anchors move, and the breakpoint follows
them.

* `anchorIn?`: the anchor of a line and column;
* `currentLine?`: the line that an anchor is on now;
* `Catalog.followAll`: every breakpoint of a file goes where its anchor is.
-/

namespace Switchboard.Debug

/-- All breakpoints, in order of their ids. -/
structure Breakpoint.Catalog where
  nextId : Nat := 1
  entries : List Breakpoint := []
  /-- The id of the exception breakpoint. -/
  exceptionId : Option Nat := none
deriving DecidableEq, Repr, Inhabited

namespace Breakpoint.Catalog

/-- Identifiers have 64 bits. -/
def idLimit : Nat := 0x10000000000000000

/-- The breakpoint of an id. -/
def get? (c : Catalog) (id : Nat) : Option Breakpoint := c.entries.find? (·.id = id)

/-- The breakpoint on a line of a file. -/
def findLine? (c : Catalog) (path : Path) (line : Nat) : Option Breakpoint :=
  c.entries.find? (·.isAt path line)

/-- The exception breakpoint. -/
def exception? (c : Catalog) : Option Breakpoint := c.exceptionId.bind c.get?

/-- Put a breakpoint into a list ordered by id. -/
def insertOrdered (b : Breakpoint) : List Breakpoint → List Breakpoint
  | [] => [b]
  | x :: rest =>
    if b.id < x.id then b :: x :: rest
    else if b.id = x.id then b :: rest
    else x :: insertOrdered b rest

/-- Change the breakpoint of an id. -/
def modify (c : Catalog) (id : Nat) (f : Breakpoint → Breakpoint) : Catalog :=
  { c with entries := c.entries.map fun b => if b.id = id then f b else b }

/-- The next id, and the catalog that gave it out. -/
def allocate (c : Catalog) : Nat × Catalog := (c.nextId, { c with nextId := (c.nextId + 1) % idLimit })

/-- Take in a stored breakpoint, unless its place or its id is taken. -/
def restore (c : Catalog) (b : Breakpoint) : Catalog :=
  let duplicate := match b.kind with
    | .line _ path line _ _ => (c.findLine? path line).isSome
    | .exception _ _ => c.exceptionId.isSome
  if duplicate || (c.get? b.id).isSome then c
  else
    { nextId := max c.nextId ((b.id + 1) % idLimit)
      entries := insertOrdered b c.entries
      exceptionId := if b.isException then some b.id else c.exceptionId }

/-- The catalog of stored breakpoints; of two for one place the first one is kept. -/
def ofList (breakpoints : List Breakpoint) : Catalog := breakpoints.foldl restore {}

/-- Add a line breakpoint, unless there is one on that line. -/
def addLine (c : Catalog) (project : String) (path : Path) (line : Nat) (column : Option Nat)
    (anchor : Option Text.Anchor) : Option Nat × Catalog :=
  if (c.findLine? path line).isSome then (none, c)
  else
    let (id, c) := c.allocate
    (some id, { c with entries := insertOrdered { id, kind := .line project path line column anchor } c.entries })

/-- Set the flags of the exception breakpoint, which is made if there is none. Says its id and whether it was made. -/
def setException (c : Catalog) (caught uncaught : Bool) : (Nat × Bool) × Catalog :=
  match c.exception? with
  | some b => ((b.id, false), c.modify b.id fun b => { b with kind := .exception caught uncaught })
  | none =>
    let (id, c) := c.allocate
    ((id, true),
      { c with
        entries := insertOrdered { id, kind := .exception caught uncaught } c.entries
        exceptionId := some id })

/-- Remove a breakpoint. -/
def remove (c : Catalog) (id : Nat) : Option Breakpoint × Catalog :=
  match c.get? id with
  | none => (none, c)
  | some b =>
    (some b,
      { c with
        entries := c.entries.filter (·.id ≠ id)
        exceptionId := if c.exceptionId = some id then none else c.exceptionId })

/-- Remove every breakpoint; gives those removed in order of their ids. -/
def clear (c : Catalog) : List Breakpoint × Catalog :=
  (c.entries, { c with entries := [], exceptionId := none })

/-- Line breakpoints of a file, ordered by line. -/
def forFile (c : Catalog) (path : Path) : List Breakpoint :=
  (c.entries.filter (·.isIn path)).mergeSort fun a b => a.line?.getD 0 ≤ b.line?.getD 0

/-- The file of a line breakpoint with its project. -/
def fileOf? (b : Breakpoint) : Option (String × Path) :=
  match b.kind with
  | .line project path _ _ _ => some (project, path)
  | .exception _ _ => none

/-- Files without those whose path came before. -/
def distinctFiles : List (String × Path) → List (String × Path) → List (String × Path)
  | _, [] => []
  | seen, f :: rest =>
    if seen.any fun g => g.2.same f.2 then distinctFiles seen rest
    else f :: distinctFiles (f :: seen) rest

/-- The files that have line breakpoints, each with the project of its first breakpoint, in order. -/
def files (c : Catalog) : List (String × Path) :=
  (distinctFiles [] (c.entries.filterMap fileOf?)).mergeSort fun a b =>
    a.1 < b.1 || (a.1 = b.1 && !b.2.lt a.2)

/-- A line breakpoint on another line, with a new anchor if one is given. -/
def moved (line : Nat) (anchor : Option Text.Anchor) (b : Breakpoint) : Breakpoint :=
  match b.kind with
  | .line project path _ column old => { b with kind := .line project path line column (anchor <|> old) }
  | .exception _ _ => b

/-- Move a line breakpoint to a line that is free, with a new anchor if one is given. -/
def relocate (c : Catalog) (id line : Nat) (anchor : Option Text.Anchor) : Bool × Catalog :=
  match (c.get? id).bind Breakpoint.path? with
  | none => (false, c)
  | some path =>
    match c.findLine? path line with
    | some other => if other.id ≠ id then (false, c) else (true, c.modify id (moved line anchor))
    | none => (true, c.modify id (moved line anchor))

/-- Record the answers of the adapter, matched with the ids by position. Gives the ids whose verification changed. -/
def applyVerification (c : Catalog) : List Nat → List BreakpointResponse → List Nat × Catalog
  | id :: ids, r :: rs =>
    let v := some (Verification.ofResponse r)
    match c.get? id with
    | some b =>
      if b.verification = v then c.applyVerification ids rs
      else
        let (changed, c) := (c.modify id fun b => { b with verification := v }).applyVerification ids rs
        (id :: changed, c)
    | none => c.applyVerification ids rs
  | _, _ => ([], c)

end Breakpoint.Catalog

/-! ## Anchors -/

namespace Breakpoint

/-- The anchor of a line and column, both counted from one, if the file has that place. -/
def anchorIn? (f : Text.Lines) (line : Nat) (column : Option Nat) : Option Text.Anchor :=
  match f.offsetOf (.ofOneBased line (column.getD 1)) with
  | .ok n => some (f.anchorAt n)
  | .error _ => none

/-- Line numbers have 32 bits. -/
def lineLimit : Nat := 0x100000000

/-- The offset of an anchor that has moved by `drift` since it was issued. -/
def driftedOffset? (f : Text.Lines) (drift : Int) (a : Text.Anchor) : Option Nat :=
  (f.resolve? a).bind fun n => if 0 ≤ (n : Int) + drift then some ((n : Int) + drift).toNat else none

/-- The line, counted from one, that an anchor is on now. -/
def currentLine? (f : Text.Lines) (drift : Int) (a : Text.Anchor) : Option Nat :=
  (driftedOffset? f drift a).bind fun n =>
    match f.positionOf n with
    | .ok p => if p.line + 1 < lineLimit then some (p.line + 1) else none
    | .error _ => none

/-- Send one breakpoint to where its anchor is; one without an anchor is anchored where it is. Gives the
breakpoint if it has moved. -/
def Catalog.follow (f : Text.Lines) (drift : Int) (c : Catalog) (b : Breakpoint) : Option Breakpoint × Catalog :=
  match b.kind with
  | .exception _ _ => (none, c)
  | .line _ _ line column none =>
    match anchorIn? f line column with
    | some a => (none, (c.relocate b.id line (some a)).2)
    | none => (none, c)
  | .line _ _ line _ (some a) =>
    match currentLine? f drift a with
    | none => (none, c)
    | some now =>
      if now = line then (none, c)
      else
        let (moved, c) := c.relocate b.id now none
        (if moved then c.get? b.id else none, c)

/-- Send breakpoints one after the other to where their anchors are. Gives those that have moved. -/
def Catalog.followAll (f : Text.Lines) (drift : Int) : List Breakpoint → Catalog → List Breakpoint × Catalog
  | [], c => ([], c)
  | b :: rest, c =>
    let (moved, c) := c.follow f drift b
    let (more, c) := followAll f drift rest c
    (moved.toList ++ more, c)

end Breakpoint

end Switchboard.Debug
