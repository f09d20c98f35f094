import Switchboard.Debug.Launch

/-!
# The launch catalog

Launch configurations in order of their ids, and working copies. A saved configuration changes only when its
working copy is committed; one that was never saved is its own working copy.
-/

namespace Switchboard.Debug

/-- All launch configurations, in order of their ids, and the working copies of saved ones. -/
structure Launch.Catalog where
  nextId : Nat := 1
  entries : List Launch := []
  working : List (Nat × Launch) := []
deriving DecidableEq, Repr, Inhabited

namespace Launch.Catalog

/-- Identifiers have 64 bits. -/
def idLimit : Nat := 0x10000000000000000

/-- The configuration of an id. -/
def get? (c : Catalog) (id : Nat) : Option Launch := c.entries.find? (·.id = id)

/-- The configuration of an id, which has to be there. -/
def require (c : Catalog) (id : Nat) : Except Fault Launch :=
  match c.get? id with
  | some l => pure l
  | none => throw (.unknownLaunch id)

/-- Put a configuration into a list ordered by id. -/
def insertOrdered (l : Launch) : List Launch → List Launch
  | [] => [l]
  | x :: rest =>
    if l.id < x.id then l :: x :: rest
    else if l.id = x.id then l :: rest
    else x :: insertOrdered l rest

/-- Change the configuration of an id. -/
def modify (c : Catalog) (id : Nat) (f : Launch → Launch) : Catalog :=
  { c with entries := c.entries.map fun l => if l.id = id then f l else l }

/-- Take in a stored configuration, unless its id is taken. -/
def restore (c : Catalog) (l : Launch) : Catalog :=
  if (c.get? l.id).isSome then c
  else
    { c with
      nextId := max c.nextId ((l.id + 1) % idLimit)
      entries := insertOrdered { l with saved := true } c.entries }

/-- The catalog of stored configurations, all of them saved. -/
def ofList (launches : List Launch) : Catalog := launches.foldl restore {}

/-- Add a configuration under a new id. -/
def add (c : Catalog) (make : Nat → Launch) : Nat × Catalog :=
  (c.nextId,
    { c with nextId := (c.nextId + 1) % idLimit, entries := insertOrdered (make c.nextId) c.entries })

/-- Create a configuration that is not saved. -/
def create (c : Catalog) (name language project : String) (mode : Mode) : Nat × Catalog :=
  c.add fun id => { id, name, language, mode, project }

/-- Copy a configuration under a new id; the copy is saved. -/
def clone (c : Catalog) (id : Nat) : Except Fault (Nat × Catalog) := do
  let source ← c.require id
  return c.add fun id => { source with id, name := source.name ++ " (copy)", saved := true }

/-- The working copy of a configuration: itself unless it is saved, else a copy that is kept. -/
def workingCopy (c : Catalog) (id : Nat) : Except Fault (Launch × Catalog) := do
  let l ← c.require id
  if !l.saved then return (l, c)
  else
    match c.working.lookup id with
    | some w => return (w, c)
    | none => return (l, { c with working := c.working ++ [(id, l)] })

/-- Change the working copy of a configuration. -/
def edit (c : Catalog) (id : Nat) (f : Launch → Launch) : Except Fault (Launch × Catalog) := do
  let (w, c) ← c.workingCopy id
  let w := f w
  if c.working.any (·.1 = id) ∧ ((c.get? id).map (·.saved)).getD false then
    return (w, { c with working := c.working.map fun x => if x.1 = id then (id, w) else x })
  else return (w, c.modify id fun _ => w)

/-- What a commit takes over from the working copy. -/
def fold (entry copy : Launch) : Launch :=
  { entry with
    name := copy.name, type := copy.type, mode := copy.mode, project := copy.project
    attributes := copy.attributes }

/-- Fold the working copy into its configuration. Says whether there was one. -/
def commit (c : Catalog) (id : Nat) : Except Fault (Bool × Catalog) := do
  let _ ← c.require id
  match c.working.lookup id with
  | none => return (false, c)
  | some copy =>
    let c := { c with working := c.working.filter (·.1 ≠ id) }
    return (true, c.modify id fun l => fold l copy)

/-- Commit and mark as saved. -/
def save (c : Catalog) (id : Nat) : Except Fault Catalog := do
  let (_, c) ← c.commit id
  return c.modify id fun l => { l with saved := true }

/-- Remove a configuration and its working copy. A working copy goes even when nothing else is there. -/
def delete (c : Catalog) (id : Nat) : Except Fault Launch × Catalog :=
  let c := { c with working := c.working.filter (·.1 ≠ id) }
  match c.get? id with
  | some l => (pure l, { c with entries := c.entries.filter (·.id ≠ id) })
  | none => (throw (.unknownLaunch id), c)

/-- The configurations that belong on disk. -/
def saved (c : Catalog) : List Launch := c.entries.filter (·.saved)

end Launch.Catalog

end Switchboard.Debug
