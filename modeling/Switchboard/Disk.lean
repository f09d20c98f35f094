import Switchboard.Path

/-!
# The file system

* `Disk`: directories and files by absolute place, and the current directory;
* `Disk.Fault`: the refusals of the operating system, with their texts;
* reading, writing, creating, renaming and removing, each as a function to a new disk.

A path is followed piece by piece: every piece but the last has to name a directory.
-/

namespace Switchboard

/-- Refusals of the operating system, and content that is not text. -/
inductive Disk.Fault where
  | notFound
  | alreadyExists
  | notDirectory
  | isDirectory
  | invalidArgument
  | nameTooLong
  | notEmpty
  | nulInPath
  | notText
deriving DecidableEq, Repr

/-- The text of a refusal. -/
def Disk.Fault.message : Disk.Fault → String
  | notFound => "No such file or directory (os error 2)"
  | alreadyExists => "File exists (os error 17)"
  | notDirectory => "Not a directory (os error 20)"
  | isDirectory => "Is a directory (os error 21)"
  | invalidArgument => "Invalid argument (os error 22)"
  | nameTooLong => "File name too long (os error 36)"
  | notEmpty => "Directory not empty (os error 39)"
  | nulInPath => "file name contained an unexpected NUL byte"
  | notText => "stream did not contain valid UTF-8"

/-- What stands at a place. -/
inductive Disk.Entry where
  | file (content : ByteArray)
  | directory
deriving Inhabited

/-- A place: the names from the root down. -/
abbrev Disk.Place := List String

/-- Entries by place; the root is always a directory. -/
structure Disk where
  entries : List (Disk.Place × Disk.Entry) := []
  current : Disk.Place := []
deriving Inhabited

namespace Disk

/-- The entry at a place. -/
def entry? (d : Disk) (place : Place) : Option Entry :=
  if place = [] then some .directory else d.entries.lookup place

/-- Put an entry at a place. -/
def put (d : Disk) (place : Place) (e : Entry) : Disk :=
  { d with entries := d.entries.filter (·.1 ≠ place) ++ [(place, e)] }

/-- Remove a place and all below it. -/
def drop (d : Disk) (place : Place) : Disk :=
  { d with entries := d.entries.filter fun x => !place.isPrefixOf x.1 }

/-! ## Following a path -/

/-- Is the place a directory? -/
def directoryAt (d : Disk) (place : Place) : Except Fault Unit :=
  match d.entry? place with
  | some .directory => pure ()
  | some (.file _) => throw .notDirectory
  | none => throw .notFound

/-- Follow pieces from a directory; the last one need not exist. -/
def follow (d : Disk) (place : Place) : List String → Except Fault Place
  | [] => pure place
  | piece :: rest => do
    d.directoryAt place
    if piece = "." then follow d place rest
    else if piece = ".." then follow d place.dropLast rest
    else if 255 < piece.utf8ByteSize then throw .nameTooLong
    else follow d (place ++ [piece]) rest

/-- Does the spelling demand a directory? -/
def demandsDirectory (p : Path) : Bool :=
  match p.pieces.getLast? with
  | some piece => piece = "" || piece = "." || piece = ".."
  | none => false

/-- The place that a path names. -/
def place (d : Disk) (p : Path) : Except Fault Place := do
  if p.text.toList.contains '\x00' then throw .nulInPath
  if p.text = "" then throw .notFound
  d.follow (if p.isAbsolute then [] else d.current) (p.pieces.filter (· ≠ ""))

/-- The place and entry that a path names. -/
def find (d : Disk) (p : Path) : Except Fault (Place × Entry) := do
  let place ← d.place p
  match d.entry? place with
  | none => throw .notFound
  | some (.file _) => if demandsDirectory p then throw .notDirectory
  | some .directory => pure ()
  return (place, (d.entry? place).getD .directory)

/-- Can something be found at the path? -/
def pathExists (d : Disk) (p : Path) : Bool :=
  match d.find p with
  | .ok _ => true
  | .error _ => false

/-- Is there a directory at the path? -/
def isDirectory (d : Disk) (p : Path) : Bool :=
  match d.find p with
  | .ok (_, .directory) => true
  | _ => false

/-- Size of a file in bytes; a directory has the size of one block. -/
def size (d : Disk) (p : Path) : Except Fault Nat := do
  match ← d.find p with
  | (_, .file content) => return content.size
  | (_, .directory) => return 4096

/-! ## Reading and writing -/

/-- Content of a file. -/
def read (d : Disk) (p : Path) : Except Fault ByteArray := do
  match ← d.find p with
  | (_, .file content) => return content
  | (_, .directory) => throw .isDirectory

/-- Content of a file that holds text. -/
def readText (d : Disk) (p : Path) : Except Fault String := do
  match String.fromUTF8? (← d.read p) with
  | some s => return s
  | none => throw .notText

/-- Create or replace a file. -/
def write (d : Disk) (p : Path) (content : ByteArray) : Except Fault Disk := do
  let place ← d.place p
  match d.entry? place with
  | some .directory => throw .isDirectory
  | some (.file _) =>
    if demandsDirectory p then throw .notDirectory
    return d.put place (.file content)
  | none =>
    if demandsDirectory p then throw .isDirectory
    d.directoryAt place.dropLast
    return d.put place (.file content)

/-- Create or replace a file that holds text. -/
def writeText (d : Disk) (p : Path) (text : String) : Except Fault Disk := d.write p text.toUTF8

/-- Create a file unless it is there. -/
def touch (d : Disk) (p : Path) : Except Fault Disk :=
  match d.read p with
  | .ok content => d.write p content
  | .error _ => d.write p ByteArray.empty

/-- Create one directory. -/
def makeDirectory (d : Disk) (p : Path) : Except Fault Disk := do
  let place ← d.place p
  match d.entry? place with
  | some _ => throw .alreadyExists
  | none =>
    d.directoryAt place.dropLast
    return d.put place .directory

/-- Create one directory, or find it there. -/
def ensureDirectory (d : Disk) (p : Path) : Except Fault Unit × Disk :=
  match d.makeDirectory p with
  | .ok d => (pure (), d)
  | .error e => if d.isDirectory p then (pure (), d) else (throw e, d)

/-- Create a directory and those above it, given its ancestors from the nearest one up. -/
def makeDirectoriesFrom (d : Disk) : Path → List Path → Except Fault Unit × Disk
  | p, above =>
    if p.text = "" then (pure (), d)
    else
      match d.makeDirectory p, above with
      | .error .notFound, [] => (throw .notFound, d)
      | .error .notFound, q :: rest =>
        match d.makeDirectoriesFrom q rest with
        | (.ok (), d) => d.ensureDirectory p
        | (.error e, d) => (throw e, d)
      | _, _ => d.ensureDirectory p

/-- Create a directory and those above it. Those that were created before a refusal stay. -/
def makeDirectories (d : Disk) (p : Path) : Except Fault Unit × Disk :=
  d.makeDirectoriesFrom p (p.ancestors.drop 1)

/-- Remove a file. -/
def removeFile (d : Disk) (p : Path) : Except Fault Disk := do
  match ← d.find p with
  | (place, .file _) => return d.drop place
  | (_, .directory) => throw .isDirectory

/-- Move an entry with all below it. -/
def move (d : Disk) (source target : Place) : Disk :=
  let moved := d.entries.filterMap fun x =>
    if source.isPrefixOf x.1 then some (target ++ x.1.drop source.length, x.2) else none
  let rest := (d.drop source).drop target
  { rest with entries := rest.entries ++ moved }

/-- Give a file or directory another name, over a file or an empty directory of its kind. -/
def rename (d : Disk) (source target : Path) : Except Fault Disk := do
  let (src, e) ← d.find source
  let dst ← d.place target
  match e, d.entry? dst with
  | .file _, some .directory => throw .isDirectory
  | .file _, none =>
    if demandsDirectory target then throw .notDirectory
    d.directoryAt dst.dropLast
  | .file _, some (.file _) => if demandsDirectory target then throw .notDirectory
  | .directory, some (.file _) => throw .notDirectory
  | .directory, some .directory =>
    if src ≠ dst then
      if src.isPrefixOf dst then throw .invalidArgument
      if d.entries.any fun x => dst.isPrefixOf x.1 && dst ≠ x.1 then throw .notEmpty
  | .directory, none =>
    if src.isPrefixOf dst then throw .invalidArgument
    d.directoryAt dst.dropLast
  return if src = dst then d else d.move src dst

/-! ## Listing -/

/-- Everything below the current directory, by path from there. -/
def below (d : Disk) : List (String × Entry) :=
  d.entries.filterMap fun x =>
    if d.current.isPrefixOf x.1 && d.current ≠ x.1 then
      some ("/".intercalate (x.1.drop d.current.length), x.2)
    else none

/-- Put a file or directory at a place together with the directories above it. -/
def install (d : Disk) (place : Place) (e : Entry) : Disk :=
  let above := (List.range place.length).map place.take
  let d := above.foldl (fun d p => if p = [] ∨ (d.entry? p).isSome then d else d.put p .directory) d
  d.put place e

end Disk

end Switchboard
