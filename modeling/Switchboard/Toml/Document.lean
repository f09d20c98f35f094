import Switchboard.Toml.Basic
import Switchboard.Toml.Lexeme

/-!
# TOML documents

`Toml.read?` reads a document. A table is written once, either under a header or by dotted keys: a header may
not name a table that was written before, and dotted keys may not reach into a table that a header or braces
wrote, save for new tables in the last item of a list. Tables that headers only pass through can still be written later.
-/

namespace Switchboard.Toml

open Lexeme (skip lineEnd? skipLines)

/-! ## Keys -/

/-- A character of a bare key. -/
def isBareKeyChar (c : Char) : Bool := c.isAlphanum || c = '_' || c = '-'

/-- A key without dots. -/
def simpleKey (cs : List Char) : Option (String × List Char) :=
  match cs with
  | '"' :: rest => Lexeme.basic (rest.length + 1) [] rest
  | '\'' :: rest => Lexeme.literal [] rest
  | _ =>
    match cs.takeWhile isBareKeyChar with
    | [] => none
    | name => some (String.ofList name, cs.dropWhile isBareKeyChar)

/-- At most so many keys with dots and blanks between them; blanks around them are skipped. -/
def keysUpTo : Nat → List Char → Option (List String × List Char)
  | 0, _ => none
  | n + 1, cs => do
    let (k, rest) ← simpleKey (skip cs)
    match skip rest with
    | '.' :: rest =>
      let (ks, rest) ← keysUpTo n rest
      some (k :: ks, rest)
    | rest => some ([k], rest)

/-- Keys with dots between them; more than 79 are refused. -/
def dottedKey (cs : List Char) : Option (List String × List Char) := keysUpTo 79 cs

/-! ## Tables under construction -/

/-- A value, a table, or a list of tables, while a document is read. -/
inductive Node where
  | leaf (value : Toml)
  /-- `implicit`: only passed through so far; `dotted`: written by dotted keys. -/
  | table (implicit dotted : Bool) (entries : List (String × Node))
  | tables (items : List Node)
deriving Inhabited

namespace Node

mutual

/-- The value that was built. -/
def toToml : Node → Toml
  | leaf v => v
  | table _ _ entries => .table (entriesToToml entries)
  | tables items => .arr (itemsToToml items)

/-- The values of entries. -/
def entriesToToml : List (String × Node) → List (String × Toml)
  | [] => []
  | (k, n) :: rest => insertEntry k n.toToml (entriesToToml rest)

/-- The values of items. -/
def itemsToToml : List Node → List Toml
  | [] => []
  | n :: rest => n.toToml :: itemsToToml rest

end

/-- Put an entry in place of one with its key, else at the end. -/
def setEntry (k : String) (n : Node) : List (String × Node) → List (String × Node)
  | [] => [(k, n)]
  | (k', n') :: rest => if k = k' then (k, n) :: rest else (k', n') :: setEntry k n rest

/-- Change the entries of the table at the end of a path of headers, making tables along the way. -/
def descend (path : List String) (f : List (String × Node) → Option (List (String × Node)))
    (entries : List (String × Node)) : Option (List (String × Node)) :=
  match path with
  | [] => f entries
  | k :: rest =>
    match entries.lookup k with
    | none => do
      let inner ← descend rest f []
      some (setEntry k (table true false inner) entries)
    | some (table i d inner) => do
      let inner ← descend rest f inner
      some (setEntry k (table i d inner) entries)
    | some (tables items) =>
      match items.reverse with
      | table i d inner :: before => do
        let inner ← descend rest f inner
        some (setEntry k (tables (table i d inner :: before).reverse) entries)
      | _ => none
    | some (leaf _) => none

/-- Add a value under dotted keys to a table that was written by dotted keys itself or not. -/
def insertDotted (value : Toml) (dotted : Bool) : List String → List (String × Node) →
    Option (List (String × Node))
  | [], _ => none
  | [k], entries => if dotted then insertLast k entries else none
  | k :: rest, entries =>
    match entries.lookup k with
    | none => do
      let inner ← insertDotted value true rest []
      some (setEntry k (table true true inner) entries)
    | some (table true d inner) => do
      let inner ← insertDotted value d rest inner
      some (setEntry k (table true d inner) entries)
    | some (tables items) =>
      match items.reverse with
      | table i d inner :: before => do
        let inner ← insertDotted value d rest inner
        some (setEntry k (tables (table i d inner :: before).reverse) entries)
      | _ => none
    | some _ => none
where
  /-- Add a value under a key that is free. -/
  insertLast (k : String) (entries : List (String × Node)) : Option (List (String × Node)) :=
    match entries.lookup k with
    | none => some (setEntry k (leaf value) entries)
    | some _ => none

/-- Add a value under keys to the table that is being written. -/
def insertKeys (path : List String) (value : Toml) (entries : List (String × Node)) :
    Option (List (String × Node)) := insertDotted value true path entries

end Node

/-! ## Values -/

/-- Nesting of arrays and inline tables that is refused. -/
def maxDepth : Nat := 80

/-- A value that starts with a digit or a sign. -/
def numeral (cs : List Char) : Option (Toml × List Char) :=
  match Lexeme.datetime cs with
  | some (t, rest) => some (.datetime t, rest)
  | none =>
    match Lexeme.float cs with
    | some (d, rest) => some (.float d, rest)
    | none => (Lexeme.integer cs).map fun r => (.int r.1, r.2)

mutual

/-- One value. The fuel bounds the calls, `depth` the nesting left. -/
def value : Nat → Nat → List Char → Option (Toml × List Char)
  | 0, _, _ => none
  | fuel + 1, depth, cs =>
    match cs with
    | 't' :: 'r' :: 'u' :: 'e' :: rest => some (.bool true, rest)
    | 'f' :: 'a' :: 'l' :: 's' :: 'e' :: rest => some (.bool false, rest)
    | '[' :: rest => if depth ≤ 1 then none else items fuel (depth - 1) [] rest
    | '\x7b' :: rest =>
      if depth ≤ 1 then none
      else
        match skip rest with
        | '\x7d' :: rest => some (.table [], rest)
        | rest => pairs fuel (depth - 1) [] rest
    | c :: _ =>
      if c = '"' ∨ c = '\'' then (Lexeme.string cs).map fun r => (.str r.1, r.2)
      else if c.isDigit ∨ c = '+' ∨ c = '-' then numeral cs
      else (Lexeme.special cs).map fun r => (.float r.1, r.2)
    | [] => none

/-- Elements of an array after its bracket or a comma; `acc` holds those read, last one first. -/
def items : Nat → Nat → List Toml → List Char → Option (Toml × List Char)
  | 0, _, _, _ => none
  | fuel + 1, depth, acc, cs =>
    match skipLines cs.length cs with
    | ']' :: rest => some (.arr acc.reverse, rest)
    | rest =>
      match value fuel depth rest with
      | none => none
      | some (v, rest) =>
        match skipLines rest.length rest with
        | ',' :: rest => items fuel depth (v :: acc) rest
        | ']' :: rest => some (.arr (v :: acc).reverse, rest)
        | _ => none

/-- Pairs of an inline table, at least one. -/
def pairs : Nat → Nat → List (String × Node) → List Char → Option (Toml × List Char)
  | 0, _, _, _ => none
  | fuel + 1, depth, acc, cs =>
    match dottedKey cs with
    | some (path, '=' :: rest) =>
      match value fuel depth (skip rest) with
      | none => none
      | some (v, rest) =>
        match Node.insertKeys path v acc with
        | none => none
        | some acc =>
          match skip rest with
          | ',' :: rest => pairs fuel depth acc rest
          | '\x7d' :: rest => some (.table (Node.entriesToToml acc), rest)
          | _ => none
    | _ => none

end

/-! ## Documents -/

/-- A document while it is read: the tables so far, and the table that is being written. -/
structure Draft where
  root : List (String × Node) := []
  /-- The path of the header; empty for the pairs before the first one. -/
  path : List String := []
  isItem : Bool := false
  entries : List (String × Node) := []

namespace Draft

/-- Put the table that was being written into its place. -/
def finish (d : Draft) : Option (List (String × Node)) :=
  match d.path.reverse with
  | [] => some d.entries
  | k :: above =>
    let table := Node.table false false d.entries
    Node.descend above.reverse (fun entries =>
      if d.isItem then
        match entries.lookup k with
        | none => some (Node.setEntry k (.tables [table]) entries)
        | some (.tables items) => some (Node.setEntry k (.tables (items ++ [table])) entries)
        | some _ => none
      else some (Node.setEntry k table entries)) d.root

/-- Begin the table of a header; one that was only passed through keeps its entries. -/
def beginTable (d : Draft) (path : List String) : Option Draft := do
  let root ← d.finish
  match path.reverse with
  | [] => none
  | k :: above =>
    let root ← Node.descend above.reverse some root
    match find above.reverse root with
    | none => none
    | some entries =>
      match entries.lookup k with
      | none => some { root, path, isItem := false, entries := [] }
      | some (.table true false inner) => some { root, path, isItem := false, entries := inner }
      | some _ => none
where
  /-- The entries at the end of a path. -/
  find : List String → List (String × Node) → Option (List (String × Node))
    | [], entries => some entries
    | k :: rest, entries =>
      match entries.lookup k with
      | some (.table _ _ inner) => find rest inner
      | some (.tables items) =>
        match items.getLast? with
        | some (.table _ _ inner) => find rest inner
        | _ => none
      | _ => none

/-- Begin a further table of a list. -/
def beginItem (d : Draft) (path : List String) : Option Draft := do
  let root ← d.finish
  match path.reverse with
  | [] => none
  | k :: above =>
    let root ← Node.descend above.reverse (fun entries =>
      match entries.lookup k with
      | none => some entries
      | some (.tables _) => some entries
      | some _ => none) root
    some { root, path, isItem := true, entries := [] }

end Draft

/-- The lines of a document. -/
def lines : Nat → Draft → List Char → Option Draft
  | 0, _, _ => none
  | fuel + 1, d, cs =>
    match skip cs with
    | [] => some d
    | '[' :: '[' :: rest =>
      match dottedKey rest with
      | some (path, ']' :: ']' :: rest) =>
        match d.beginItem path, lineEnd? rest with
        | some d, some rest => lines fuel d rest
        | _, _ => none
      | _ => none
    | '[' :: rest =>
      match dottedKey rest with
      | some (path, ']' :: rest) =>
        match d.beginTable path, lineEnd? rest with
        | some d, some rest => lines fuel d rest
        | _, _ => none
      | _ => none
    | rest =>
      match lineEnd? rest with
      | some after => lines fuel d after
      | none =>
        match dottedKey rest with
        | some (path, '=' :: rest) =>
          match value (2 * rest.length + 2) maxDepth (skip rest) with
          | some (v, rest) =>
            match Node.insertKeys path v d.entries, lineEnd? rest with
            | some entries, some rest => lines fuel { d with entries } rest
            | _, _ => none
          | none => none
        | _ => none

/-- Drop a mark of the byte order. -/
def dropMark : List Char → List Char
  | '\uFEFF' :: rest => rest
  | cs => cs

/-- Read a document: the entries of its outermost table. -/
def read? (text : String) : Option (List (String × Toml)) := do
  let cs := dropMark text.toList
  let d ← lines (cs.length + 2) {} cs
  let root ← d.finish
  return Node.entriesToToml root

end Switchboard.Toml
