import Switchboard.Process
import Switchboard.Text.Utf8

/-!
# A small shell

`Shell.script` turns a line of shell commands, parted by semicolons, into what its process does: `head -c`
reads, `echo` and `printf` write, `exit` ends. Other commands do nothing.
-/

namespace Switchboard.Shell

/-- What a command line is made of. -/
inductive Token where
  | word (text : String)
  /-- Output goes elsewhere, where the next word says. -/
  | redirect
  | semicolon
deriving DecidableEq, Repr

/-- Which quotes are open. -/
inductive Quote where
  | none
  | single
  | double
deriving DecidableEq, Repr

/-- The tokens of a line. A word that has begun is in `current`, last character first. -/
def tokens (quote : Quote) (current : Option (List Char)) : List Char → List Token
  | [] => (current.map fun w => Token.word (String.ofList w.reverse)).toList
  | c :: rest =>
    let finished := (current.map fun w => Token.word (String.ofList w.reverse)).toList
    let longer := some (c :: current.getD [])
    match quote with
    | .single => if c = '\'' then tokens .none (some (current.getD [])) rest else tokens .single longer rest
    | .double =>
      if c = '"' then tokens .none (some (current.getD [])) rest
      else if c = '\\' then
        match rest with
        | e :: rest =>
          if e ∈ ['"', '\\', '$', '\x60'] then tokens .double (some (e :: current.getD [])) rest
          else tokens .double (some (e :: c :: current.getD [])) rest
        | [] => tokens .double longer []
      else tokens .double longer rest
    | .none =>
      if c = '\'' then tokens .single (some (current.getD [])) rest
      else if c = '"' then tokens .double (some (current.getD [])) rest
      else if c = ';' then finished ++ Token.semicolon :: tokens .none none rest
      else if c = '>' then finished ++ Token.redirect :: tokens .none none rest
      else if c = ' ' then finished ++ tokens .none none rest
      else tokens .none longer rest

/-- One command: its words, and whether its output stays on the standard stream. -/
structure Command where
  words : List String := []
  visible : Bool := true
deriving Repr, Inhabited

/-- The commands of a line. -/
def commands (current : Command) : List Token → List Command
  | [] => [current]
  | .semicolon :: rest => current :: commands {} rest
  | .redirect :: .word _ :: rest => commands { current with visible := false } rest
  | .redirect :: rest => commands { current with visible := false } rest
  | .word w :: rest => commands { current with words := current.words ++ [w] } rest

/-- A text with its escapes carried out. -/
def unescape : List Char → List Char
  | '\\' :: 'n' :: rest => '\n' :: unescape rest
  | '\\' :: 'r' :: rest => '\x0d' :: unescape rest
  | '\\' :: 't' :: rest => '\t' :: unescape rest
  | '\\' :: '\\' :: rest => '\\' :: unescape rest
  | '\\' :: '"' :: rest => '"' :: unescape rest
  | '%' :: '%' :: rest => '%' :: unescape rest
  | c :: rest => c :: unescape rest
  | [] => []

/-- Text on the standard stream. -/
def put (c : Command) (text : List Char) : Script :=
  if c.visible then [.put (Utf8.encode (String.ofList text))] else []

/-- What a line of commands does. -/
def steps : List Command → Script
  | [] => []
  | c :: rest =>
    match c.words with
    | "exit" :: _ => []
    | ["head", "-c", n] => .take (n.toNat?.getD 0) :: steps rest
    | "echo" :: words => put c (unescape (" ".intercalate words ++ "\n").toList) ++ steps rest
    | "printf" :: format :: _ => put c (unescape format.toList) ++ steps rest
    | _ => steps rest

/-- What the process of a line does. -/
def script (line : String) : Script := steps (commands {} (tokens .none none line.toList))

/-- The shell is the only program that can be started. -/
def programs : Programs := fun command args =>
  match command, args with
  | "sh", ["-c", line] => some (script line)
  | "sh", _ => some []
  | _, _ => none

end Switchboard.Shell
