import Switchboard.Json.Shape
import Switchboard.Path

/-!
# Messages to analysis servers

* `DocumentUri`: servers address documents by URI: the scheme `file`, an empty host and the absolute path as it is;
* `initializeParams`: how a client introduces itself to a server for one workspace;
* `opened`, `changed`, `document`: what a server is told of documents;
* `Legend`: a server numbers the types of tokens and gives one bit to each modifier; the legend tells their names.
-/

namespace Switchboard.Analysis

open Json (Shape Fields)

/-! ## Addresses -/

namespace DocumentUri

/-- The scheme and the empty host. -/
def scheme : String := "file://"

/-- The address of a path, which starts at the directory `current` unless it is absolute. -/
def ofPath (current path : Path) : String := scheme ++ (if path.isAbsolute then path else current.join path).text

/-- The text after a given start. -/
def after? : List Char → List Char → Option (List Char)
  | [], cs => some cs
  | s :: ss, c :: cs => if s = c then after? ss cs else none
  | _ :: _, [] => none

/-- The path of an address, if it has this scheme. -/
def toPath? (uri : String) : Option Path := (after? scheme.toList uri.toList).map fun cs => ⟨String.ofList cs⟩

end DocumentUri

/-! ## Introductions and documents -/

/-- How to start a server in a workspace. -/
structure Server where
  language : String
  command : String
  args : List String := []
  workspace : Path
  /-- Passed on as they are when the server is initialized. -/
  initializationOptions : Option Json := none
deriving BEq, Repr, Inhabited

/-- What the client can do with documents. -/
def documentCapabilities : Json :=
  .obj [("completion", .obj [("completionItem", .obj [("documentationFormat", .arr ["plaintext", "markdown"]),
      ("snippetSupport", false)])]),
    ("definition", .obj [("dynamicRegistration", false), ("linkSupport", false)]),
    ("documentSymbol", .obj [("dynamicRegistration", false), ("hierarchicalDocumentSymbolSupport", true)]),
    ("hover", .obj [("contentFormat", .arr ["markdown", "plaintext"])]),
    ("publishDiagnostics", .obj [("relatedInformation", false)]),
    ("references", .obj [("dynamicRegistration", false)]),
    ("semanticTokens", .obj [("dynamicRegistration", false), ("formats", .arr ["relative"]),
      ("requests", .obj [("full", true), ("range", false)]), ("tokenModifiers", .arr []),
      ("tokenTypes", .arr [])]),
    ("synchronization", .obj [("didSave", true), ("dynamicRegistration", false), ("willSave", false)])]

/-- What the client can do. -/
def clientCapabilities : Json :=
  .obj [("textDocument", documentCapabilities),
    ("workspace", .obj [("configuration", false), ("workspaceFolders", true)])]

/-- The introduction to a server. -/
def initializeParams (server : Server) (current : Path) (processId : Nat) : Json :=
  let uri := DocumentUri.ofPath current server.workspace
  let name := server.workspace.fileName?.getD uri
  .record [("capabilities", some clientCapabilities),
    ("clientInfo", some (.obj [("name", "relay"), ("version", "0.1.0")])),
    ("initializationOptions", server.initializationOptions),
    ("processId", some (.nat processId)), ("rootPath", some server.workspace.text), ("rootUri", some uri),
    ("workspaceFolders", some (.arr [.obj [("name", name), ("uri", uri)]]))]

/-- A document was opened; versions start at one. -/
def opened (language uri text : String) : Json :=
  .obj [("textDocument", .obj [("languageId", language), ("text", text), ("uri", uri), ("version", .int 1)])]

/-- A document has another text. -/
def changed (uri : String) (version : Int) (text : String) : Json :=
  .obj [("contentChanges", .arr [.obj [("text", text)]]),
    ("textDocument", .obj [("uri", uri), ("version", .int version)])]

/-- Something happened to a document. -/
def document (uri : String) : Json := .obj [("textDocument", .obj [("uri", uri)])]

/-! ## Legends -/

/-- The names of token types and token modifiers, in the order of their numbers. -/
structure Legend where
  tokenTypes : List String := []
  tokenModifiers : List String := []
deriving DecidableEq, Repr, Inhabited

namespace Legend

/-- The name of a type. -/
def tokenType? (l : Legend) (index : Nat) : Option String := l.tokenTypes[index]?

/-- How many modifiers a set of bits can hold. -/
def modifierLimit : Nat := 32

/-- The names of the modifiers in a set of bits. -/
def modifiers (l : Legend) (bits : Nat) : List String :=
  ((l.tokenModifiers.take modifierLimit).zipIdx.filter fun x => bits.testBit x.2).map (·.1)

/-- A legend as JSON. -/
def toJson (l : Legend) : Json :=
  .obj [("tokenTypes", .arr (l.tokenTypes.map .str)), ("tokenModifiers", .arr (l.tokenModifiers.map .str))]

/-- Read a legend. -/
def shape : Shape Legend :=
  (Legend.mk <$> Fields.fieldD "tokenTypes" (Shape.list Shape.string) []
    <*> Fields.fieldD "tokenModifiers" (Shape.list Shape.string) []).shape "SemanticTokenLegend"

end Legend

end Switchboard.Analysis
