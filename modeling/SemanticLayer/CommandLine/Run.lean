import SemanticLayer.Codec.Resolution
import SemanticLayer.CommandLine.Arguments
import SemanticLayer.CommandLine.Help
import SemanticLayer.Json.Reader
import SemanticLayer.Resolution.Pipeline
import SemanticLayer.Settings

/-!
# SemanticLayer.CommandLine.Run

The commands: `compile` prints the SQL of a request, `graph` the join graph of table schemas, and
`validate` checks the joins of a request.
-/

namespace SemanticLayer
namespace CommandLine

/-- What comes of reading a file. -/
inductive FileResult where
  | content (s : String)
  | notFound
  | isDirectory
  /-- A file stands where the path needs a directory. -/
  | notDirectory
  /-- The path or a part of it is longer than paths may be. -/
  | nameTooLong
  /-- The content is no text. -/
  | notText
deriving DecidableEq, Repr

namespace FileResult

/-- There is something under the path. -/
def isThere : FileResult → Bool
  | notFound | notDirectory | nameTooLong => false
  | _ => true

/-- The content, or the reason why there is none. -/
def toExcept : FileResult → Except String String
  | content s => .ok s
  | notFound => .error "No such file or directory (os error 2)"
  | isDirectory => .error "Is a directory (os error 21)"
  | notDirectory => .error "Not a directory (os error 20)"
  | nameTooLong => .error "File name too long (os error 36)"
  | notText => .error "stream did not contain valid UTF-8"

end FileResult

/-- What the command line needs from outside. -/
structure Host (m : Type → Type) where
  env : String → m (Option String)
  read : String → m FileResult

inductive Outcome where
  | printed (text : String)
  | failed (text : String)
  | badSettings (e : SettingsError)
  /-- The document in a file does not hold what the command needs. -/
  | badDocument (file : String)
  | misuse
deriving DecidableEq, Repr

namespace Outcome

def exitCode : Outcome → UInt32
  | printed _ => 0
  | misuse => 2
  | _ => 1

def stdout : Outcome → String
  | printed text => text
  | _ => ""

def stderr : Outcome → String
  | printed _ => ""
  | failed text => text
  | badSettings e => "Config error: " ++ e.message ++ "\n"
  | badDocument file => "Error parsing '" ++ file ++ "': unexpected document\n"
  | misuse => usage none

end Outcome

/-! ## Settings -/

def settingsOf (path : String) (result : FileResult) : Except SettingsError Settings :=
  if result.isThere then
    match result.toExcept with
    | .ok content => Settings.ofToml content
    | .error reason => .error (.unreadable reason)
  else .error (.fileNotFound path)

/-- The settings from the named file, else from the file the environment names, else from
`cubeweave.toml` if it is there. -/
def loadSettings {m : Type → Type} [Monad m] (host : Host m) (config : Option String) :
    m (Except SettingsError Settings) := do
  match config with
  | some path => return settingsOf path (← host.read path)
  | none =>
    match ← host.env "CUBEWEAVE_CONFIG" with
    | some path => return settingsOf path (← host.read path)
    | none =>
      let result ← host.read "cubeweave.toml"
      if result.isThere then return settingsOf "cubeweave.toml" result else return .ok {}

/-! ## Commands -/

def compileCommand (style : KeyStyle) (request : Request) : Outcome :=
  match ((Resolution.compile (Compiler.sql style) style request).run.run ()).1 with
  | .ok sql => .printed (sql ++ "\n")
  | .error e =>
    .failed ("Compilation error (" ++ e.category.name ++ "): " ++ e.message ++ "\n")

def edgeLine (e : JoinEdge) : String :=
  "  - " ++ e.source ++ " -> " ++ e.target ++ " on " ++ e.column ++ " (" ++ e.condition ++ ")\n"

def graphReport (file : String) (g : JoinGraph) : String :=
  "File: " ++ file ++ "\n\n"
    ++ if g.edges.isEmpty then "No joins declared.\n"
      else "Edges:\n" ++ String.join (g.edges.map edgeLine)
        ++ "\nStarting tables: " ++ ", ".intercalate g.startingTables ++ "\n"
        ++ (if g.hasCycle then "Warning: join declarations form a cycle\n" else "")

def graphCommand (file : String) (schemas : List TableSchema) : Outcome :=
  match JoinGraph.build schemas (tableSql schemas) with
  | .ok g => .printed (graphReport file g)
  | .error e => .failed ("Graph error: " ++ e.message ++ "\n")

/-- The joins of the used schemas form a graph, and the join paths run in no loop. -/
def checkJoins (request : Request) : Except CompileError Unit := do
  let used := usedSchemas request.tableSchemas request.query
  let _ ← JoinGraph.build used (tableSql used)
  JoinPath.validate request.query.joinPaths

def validateCommand (file : String) (request : Request) : Outcome :=
  match checkJoins request with
  | .ok _ => .printed ("OK: " ++ file ++ " is valid\n")
  | .error e => .failed ("Validation errors:\n  " ++ e.message ++ "\n")

/-- Decode the document in a file and go on with what it holds. -/
def withDocument {α : Type} (file : String) (result : FileResult) (d : Decoder α)
    (k : α → Outcome) : Outcome :=
  match result.toExcept with
  | .error reason => .failed ("Error reading file '" ++ file ++ "': " ++ reason ++ "\n")
  | .ok source =>
    match (Json.parse source).bind d.run with
    | some a => k a
    | none => .badDocument file

def runCommand (settings : Settings) (command : Command) (file : String) (result : FileResult) :
    Outcome :=
  match command with
  | .compile => withDocument file result Request.decode (compileCommand settings.keyStyle)
  | .graph => withDocument file result (Decoder.list TableSchema.decode) (graphCommand file)
  | .validate => withDocument file result Request.decode (validateCommand file)

def run {m : Type → Type} [Monad m] (host : Host m) (args : List String) : m Outcome := do
  match Invocation.ofArgs args with
  | .misuse => return .misuse
  | .help command => return .printed (helpText command)
  | .version => return .printed "cubeweave 0.1.0\n"
  | .run config command file =>
    match ← loadSettings host config with
    | .error e => return .badSettings e
    | .ok settings => return runCommand settings command file (← host.read file)

end CommandLine
end SemanticLayer
