import SemanticLayer.CommandLine.Arguments

/-!
# SemanticLayer.CommandLine.Help

The texts that explain the command line.
-/

namespace SemanticLayer
namespace CommandLine

namespace Command

def name : Command → String
  | compile => "compile"
  | graph => "graph"
  | validate => "validate"

def summary : Command → String
  | compile => "Compile a request to SQL, resolving configured columns"
  | graph => "Print the join graph declared by a list of table schemas"
  | validate => "Check a request's join declarations and join paths without compiling"

/-- What the file of a command holds. -/
def fileSummary : Command → String
  | compile | validate => "Path to the request JSON file"
  | graph => "Path to a JSON array of table schemas"

end Command

def usage : Option Command → String
  | none => "Usage: cubeweave [OPTIONS] <COMMAND>\n"
  | some command => "Usage: cubeweave " ++ command.name ++ " [OPTIONS] <FILE>\n"

def sharedOptions : String :=
  "Options:\n"
    ++ "  -c, --config <CONFIG>  Path to a cubeweave.toml "
    ++ "(defaults to $CUBEWEAVE_CONFIG or ./cubeweave.toml)\n"
    ++ "  -h, --help             Print help\n"

def commandList : String :=
  "Commands:\n"
    ++ "  compile   " ++ Command.compile.summary ++ "\n"
    ++ "  graph     " ++ Command.graph.summary ++ "\n"
    ++ "  validate  " ++ Command.validate.summary ++ "\n"
    ++ "  help      Print this message or the help of the given subcommand(s)\n"

def helpText : Option Command → String
  | none =>
    "Cubeweave - compile multi-table cube queries to SQL\n\n" ++ usage none ++ "\n" ++ commandList
      ++ "\n" ++ sharedOptions ++ "  -V, --version          Print version\n"
  | some command =>
    command.summary ++ "\n\n" ++ usage (some command) ++ "\nArguments:\n  <FILE>  "
      ++ command.fileSummary ++ "\n\n" ++ sharedOptions

end CommandLine
end SemanticLayer
