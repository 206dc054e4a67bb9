import SemanticLayer.CommandLine.Run

/-!
# SemanticLayer.Main

The command line, on the files of the machine.
-/

namespace SemanticLayer
namespace CommandLine

/-- Read a file of the machine. -/
def readFile (path : String) : IO FileResult := do
  if path.isEmpty then return .notFound
  let target := (← IO.currentDir) / path
  if ← target.isDir then return .isDirectory
  try
    let bytes ← IO.FS.readBinFile target
    match String.fromUTF8? bytes with
    | some s => return .content s
    | none => return .notText
  catch e =>
    match e with
    | .noFileOrDirectory .. => return .notFound
    | .inappropriateType .. => return .notDirectory
    | .invalidArgument .. => return .nameTooLong
    | _ => if ← target.pathExists then throw e else return .notFound

def machine : Host IO where
  env := fun name => IO.getEnv name
  read := readFile

end CommandLine
end SemanticLayer

def main (args : List String) : IO UInt32 := do
  let outcome ← SemanticLayer.CommandLine.run SemanticLayer.CommandLine.machine args
  (← IO.getStdout).putStr outcome.stdout
  (← IO.getStderr).putStr outcome.stderr
  return outcome.exitCode
