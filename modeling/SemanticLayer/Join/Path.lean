import SemanticLayer.Error
import SemanticLayer.Query

/-!
# SemanticLayer.Join.Path

Join paths that run in a loop are rejected.
-/

namespace SemanticLayer
namespace JoinPath

def hops (path : JoinPath) : List Hop := path.filterMap (·.hop?)

/-- The tables a path reaches after its origin. -/
def targets (path : JoinPath) : List String := path.hops.map (·.right)

/-- The path comes to a table for a second time. -/
def hasLoop (path : JoinPath) : Bool :=
  match path.origin with
  | none => false
  | some origin => !decide (origin :: path.targets).Nodup

def anyLoop (paths : List JoinPath) : Bool := paths.any hasLoop

def validate (paths : List JoinPath) : Except CompileError Unit :=
  if anyLoop paths then .error (.loopDetected (", ".intercalate (paths.map render))) else .ok ()

end JoinPath
end SemanticLayer
