import SemanticLayer.Statement.Compile

/-!
# SemanticLayer.Resolution.Compiler

Query compilers as resolution uses them. A compiler answers one call at a time and may keep a state
between calls.
-/

namespace SemanticLayer

/-- What a query compiler is asked. -/
structure Call where
  query : Query
  schemas : List TableSchema
  context : Option ContextParams

/-- A computation that calls a query compiler with the state `σ`. The state stays when it fails. -/
abbrev Calling (σ α : Type) := ExceptT CompileError (StateM σ) α

/-- A step that calls no compiler. -/
def Calling.ofExcept {σ α : Type} (r : Except CompileError α) : Calling σ α := ExceptT.mk (pure r)

abbrev Compiler (σ : Type) := Call → Calling σ String

namespace Compiler

/-- The compiler to SQL. It has no state and passes over the context. -/
def sql {σ : Type} (style : KeyStyle) : Compiler σ := fun call =>
  .ofExcept (compileQuery style call.query call.schemas)

/-- A call and its answer. -/
structure Answered where
  call : Call
  answer : Except CompileError String

/-- A compiler that keeps a list of its calls and their answers, the last one in front. -/
def recorded {σ : Type} (compiler : Compiler σ) : Compiler (σ × List Answered) := fun call =>
  ExceptT.mk fun s =>
    let (answer, inner) := (compiler call).run s.1
    (answer, (inner, { call, answer } :: s.2))

/-- A compiler that fails at the call of the given number, counted from zero, if one is given. -/
def failingAt {σ : Type} (number : Option Nat) (e : CompileError) (compiler : Compiler σ) :
    Compiler (Nat × σ) := fun call =>
  ExceptT.mk fun s =>
    if number = some s.1 then (.error e, (s.1 + 1, s.2))
    else
      let (answer, inner) := (compiler call).run s.2
      (answer, (s.1 + 1, inner))

/-- A compiler that always gives the same answer. -/
def always {σ : Type} (sql : String) : Compiler σ := fun _ => pure sql

end Compiler

end SemanticLayer
