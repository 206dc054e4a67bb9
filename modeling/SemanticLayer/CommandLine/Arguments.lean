import SemanticLayer.Text.Substitution

/-!
# SemanticLayer.CommandLine.Arguments

The arguments of the command line: a command with one file, and the option `-c` or `--config` with a
settings file before or after it.
-/

namespace SemanticLayer
namespace CommandLine

inductive Command where
  | compile
  | graph
  | validate
deriving DecidableEq, Repr

def Command.ofName : String → Option Command
  | "compile" => some compile
  | "graph" => some graph
  | "validate" => some validate
  | _ => none

inductive Invocation where
  | run (config : Option String) (command : Command) (file : String)
  | version
  /-- Help on one command, or on all of them. -/
  | help (command : Option Command)
  /-- The arguments make no sense. -/
  | misuse
deriving DecidableEq, Repr

/-- One argument by itself. -/
inductive Argument where
  /-- The option for the settings file, perhaps with the file in the same argument. -/
  | config (attached : Option String)
  | help
  | version
  /-- Two dashes: all that follows are words. -/
  | separator
  | unknown
  | word (s : String)
deriving DecidableEq, Repr

namespace Argument

def ofLong (name : List Char) : Argument :=
  match Text.cutAt '=' name with
  | some (name, value) =>
    if name = "config".toList then .config (some (String.ofList value)) else .unknown
  | none =>
    if name = "config".toList then .config none
    else if name = "help".toList then .help
    else if name = "version".toList then .version
    else .unknown

/-- An option of one letter. Its value may follow directly or after an equals sign. -/
def ofShort (letter : Char) (rest : List Char) : Argument :=
  if letter = 'c' then
    match rest with
    | [] => .config none
    | '=' :: value => .config (some (String.ofList value))
    | value => .config (some (String.ofList value))
  else if letter = 'h' then .help
  else if letter = 'V' then .version
  else .unknown

def ofString (arg : String) : Argument :=
  match arg.toList with
  | ['-', '-'] => .separator
  | '-' :: '-' :: name => ofLong name
  | '-' :: letter :: rest => ofShort letter rest
  | _ => .word arg

end Argument

/-- The value of the settings option: attached to it, or else the next argument, which must be a
word. Answers with the arguments after it. -/
def configValue (attached : Option String) (rest : List String) : Option (String × List String) :=
  match attached, rest with
  | some value, rest => if value.isEmpty then none else some (value, rest)
  | none, next :: rest =>
    match Argument.ofString next with
    | .word value => if value.isEmpty then none else some (value, rest)
    | _ => none
  | none, [] => none

theorem configValue_length {attached : Option String} {rest : List String}
    {r : String × List String} (h : configValue attached rest = some r) :
    r.2.length ≤ rest.length := by
  unfold configValue at h
  split at h
  · split at h
    · cases h
    · cases h; exact Nat.le_refl _
  · split at h
    · split at h
      · cases h
      · cases h; exact Nat.le_succ _
    · cases h
  · cases h

/-- The one word that is left when no option follows. -/
def onlyFile (file : Option String) (words : List String) : Option String :=
  match file, words with
  | some file, [] => some file
  | none, [file] => if file.isEmpty then none else some file
  | _, _ => none

/-- The arguments after a command. A settings file that is named here goes before one that was named
earlier. -/
def parseCommand (command : Command) (earlier : Option String) :
    Option String → Option String → List String → Invocation
  | config, file, [] =>
    match file with
    | some file => .run (config.or earlier) command file
    | none => .misuse
  | config, file, arg :: rest =>
    match Argument.ofString arg with
    | .word word =>
      if file.isSome || word.isEmpty then .misuse
      else parseCommand command earlier config (some word) rest
    | .config attached =>
      match _h : configValue attached rest with
      | some r =>
        if config.isSome then .misuse else parseCommand command earlier (some r.1) file r.2
      | none => .misuse
    | .separator =>
      match onlyFile file rest with
      | some file => .run (config.or earlier) command file
      | none => .misuse
    | .help => .help (some command)
    | .version | .unknown => .misuse
termination_by _ _ args => args.length
decreasing_by
  · simp
  · have := configValue_length _h
    simp only [List.length_cons]
    omega

/-- The arguments after the word `help`. -/
def parseHelp : List String → Invocation
  | [] => .help none
  | [name] =>
    match Command.ofName name with
    | some command => .help (some command)
    | none => .misuse
  | _ => .misuse

/-- The arguments before a command. -/
def parseGlobal : Option String → List String → Invocation
  | _, [] => .misuse
  | config, arg :: rest =>
    match Argument.ofString arg with
    | .word word =>
      match Command.ofName word with
      | some command => parseCommand command config none none rest
      | none => if word = "help" then parseHelp rest else .misuse
    | .config attached =>
      match _h : configValue attached rest with
      | some r => if config.isSome then .misuse else parseGlobal (some r.1) r.2
      | none => .misuse
    | .help => .help none
    | .version => .version
    | .separator | .unknown => .misuse
termination_by _ args => args.length
decreasing_by
  have := configValue_length _h
  simp only [List.length_cons]
  omega

def Invocation.ofArgs (args : List String) : Invocation := parseGlobal none args

end CommandLine
end SemanticLayer
