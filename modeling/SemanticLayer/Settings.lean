import SemanticLayer.Member
import SemanticLayer.Toml.Reader

/-!
# SemanticLayer.Settings

Settings from a TOML document. Keys that are not settings are passed over.
-/

namespace SemanticLayer

structure Settings where
  useDotNotation : Bool := false
  logLevel : String := "warn"
deriving DecidableEq, Repr

inductive SettingsError where
  | fileNotFound (path : String)
  | unreadable (reason : String)
  /-- The document is malformed, or a setting has the wrong type. -/
  | malformed
  | unknownLevel (level : String)
deriving DecidableEq, Repr

namespace Settings

def levels : List String := ["trace", "debug", "info", "warn", "error"]

def keyStyle (s : Settings) : KeyStyle := if s.useDotNotation then .dotted else .underscore

/-- The value of the only key of a group, which may be left out. A group is a table, or an array
that starts with the value. A date counts as a table without the key. `none` when the group is
anything else. -/
def groupValue (key : String) : Option Toml → Option (Option Toml)
  | none => some none
  | some (.table _ entries) => some (entries.lookup key)
  | some (.inline entries) => some (entries.lookup key)
  | some (.array items) => some items.head?
  | some .date => some none
  | some (.tables elements) => some (elements.head?.map (.table .header ·))
  | some _ => none

def readBool (default : Bool) : Option Toml → Option Bool
  | none => some default
  | some (.boolean b) => some b
  | some _ => none

def readText (default : String) : Option Toml → Option String
  | none => some default
  | some (.string s) => some s
  | some _ => none

/-- The settings of a document, before the log level is checked. -/
def ofEntries (entries : Toml.Entries) : Option Settings := do
  let dotted ← groupValue "use_dot_notation" (entries.lookup "query")
  let level ← groupValue "level" (entries.lookup "logging")
  let useDotNotation ← readBool false dotted
  let logLevel ← readText "warn" level
  some { useDotNotation, logLevel }

/-- The log level is one of the known ones, in any case. -/
def hasKnownLevel (s : Settings) : Bool :=
  s.logLevel.toList.map Char.toLower ∈ levels.map String.toList

def ofToml (content : String) : Except SettingsError Settings :=
  match (Toml.parse content).bind ofEntries with
  | none => .error .malformed
  | some s => if s.hasKnownLevel then .ok s else .error (.unknownLevel s.logLevel)

end Settings

/-- What is wrong with the settings. -/
def SettingsError.message : SettingsError → String
  | fileNotFound path => "Config file not found: " ++ path
  | unreadable reason => "Failed to read config file: " ++ reason
  | malformed => "Failed to parse config file: unexpected document"
  | unknownLevel level =>
    "Invalid configuration: unknown log level '" ++ level ++ "', expected one of: "
      ++ ", ".intercalate Settings.levels

end SemanticLayer
