import SemanticLayer.Text.Quoted

/-!
# SemanticLayer.Member

Members are the columns a query asks for, written `table.field`. This module splits and joins such
names and says under which name a member appears in the output of a query.
-/

namespace SemanticLayer

/-- How a member without an alias is named in the output. -/
inductive KeyStyle where
  /-- By its safe key, in which every dot is a double underscore. -/
  | underscore
  /-- By the member as it is written. -/
  | dotted
deriving DecidableEq, Repr

namespace Member

/-- The member with every dot written as a double underscore. -/
def safeKey (member : String) : String :=
  String.ofList (Text.expand '.' ['_', '_'] member.toList)

/-- The dotted text that a safe key stands for: every double underscore is read as a dot. -/
def dottedKey (key : String) : String :=
  String.ofList (Text.collapse '_' '.' key.toList)

def qualify (table field : String) : String := table ++ "." ++ field

/-- The table and the field of a member, cut at its first dot. Without a dot the table is empty. -/
def split (member : String) : String × String :=
  match Text.cutAt '.' member.toList with
  | some parts => (String.ofList parts.1, String.ofList parts.2)
  | none => ("", member)

def table (member : String) : String := (split member).1

/-- The alias of one of several columns that a looked-up member expands to. -/
def compoundAlias (base lookup : String) : String := base ++ " - " ++ lookup

end Member

namespace KeyStyle

/-- The name of a member that has no alias. -/
def key (style : KeyStyle) (member : String) : String :=
  match style with
  | underscore => Member.safeKey member
  | dotted => member

/-- The name of a member in the output: its alias, or else its key. -/
def columnName (style : KeyStyle) (member : String) (given : Option String) : String :=
  given.getD (style.key member)

end KeyStyle

/-- The name of an output column, and whether it is written in quotes. -/
structure Label where
  name : String
  quoted : Bool
deriving DecidableEq, Repr

namespace Label

def sql (label : Label) : String :=
  if label.quoted then quoteIdentifier label.name else label.name

/-- The label a member is projected under. Aliases and dotted keys are quoted, safe keys are not. -/
def ofMember (style : KeyStyle) (member : String) (given : Option String) : Label where
  name := style.columnName member given
  quoted := given.isSome || style = .dotted

end Label

/-- The name a table goes by inside a statement: quoted when it holds a dot. -/
def tableAlias (table : String) : String :=
  if table.toList.contains '.' then quoteIdentifier table else table

end SemanticLayer
