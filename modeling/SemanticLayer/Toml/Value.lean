/-!
# SemanticLayer.Toml.Value

TOML documents, and how keys and headers build them up. A table can be opened once by a header, and
extended by dotted keys only if dotted keys made it.
-/

namespace SemanticLayer

/-- How a table came about. -/
inductive TableKind where
  /-- On the way to the table of a header. -/
  | implicit
  /-- By a dotted key. -/
  | dotted
  /-- By a header of its own. -/
  | header
deriving DecidableEq, Repr

/-- A TOML value. Numbers and dates are checked when they are read, and nothing is kept of them. -/
inductive Toml where
  | boolean (b : Bool)
  | string (s : String)
  | number
  | date
  | array (items : List Toml)
  /-- A table in braces. It is never extended. -/
  | inline (entries : List (String × Toml))
  | table (kind : TableKind) (entries : List (String × Toml))
  /-- The tables of the headers in double brackets. -/
  | tables (elements : List (List (String × Toml)))
deriving Repr

namespace Toml

abbrev Entries := List (String × Toml)

/-- Put a value under a key, over the value that was there. -/
def assign (key : String) (value : Toml) : Entries → Entries
  | [] => [(key, value)]
  | e :: rest => if e.1 = key then (key, value) :: rest else e :: assign key value rest

/-- Put a value under a dotted key. Tables on the way are made as needed. The table right before the
last key must have been made by dotted keys too. -/
def putDotted (key : String) (value : Toml) : List String → Entries → Option Entries
  | [], entries => if (entries.lookup key).isSome then none else some (entries ++ [(key, value)])
  | k :: path, entries =>
    match entries.lookup k with
    | none => (putDotted key value path []).map fun t => entries ++ [(k, .table .dotted t)]
    | some (.table kind t) =>
      if kind = .header ∨ (path.isEmpty ∧ kind ≠ .dotted) then none
      else (putDotted key value path t).map fun t => assign k (.table kind t) entries
    | some (.tables elements) =>
      match elements.reverse with
      | [] => none
      | last :: before =>
        if path.isEmpty then none
        else (putDotted key value path last).map fun t =>
          assign k (.tables (t :: before).reverse) entries
    | some _ => none

/-- Change the table that a header path leads to. Tables on the way are made as needed, and a path
through several tables of one name goes through the last one. -/
def descend (f : Entries → Option Entries) : List String → Entries → Option Entries
  | [], entries => f entries
  | k :: path, entries =>
    match entries.lookup k with
    | none => (descend f path []).map fun t => entries ++ [(k, .table .implicit t)]
    | some (.table kind t) => (descend f path t).map fun t => assign k (.table kind t) entries
    | some (.tables elements) =>
      match elements.reverse with
      | [] => none
      | last :: before => (descend f path last).map fun t =>
          assign k (.tables (t :: before).reverse) entries
    | some _ => none

/-- Open the table of a header. -/
def openTable (key : String) (entries : Entries) : Option Entries :=
  match entries.lookup key with
  | none => some (entries ++ [(key, .table .header [])])
  | some (.table .implicit t) => some (assign key (.table .header t) entries)
  | some _ => none

/-- Open one more table of a header in double brackets. -/
def openElement (key : String) (entries : Entries) : Option Entries :=
  match entries.lookup key with
  | none => some (entries ++ [(key, .tables [[]])])
  | some (.tables elements) => some (assign key (.tables (elements ++ [[]])) entries)
  | some _ => none

end Toml
end SemanticLayer
