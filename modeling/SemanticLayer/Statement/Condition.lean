import SemanticLayer.Statement.Predicate

/-!
# SemanticLayer.Statement.Condition

Conditions on rows: predicates in nested groups. A condition is written as a sequence of tokens, in
which a group of two or more stands in parentheses.
-/

namespace SemanticLayer

inductive Condition where
  | atom (p : Predicate)
  | all (parts : List Condition)
  | any (parts : List Condition)
deriving Repr

inductive Token where
  | atom (p : Predicate)
  | truth
  | and
  | or
  | opening
  | closing
deriving DecidableEq, Repr

namespace Token

def sql : Token → String
  | atom p => p.render
  | truth => "TRUE"
  | and => " AND "
  | or => " OR "
  | opening => "("
  | closing => ")"

def render (tokens : List Token) : String := String.join (tokens.map sql)

end Token

namespace Condition

/-- Parts joined by one connective. No part at all is always true, and one part stands for
itself. -/
def group (connective : Token) : List (List Token) → List Token
  | [] => [.truth]
  | [part] => part
  | parts => .opening :: [connective].intercalate parts ++ [.closing]

mutual
def tokens : Condition → List Token
  | atom p => [.atom p]
  | all parts => group .and (tokensList parts)
  | any parts => group .or (tokensList parts)

def tokensList : List Condition → List (List Token)
  | [] => []
  | c :: rest => tokens c :: tokensList rest
end

/-- The tokens of several conditions that all must hold. -/
def conjunction (conditions : List Condition) : List Token :=
  [Token.and].intercalate (tokensList conditions)

/-! ## From filters -/

/-- The field of a member, or an error. -/
def lookup (schemas : List TableSchema) (member : String) : Except CompileError Field :=
  match findField schemas member with
  | some field => .ok field
  | none => .error (.unknownMember member)

mutual
def ofFilter (schemas : List TableSchema) : Filter → Except CompileError Condition
  | .all filters =>
    match ofFilters schemas filters with
    | .ok parts => .ok (.all parts)
    | .error e => .error e
  | .any filters =>
    match ofFilters schemas filters with
    | .ok parts => .ok (.any parts)
    | .error e => .error e
  | .member m operator values =>
    match lookup schemas m with
    | .error e => .error e
    | .ok field =>
      match Predicate.ofFilter m field operator values with
      | .ok p => .ok (.atom p)
      | .error e => .error e

def ofFilters (schemas : List TableSchema) : List Filter → Except CompileError (List Condition)
  | [] => .ok []
  | f :: rest =>
    match ofFilter schemas f with
    | .error e => .error e
    | .ok c =>
      match ofFilters schemas rest with
      | .error e => .error e
      | .ok parts => .ok (c :: parts)
end

end Condition
end SemanticLayer
