import SemanticLayer.Text.Blank
import SemanticLayer.Text.Substitution

/-!
# SemanticLayer.Text.Quoted

Quoted identifiers and string literals. A quote inside either is written twice.
-/

namespace SemanticLayer
namespace Text

/-- The text between two quotes `q`, with the quotes inside it doubled. -/
def quoteWith (q : Char) (cs : List Char) : List Char :=
  q :: expand q [q, q] cs ++ [q]

/-- Read up to the closing quote of an identifier, after its opening quote: the name, and what
follows. `none` when the quote is never closed. -/
def closeQuoted : List Char → Option (List Char × List Char)
  | [] => none
  | '"' :: '"' :: rest => (closeQuoted rest).map fun r => ('"' :: r.1, r.2)
  | '"' :: rest => some ([], rest)
  | c :: rest => (closeQuoted rest).map fun r => (c :: r.1, r.2)

/-- The text between a leading and a closing quote, if both are there. -/
def insideQuotes : List Char → Option (List Char)
  | '"' :: rest => if rest.getLast? = some '"' then some rest.dropLast else none
  | _ => none

/-- The name an identifier stands for: a quoted one without its quotes, any other one as it is.
White space around it is dropped. -/
def unquote (cs : List Char) : List Char :=
  let trimmed := trim cs
  match insideQuotes trimmed with
  | some inner => collapse '"' '"' inner
  | none => trimmed

end Text

/-- An SQL identifier for the name `s`. -/
def quoteIdentifier (s : String) : String := String.ofList (Text.quoteWith '"' s.toList)

/-- An SQL string literal for the text `s`. -/
def quoteString (s : String) : String := String.ofList (Text.quoteWith '\'' s.toList)

def unquoteIdentifier (s : String) : String := String.ofList (Text.unquote s.toList)

end SemanticLayer
