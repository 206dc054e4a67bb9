import SemanticLayer.Text.Word

/-!
# SemanticLayer.Text.Substitution

Searching and replacing in a text.

* `expand` writes one character as several, `collapse` reads a doubled character as one.
* `occurs` is the plain substring test.
* `replaceWord` replaces the occurrences that stand between two word boundaries.
-/

namespace SemanticLayer
namespace Text

/-- Replace every `c` by the text `w`. -/
def expand (c : Char) (w : List Char) : List Char → List Char
  | [] => []
  | x :: rest => if x = c then w ++ expand c w rest else x :: expand c w rest

/-- Replace every pair `cc` by `d`, taking pairs from the left. -/
def collapse (c d : Char) : List Char → List Char
  | x :: y :: rest =>
    if x = c ∧ y = c then d :: collapse c d rest else x :: collapse c d (y :: rest)
  | rest => rest

/-- The text `p` occurs somewhere in the text. -/
def occurs (p : List Char) : List Char → Bool
  | [] => p.isEmpty
  | c :: rest => p.isPrefixOf (c :: rest) || occurs p rest

/-- The part before the first `c` and the part after it. -/
def cutAt (c : Char) : List Char → Option (List Char × List Char)
  | [] => none
  | x :: rest =>
    if x = c then some ([], rest)
    else (cutAt c rest).map fun parts => (x :: parts.1, parts.2)

/-- The pieces between the occurrences of `c`; one more than there are occurrences. -/
def splitAt (c : Char) : List Char → List (List Char)
  | [] => [[]]
  | x :: rest =>
    if x = c then [] :: splitAt c rest
    else
      match splitAt c rest with
      | [] => [[x]]
      | piece :: pieces => (x :: piece) :: pieces

/-- The text `p` stands at the head of `rest`, with a word boundary before and after it. -/
def wordAt (p : List Char) (before : Option Char) (rest : List Char) : Bool :=
  p.isPrefixOf rest
    && isBoundary before rest.head?
    && isBoundary (p.getLast?.or before) (rest.drop p.length).head?

/-- The scan behind `replaceWord`. `skip` counts the characters that are still covered by the last
match, and `before` is the character just passed. An empty `p` matches between characters, and the
scan then moves on by one character. -/
def replaceWordFrom (p new : List Char) : Nat → Option Char → List Char → List Char
  | 0, before, [] => if wordAt p before [] then new else []
  | _ + 1, _, [] => []
  | skip + 1, _, c :: rest => replaceWordFrom p new skip (some c) rest
  | 0, before, c :: rest =>
    if wordAt p before (c :: rest) then
      if p.isEmpty then new ++ c :: replaceWordFrom p new 0 (some c) rest
      else new ++ replaceWordFrom p new (p.length - 1) (some c) rest
    else c :: replaceWordFrom p new 0 (some c) rest

/-- Replace every occurrence of `p` that stands between word boundaries by `new`, from the left and
without overlaps. -/
def replaceWord (p new cs : List Char) : List Char :=
  replaceWordFrom p new 0 none cs

end Text
end SemanticLayer
