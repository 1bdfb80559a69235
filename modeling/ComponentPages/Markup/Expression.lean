import ComponentPages.Text.Scan
import ComponentPages.Text.Word

/-!
# Expressions in markup

The tags of markup are looked at with the expressions between `{{` and `}}` masked: each is
replaced by a placeholder that has its number, and is put back afterwards. Placeholders are
written in reserved text that markup is not expected to hold itself.
-/
namespace ComponentPages.Markup

open Text

/-- Reads an expression up to the first end mark, and gives its whole text. -/
def readExpression : Reader (List Char)
  | '{' :: '{' :: rest =>
    (cut ['}', '}'] rest).map fun (inner, after) => ('{' :: '{' :: inner ++ ['}', '}'], after)
  | _ => none

/-- The reserved text in front of the number of a placeholder. -/
def placeholderHead : List Char := "__SCOPED_EXPR_".toList

/-- The reserved text after the number of a placeholder. -/
def placeholderTail : List Char := "__".toList

/-- The placeholder of the expression with a number. -/
def placeholder (number : Nat) : List Char := placeholderHead ++ digits number ++ placeholderTail

/-- The pieces of markup with the expressions replaced by placeholders, numbered from the given
number on. -/
def maskPieces : Nat → List (Char ⊕ List Char) → List Char
  | _, [] => []
  | number, .inl c :: pieces => c :: maskPieces number pieces
  | number, .inr _ :: pieces => placeholder number ++ maskPieces (number + 1) pieces

/-- Markup with its expressions masked. -/
def mask (markup : List Char) : List Char := maskPieces 0 (readExpression.pieces markup)

/-- The expressions of markup, in order. -/
def expressions (markup : List Char) : List (List Char) := readExpression.all markup

/-- Reads the digits and the tail of a placeholder. -/
def readNumberTail : Reader (List Char) := fun text =>
  match cutFront isDecimalDigit text with
  | ([], _) => none
  | (number, rest) => (placeholderTail.isPrefixOf? rest).map fun after => (number, after)

/-- Reads a placeholder, and gives the digits of its number. -/
def readPlaceholder : Reader (List Char) := fun text =>
  (placeholderHead.isPrefixOf? text).bind readNumberTail

/-- What stands for a placeholder with the given digits: the expression of that number, or the
placeholder itself if there is none. -/
def unmaskPlaceholder (expressions : List (List Char)) (number : List Char) : List Char :=
  ((natural? number).bind fun index => expressions[index]?).getD
    (placeholderHead ++ number ++ placeholderTail)

/-- Masked markup with the expressions put back. -/
def unmask (masked : List Char) (expressions : List (List Char)) : List Char :=
  readPlaceholder.replace (unmaskPlaceholder expressions) masked

end ComponentPages.Markup
