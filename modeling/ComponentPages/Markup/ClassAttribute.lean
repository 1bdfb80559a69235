import ComponentPages.Markup.Expression
import ComponentPages.Text.Blank
import ComponentPages.Text.Fold

/-!
# The class attribute of a tag

A class attribute is the word `class` in any case, an equals sign and a value. A value between
quotes is read by the analysis of a root and by the injection of a class; a value that is an
expression alone, which is a placeholder in masked markup, only by the latter.
-/
namespace ComponentPages.Markup

open Text

/-- Reads a value between quotes of one kind, and gives the quote and the value. -/
def readQuoted : Reader (Char × List Char)
  | '"' :: rest => (cut ['"'] rest).map fun (value, after) => (('"', value), after)
  | '\'' :: rest => (cut ['\''] rest).map fun (value, after) => (('\'', value), after)
  | _ => none

/-- Reads the word `class`, an equals sign and the value that a reader reads. -/
def readClass {α : Type} (value : Reader α) : Reader α := fun text => do
  let rest ← afterFolded "class".toList text
  match trimStart rest with
  | '=' :: rest => value (trimStart rest)
  | _ => none

/-- Reads a class attribute with the blank in front of it. -/
def readSpacedClass {α : Type} (value : Reader α) : Reader (Char × α)
  | [] => none
  | c :: rest =>
    if isBlank c then (readClass value rest).map fun (found, after) => ((c, found), after)
    else none

/-- The value of the class attribute in the attributes of a tag, if it is between quotes. -/
def classValue? (attributes : List Char) : Option (List Char) :=
  match readClass readQuoted attributes with
  | some ((_, value), _) => some value
  | none =>
    ((readSpacedClass readQuoted).first attributes).map fun found => found.item.2.2

/-- The classes that a class attribute names by itself; those made by expressions are not
known. -/
def literalClasses (attributes : List Char) : List String :=
  ((words ((classValue? attributes).getD [])).filter fun word =>
    (readPlaceholder.first word).isNone).map String.ofList

/-- A value that a class is added to. -/
inductive ClassValue where
  | quoted (quote : Char) (value : List Char)
  /-- A placeholder, as it is written. -/
  | masked (placeholder : List Char)

/-- Reads a placeholder in any case, and gives it as it is written. -/
def readMasked : Reader (List Char) := fun text => do
  let rest ← afterFolded (placeholderHead.map Char.toLower) text
  let (number, after) ← readNumberTail rest
  some (text.take placeholderHead.length ++ number ++ placeholderTail, after)

/-- Reads a value that a class is added to. -/
def readClassValue : Reader ClassValue := fun text =>
  match readQuoted text with
  | some ((quote, value), after) => some (.quoted quote value, after)
  | none => (readMasked text).map fun (placeholder, after) => (.masked placeholder, after)

end ComponentPages.Markup
