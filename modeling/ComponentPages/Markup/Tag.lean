import ComponentPages.Text.Blank
import ComponentPages.Text.Fold
import ComponentPages.Text.Scan
import ComponentPages.Text.Word

/-!
# Tags

The tags of markup whose expressions are masked. A tag ends at a `>` outside its quoted
attribute values. The name of a tag is a letter followed by letters, digits, `:` and `-`.
-/
namespace ComponentPages.Markup

open Text

/-- The text before the end of the tag that a text starts with, and the text after the end. The
first argument is the quote of the attribute value that the place is in, if it is in one. -/
def cutTag : Option Char → List Char → Option (List Char × List Char)
  | _, [] => none
  | some quote, c :: rest =>
    (cutTag (if c == quote then none else some quote) rest).map
      fun (tag, after) => (c :: tag, after)
  | none, c :: rest =>
    if c == '>' then some ([], rest)
    else (cutTag (if c == '"' || c == '\'' then some c else none) rest).map
      fun (tag, after) => (c :: tag, after)

/-- A character of the name of a tag after the first one. -/
def isTagChar (c : Char) : Bool := c.isAlphanum || c == ':' || c == '-'

/-- The longest name at the front of a text, if it starts with a letter. -/
def tagName? : List Char → Option (List Char)
  | [] => none
  | c :: rest => if c.isAlpha then some (c :: rest.takeWhile isTagChar) else none

/-- A tag inside of markup. -/
structure Tag where
  closing : Bool
  name : List Char
  selfClosing : Bool

/-- The rest of a tag after its name: whether it closes itself, and the text after it. Quoted
values are passed over as a whole; a quote without its partner leaves no tag. -/
def readTagEnd : Option Char → Reader Bool
  | _, [] => none
  | some quote, c :: rest => readTagEnd (if c == quote then none else some quote) rest
  | none, '/' :: '>' :: rest => some (true, rest)
  | none, c :: rest =>
    if c == '>' then some (false, rest)
    else readTagEnd (if c == '"' || c == '\'' then some c else none) rest

/-- Whether one of two neighbouring characters belongs to a word and the other does not. -/
def isEdge (before : Char) (rest : List Char) : Bool := isWord before == endsWord rest

/-- The longest part of a name that ends at the edge of a word, where the rest follows the
name; the name is given from its end. -/
def cutAtEdge : List Char → List Char → Option (List Char × List Char)
  | [], _ => none
  | c :: before, rest =>
    if isEdge c rest then some ((c :: before).reverse, rest) else cutAtEdge before (c :: rest)

/-- Reads the name of a tag inside of markup. -/
def readTagName : Reader (List Char) := fun text => do
  let name ← tagName? text
  cutAtEdge name.reverse (text.drop name.length)

/-- Reads a tag inside of markup. -/
def readTag : Reader Tag
  | '<' :: rest => do
    let (closing, rest) := match rest with
      | '/' :: rest => (true, rest)
      | rest => (false, rest)
    let (name, rest) ← readTagName rest
    let (selfClosing, after) ← readTagEnd none rest
    some (⟨closing, name, selfClosing⟩, after)
  | _ => none

end ComponentPages.Markup
