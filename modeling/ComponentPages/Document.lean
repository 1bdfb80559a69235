import ComponentPages.Entries
import ComponentPages.Text.Blank
import ComponentPages.Text.Fold
import ComponentPages.Text.Scan
import ComponentPages.Text.Word

/-!
# Component documents

A component document holds up to three blocks, written as the elements `template`, `style` and
`script` in any case. The first block of each kind counts. The style and the script are looked
for outside the markup block, so elements of these names inside the markup stay part of it.
-/
namespace ComponentPages

open Text

/-- The blocks of a component document. -/
structure Blocks where
  /-- The body of the markup block, if there is one. -/
  markup : Option String
  /-- The attributes of the markup block under their lower-case names. -/
  attributes : Entries String
  style : String
  script : String

namespace Blocks

/-- Reads the closing tag of a block. -/
def readClosing (name : List Char) : Reader Unit
  | '<' :: '/' :: rest =>
    match (afterFolded name rest).map trimStart with
    | some ('>' :: after) => some ((), after)
    | _ => none
  | _ => none

/-- Reads a block: the attributes of its opening tag, and its body up to the first closing
tag. -/
def readBlock (name : List Char) : Reader (List Char × List Char)
  | '<' :: rest => do
    let rest ← afterFolded name rest
    if endsWord rest then
      match cutFront (· != '>') rest with
      | (attributes, '>' :: rest) =>
        let closing ← (readClosing name).first rest
        some ((attributes, closing.before), closing.after)
      | _ => none
    else none
  | _ => none

/-- A character of the name of an attribute. -/
def isAttributeChar (c : Char) : Bool :=
  c.isAlphanum || c == '_' || c == ':' || c == '-' || c == longS || c == kelvinSign

/-- The lower-case form of a character of the name of an attribute. -/
def lowerAttributeChar (c : Char) : Char := if c == kelvinSign then 'k' else c.toLower

/-- Reads the value of an attribute without quotes. -/
def readBareValue : Reader (List Char) := fun text =>
  match cutFront (fun c => !isBlank c && c != '>') text with
  | ([], _) => none
  | found => some found

/-- Reads the value of an attribute. A quote without its partner belongs to a value without
quotes. -/
def readAttributeValue : Reader (List Char) := fun text =>
  let quotedBy (quote : Char) (rest : List Char) :=
    match cut [quote] rest with
    | some found => some found
    | none => readBareValue text
  match text with
  | '"' :: rest => quotedBy '"' rest
  | '\'' :: rest => quotedBy '\'' rest
  | _ => readBareValue text

/-- Reads an equals sign and the value after it. -/
def readAssigned : Reader (List Char) := fun text =>
  match trimStart text with
  | '=' :: rest => readAttributeValue (trimStart rest)
  | _ => none

/-- Reads an attribute: its lower-case name and its value, which is `true` if it has none. -/
def readAttribute : Reader (String × String) := fun text =>
  match cutFront isAttributeChar text with
  | ([], _) => none
  | (name, rest) =>
    let name := String.ofList (name.map lowerAttributeChar)
    match readAssigned rest with
    | some (value, after) => some ((name, String.ofList value), after)
    | none => some ((name, "true"), rest)

/-- The attributes of an opening tag; of two with one name the later counts. -/
def attributesOf (text : List Char) : Entries String := Entries.ofList (readAttribute.all text)

/-- The body of the first block of a name, empty if there is none. -/
def bodyOf (name source : List Char) : String :=
  match (readBlock name).first source with
  | some found => String.ofList found.item.2
  | none => ""

/-- The markup block of a document, if there is one. -/
def findMarkup (source : List Char) : Option (Found (List Char × List Char)) :=
  (readBlock "template".toList).first source

/-- The blocks of a document. -/
def ofSource (source : String) : Blocks :=
  let markup := findMarkup source.toList
  let rest := match markup with
    | some found => found.before ++ found.after
    | none => source.toList
  { markup := markup.map fun found => String.ofList found.item.2
    attributes := (markup.map fun found => attributesOf found.item.1).getD []
    style := bodyOf "style".toList rest
    script := bodyOf "script".toList rest }

/-- Whether the markup block asks for a wrapper without a box of its own. -/
def asksUnwrap (blocks : Blocks) : Bool :=
  match Entries.find? "unwrap" blocks.attributes with
  | some value => value != "false"
  | none => false

end Blocks

/-- The markup block of a document, or the whole document if it has none. -/
def markupOrWhole (source : String) : String :=
  match Blocks.findMarkup source.toList with
  | some found => String.ofList found.item.2
  | none => source

end ComponentPages
