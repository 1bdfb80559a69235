import ComponentPages.Failure
import ComponentPages.Name
import ComponentPages.Text.Blank
import ComponentPages.Text.Scan

/-!
# Page shells

A page shell is a whole document around the content of a page. The actions for the style and
the script of the page are put right before the ends of its head and of its body; both ends are
required. The components that the shell invokes by a name written out are known from its
source.
-/
namespace ComponentPages

open Text

/-- A compiled page shell. -/
structure Shell where
  name : String
  /-- The document with the actions for style and script. -/
  markup : String
  /-- The components invoked by a name written out, in the order of their first appearance. -/
  references : List String
  deriving DecidableEq, Repr

namespace Shell

/-- The end of the head of a document. -/
def headEnd : String := "</head>"

/-- The end of the body of a document. -/
def bodyEnd : String := "</body>"

/-- The action for the style of a page. -/
def styleSlot : String := "\n\t<style>\x7b\x7b .CSS \x7d\x7d</style>\n"

/-- The action for the script of a page. -/
def scriptSlot : String := "\n\t<script>\x7b\x7b .JS \x7d\x7d</script>\n"

/-- A document with a text put right before the first occurrence of an anchor. -/
def insertBefore (anchor slot : String) (document : List Char) :
    Except Failure (List Char) :=
  match cut anchor.toList document with
  | some (before, after) => .ok (before ++ slot.toList ++ anchor.toList ++ after)
  | none => .error (.missingAnchor anchor)

/-- Reads a text of at least one character between quotes of one kind. -/
def readFilled (quote : Char) : Reader (List Char)
  | c :: rest =>
    if c == quote then
      match cut [quote] rest with
      | some ([], _) => none
      | found => found
    else none
  | [] => none

/-- Reads the start of an action that invokes a component by a name written out, and gives the
name. -/
def readReference : Reader String
  | '{' :: '{' :: rest => do
    let rest := match rest with
      | '-' :: rest => rest
      | rest => rest
    let after ← "comp".toList.isPrefixOf? (trimStart rest)
    let quoted := trimStart after
    if quoted.length = after.length then none
    else
      let (name, rest) ← (readFilled '"' quoted).or (readFilled '\x60' quoted)
      some (componentName (String.ofList name), rest)
  | _ => none

/-- Compiles the document of a page shell. -/
def compile (name source : String) : Except Failure Shell := do
  let styled ← insertBefore headEnd styleSlot source.toList
  let markup ← insertBefore bodyEnd scriptSlot styled
  .ok ⟨name, String.ofList markup, (readReference.all source.toList).eraseDups⟩

end Shell

end ComponentPages
