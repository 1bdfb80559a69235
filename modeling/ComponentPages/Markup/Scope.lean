import ComponentPages.Markup.ClassAttribute
import ComponentPages.Markup.Tag

/-!
# Markup in a scope

Markup is put in the scope of a class. Markup with a root gets the class on its root
(`injectClass`): in front of the value of a class attribute, else as an attribute of its own at
the end of the tag. Markup without a root is wrapped in an element of that class (`wrap`).
-/
namespace ComponentPages.Markup

open Text

/-- The value of a class attribute with a class in front. -/
def joinClass (scope value : List Char) : List Char :=
  if (trim value).isEmpty then scope else scope ++ ' ' :: value

/-- A class attribute with a class in front of its value. -/
def writeClass (scope : List Char) : ClassValue → List Char
  | .quoted quote value => "class=".toList ++ quote :: joinClass scope value ++ [quote]
  | .masked placeholder => "class=\"".toList ++ scope ++ ' ' :: placeholder ++ ['"']

/-- A tag with a class attribute at its end, where the tag is given without its last `>`. -/
def appendClass (scope tag : List Char) : List Char :=
  let (head, tail) :=
    if tag.getLast? = some '/' then (tag.dropLast, "/>".toList) else (tag, ">".toList)
  trimEnd head ++ " class=\"".toList ++ scope ++ '"' :: tail

/-- A tag with a class, where the tag is given without its last `>`. -/
def classTag (scope tag : List Char) : List Char :=
  match (readSpacedClass readClassValue).first (tag ++ ['>']) with
  | some found =>
    found.before ++ found.item.1 :: writeClass scope found.item.2 ++ found.after
  | none => appendClass scope tag

/-- Markup with a class on the tag that it starts with, if it starts with a complete tag. -/
def injectClass (body scope : String) : Option String :=
  let masked := mask body.toList
  let blanks := masked.takeWhile isBlank
  match trimStart masked with
  | '<' :: rest =>
    (cutTag none ('<' :: rest)).map fun (tag, after) =>
      String.ofList (unmask (blanks ++ classTag scope.toList tag ++ after)
        (expressions body.toList))
  | _ => none

/-- Markup in an element of a class. The element has no box of its own if the flag says so. -/
def wrap (body scope tag : String) (unwrapped : Bool) : String :=
  let style := if unwrapped then " style=\"display: contents\"" else ""
  "<" ++ tag ++ " class=\"" ++ scope ++ "\"" ++ style ++ ">" ++ body ++ "</" ++ tag ++ ">"

end ComponentPages.Markup
