import ComponentPages.Markup.ClassAttribute
import ComponentPages.Markup.Tag

/-!
# The root of markup

Markup has a root when it is one element, blanks around it aside: it starts with an opening tag
and ends with the closing tag that closes it. A root is `single` if no tag is found between
these two tags, and a `container` otherwise. The analysis does not parse the markup; it masks
the expressions and counts the tags that have the name of the first one.
-/
namespace ComponentPages.Markup

open Text

/-- What kind of root markup has. -/
inductive RootKind where
  /-- No root, but any number of nodes side by side. -/
  | normal
  /-- A root without elements inside. -/
  | single
  /-- A root with elements inside. -/
  | container
  deriving DecidableEq, Repr

/-- What is known about the root of markup. -/
structure Root where
  kind : RootKind
  /-- The name of the root's tag, if there is a root. -/
  tag : Option String
  /-- The classes that the root's tag names by itself. -/
  classes : List String
  deriving DecidableEq, Repr

/-- What is known about the root of markup that has none. -/
def Root.normal : Root := ⟨.normal, none, []⟩

/-- Whether a text holds the start of an element. -/
def holdsElement : List Char → Bool
  | [] => false
  | c :: rest =>
    (c == '<' && match rest with
      | [] => false
      | letter :: _ => letter.isAlpha) || holdsElement rest

/-- The text before the closing tag of the given name that a text ends with. -/
def beforeClosing? (name body : List Char) : Option (List Char) :=
  if body.getLast? = some '>' then
    match cutLast ['<', '/'] body with
    | some (before, after) => if alike (trim after.dropLast) name then some before else none
    | none => none
  else none

/-- Whether the first element of the given name ends at the end of the pieces; the depth counts
the open elements of that name. -/
def endsWithFirst (name : List Char) : Nat → List (Char ⊕ Tag) → Bool
  | _, [] => false
  | depth, .inl _ :: pieces => endsWithFirst name depth pieces
  | depth, .inr tag :: pieces =>
    if !alike tag.name name then endsWithFirst name depth pieces
    else if tag.closing then
      if depth ≤ 1 then pieces.isEmpty else endsWithFirst name (depth - 1) pieces
    else endsWithFirst name (if tag.selfClosing then depth else depth + 1) pieces

/-- What is known about the root of a trimmed body whose expressions are masked, if it has
one. -/
def rootOf? (body : List Char) : Option Root := do
  let name ← match body with
    | '<' :: rest => tagName? rest
    | _ => none
  let (opening, rest) ← cutTag none body
  let attributes := opening.drop (name.length + 1)
  let before ← beforeClosing? name body
  if (trimEnd attributes).getLast? = some '/' || before.length ≤ opening.length ||
      !endsWithFirst name 0 (readTag.pieces body) then none
  else
    let inner := rest.take (before.length - (opening.length + 1))
    some {
      kind := if holdsElement inner then .container else .single
      tag := some (String.ofList name)
      classes := literalClasses attributes }

/-- What is known about the root of markup. -/
def analyze (markup : String) : Root :=
  (rootOf? (trim (mask markup.toList))).getD Root.normal

end ComponentPages.Markup
