import ComponentPages.Markup.Root
import ComponentPages.Text.Fold

/-!
# Selectors in a scope

A selector in a scope selects only inside the elements of the scope. Under a root, the selector
of the root's tag selects the root itself, a selector of one class selects the root if it may
carry the class, and a pseudo-class is that of the root; all other selectors select descendants
of the root.
-/
namespace ComponentPages.Style

open Text Markup

/-- A character that a class name starts with, after a dash at most. -/
def startsClass (c : Char) : Bool := c.isAlpha || c == '_'

/-- A character of a class name. -/
def isClassChar (c : Char) : Bool := c.isAlphanum || c == '_' || c == '-'

/-- Whether a text is the name of a class. -/
def isClassName : List Char → Bool
  | '-' :: c :: rest => startsClass c && rest.all isClassChar
  | c :: rest => startsClass c && rest.all isClassChar
  | [] => false

/-- A selector of descendants of the scope. -/
def descendant (scope selector : List Char) : List Char := '.' :: scope ++ ' ' :: selector

/-- Whether a selector is the tag of a root. -/
def isRootTag (root : Root) (selector : List Char) : Bool :=
  match root.tag with
  | some tag => alike tag.toList selector
  | none => false

/-- Whether a root may carry a class: a root without elements inside is the only element that
can. -/
def mayCarry (root : Root) (name : List Char) : Bool :=
  root.kind = .single || root.classes.contains (String.ofList name)

/-- A selector in the scope of a class that is on the given root. -/
def scopeSelector (scope : List Char) (root : Root) (selector : List Char) : List Char :=
  if root.kind = .normal then descendant scope selector
  else if isRootTag root selector then selector ++ '.' :: scope
  else match selector with
    | '.' :: name =>
      if isClassName name && mayCarry root name then '.' :: scope ++ selector
      else descendant scope selector
    | ':' :: _ => ((root.tag.map String.toList).getD []) ++ '.' :: scope ++ selector
    | _ => descendant scope selector

end ComponentPages.Style
