import ComponentPages.Digest.Content
import ComponentPages.Document
import ComponentPages.Markup.Root
import ComponentPages.Markup.Scope
import ComponentPages.Options
import ComponentPages.Style.Sheet

/-!
# Components

A component document is compiled to markup and style that share a scope. The class of the scope
depends on the name of the component alone (`scopeClassOf`). Markup with a root carries the
class on its root, other markup is wrapped; the style is put in the scope of the root. A
document without a markup block is inert: it has no markup, and its style is kept as it is
written.
-/
namespace ComponentPages

open Markup

/-- A compiled component. -/
structure Component where
  name : String
  /-- The markup in the scope of the component, to be parsed as a template. -/
  markup : String
  /-- The style in the scope of the component. -/
  style : String
  script : String
  scopeClass : String
  rootKind : RootKind
  deriving DecidableEq, Repr

/-- The class of the scope of a component. -/
def scopeClassOf (name : String) : String :=
  "s-" ++ String.ofList ((Digest.ofText name).toList.take 6)

namespace Component

/-- Whether a component has markup. -/
def hasMarkup (component : Component) : Bool := component.markup != ""

/-- A body in the scope of a class, with the root that carries the class; a body that cannot
carry it is wrapped and counts as one without a root. -/
def scopeMarkup (body scope wrapperTag : String) (unwrapped : Bool) : String × Root :=
  let root := analyze body
  let injected := if root.kind = .normal then none else injectClass body scope
  match injected with
  | some markup => (markup, root)
  | none =>
    (wrap body scope wrapperTag unwrapped, if root.kind = .normal then root else Root.normal)

/-- A style in the scope of a class; blanks alone are no style. -/
def scopeStyle (css scope : String) (root : Root) : String :=
  if (Text.trim css.toList).isEmpty then "" else Style.scopeStyles css scope root

/-- Compiles a component document. -/
def compile (name source : String) (options : Options) : Component :=
  let blocks := Blocks.ofSource source
  let scope := scopeClassOf name
  match blocks.markup with
  | none => ⟨name, "", blocks.style, blocks.script, scope, .normal⟩
  | some body =>
    let (markup, root) := scopeMarkup body scope options.wrapperTag blocks.asksUnwrap
    ⟨name, markup, scopeStyle blocks.style scope root, blocks.script, scope, root.kind⟩

/-- A component has the name that its document is compiled under. -/
theorem name_compile (name source : String) (options : Options) :
    (compile name source options).name = name := by
  unfold compile
  simp only
  split
  · rfl
  · rfl

end Component

end ComponentPages
