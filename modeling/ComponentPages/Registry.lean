import ComponentPages.Component
import ComponentPages.Helper
import ComponentPages.Name
import ComponentPages.Shell
import ComponentPages.Template

/-!
# The registry

Compiled components under their names, each with its parsed markup, next to the page shell, the
helpers and the templates of isolated renders. A registration that fails leaves the registry as
it was; of two registrations with one name the later counts. Components are held under the name
that they have and looked up by a reference.
-/
namespace ComponentPages

/-- A component with its parsed markup. -/
structure Registered where
  component : Component
  template : Template

/-- A page shell with its parsed markup. -/
structure InstalledShell where
  shell : Shell
  template : Template

/-- The template of a document that was rendered by itself, with the digest of the document. -/
structure CachedTemplate where
  digest : String
  template : Template

/-- What documents are rendered with. -/
structure Registry where
  options : Options
  components : Entries Registered
  shell : Option InstalledShell
  helpers : Entries Helper
  /-- The templates of isolated renders, by the identity of the document. -/
  isolated : Entries CachedTemplate

namespace Registry

/-- The registry with nothing but the default helpers. -/
def new (options : Options) : Registry := ⟨options, [], none, Helper.defaults, []⟩

/-- A registry with more helpers. Reserved names are left out. -/
def addHelpers (registry : Registry) (helpers : List (String × Helper)) : Registry :=
  let added := helpers.filter fun helper => !Helper.reserved.contains helper.1
  { registry with
    helpers := added.foldl (fun held helper => Entries.insert helper.1 helper.2 held)
      registry.helpers }

/-- Registers a compiled component. -/
def register (registry : Registry) (component : Component) : Except Failure Registry := do
  let template ← Template.parse component.name component.markup
  .ok { registry with
    components := Entries.insert component.name ⟨component, template⟩ registry.components }

/-- Compiles and registers a component document. -/
def compile (registry : Registry) (name source : String) :
    Except Failure (Component × Registry) := do
  let component := Component.compile name source registry.options
  let registry ← registry.register component
  .ok (component, registry)

/-- The registered component that a reference stands for, with its parsed markup. -/
def entry? (registry : Registry) (reference : String) : Option Registered :=
  Entries.find? (componentName reference) registry.components

/-- The registered component that a reference stands for. -/
def lookup (registry : Registry) (reference : String) : Option Component :=
  (registry.entry? reference).map Registered.component

/-- Whether a reference stands for a registered component. -/
def contains (registry : Registry) (reference : String) : Bool :=
  (registry.entry? reference).isSome

/-- The names of the registered components, in order. -/
def names (registry : Registry) : List String := Entries.names registry.components

/-- How many components are registered. -/
def size (registry : Registry) : Nat := registry.components.length

/-- Whether no component is registered. -/
def isEmpty (registry : Registry) : Bool := registry.size == 0

/-- Installs a compiled page shell. -/
def setShell (registry : Registry) (shell : Shell) : Except Failure Registry := do
  let template ← Template.parse shell.name shell.markup
  .ok { registry with shell := some ⟨shell, template⟩ }

/-- Compiles and installs the document of a page shell. -/
def compileShell (registry : Registry) (name source : String) :
    Except Failure (Shell × Registry) := do
  let shell ← Shell.compile name source
  let registry ← registry.setShell shell
  .ok (shell, registry)

/-- What a helper answers, if there is one of the name. -/
def callHelper (registry : Registry) (name : String) (arguments : List Value) :
    Option (Except Failure Value) :=
  (Entries.find? name registry.helpers).map fun helper =>
    match helper arguments with
    | .ok value => .ok value
    | .error (.fault fault) => .error (.function name fault)
    | .error .abandon => .error (.abandoned name)

end Registry

end ComponentPages
