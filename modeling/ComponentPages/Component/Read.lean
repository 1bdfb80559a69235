import ComponentPages.Component

/-!
# Components of JSON documents

A compiled component is read from an object with its fields, or from an array of them in order.
No field may be missing, and none may be named twice; fields of other names are ignored.
-/
namespace ComponentPages

open Markup

/-- The kind of a root, by its name or by an object that holds nothing under the name. -/
def Markup.RootKind.ofJson? : Json → Option RootKind
  | .string (some name) => ofName? name
  | .object [(some name, .null)] => ofName? name
  | _ => none
where
  /-- The kind of a root with a name. -/
  ofName? : String → Option RootKind
    | "Normal" => some .normal
    | "Single" => some .single
    | "Container" => some .container
    | _ => none

/-- The name of the kind of a root. -/
def Markup.RootKind.name : RootKind → String
  | .normal => "Normal"
  | .single => "Single"
  | .container => "Container"

namespace Component

/-- The component of the values of its fields, in order. -/
def ofFields? : List Json → Option Component
  | [.string name, .string markup, .string style, .string script, .string scope, kind] => do
    some ⟨← name, ← markup, ← style, ← script, ← scope, ← RootKind.ofJson? kind⟩
  | _ => none

/-- The names of the fields of a component, in order. -/
def fieldNames : List String := ["name", "markup", "style", "script", "scopeClass", "rootKind"]

/-- The value of the one field of a name. -/
def field? (fields : List (Option String × Json)) (name : String) : Option Json :=
  match fields.filter fun field => field.1 == some name with
  | [(_, value)] => some value
  | _ => none

/-- The component of a document. -/
def ofJson? : Json → Option Component
  | .object fields =>
    if fields.all fun field => field.1.isSome then
      (fieldNames.mapM (field? fields)).bind ofFields?
    else none
  | .array items => ofFields? items
  | _ => none

end Component

end ComponentPages
