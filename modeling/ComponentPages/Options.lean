import ComponentPages.Json
import ComponentPages.Text.Fold
import ComponentPages.Text.Scan

/-!
# Options

What can be chosen about loading, compiling and rendering, and how the choice is read. A JSON
object names the options that differ from the defaults; fields of other names are ignored. An
array gives the options in order, as far as it goes.
-/
namespace ComponentPages

/-- What can be chosen about loading, compiling and rendering. -/
structure Options where
  /-- The name of the document that is the page shell. -/
  shellName : String
  /-- The extensions of component documents, without the dot. -/
  extensions : List String
  /-- How deep invocations of components may nest. -/
  maxDepth : Nat
  /-- The tag of the element around markup without a root. -/
  wrapperTag : String
  deriving DecidableEq, Repr

namespace Options

/-- The options that are not chosen. -/
def default : Options := ⟨"layout", ["html", "tmpl"], 64, "div"⟩

/-- Whether documents with an extension are component documents. -/
def acceptsExtension (options : Options) (extension : String) : Bool :=
  options.extensions.any fun accepted => Text.alike accepted.toList extension.toList

/-- The text of a string. -/
def text? : Json → Option String
  | .string text => text
  | _ => none

/-- The texts of an array of strings. -/
def texts? : Json → Option (List String)
  | .array items => items.mapM text?
  | _ => none

/-- The natural that a number is written as, if it fits in a word. -/
def natural? : Json → Option Nat
  | .number ⟨false, whole, none, none⟩ => do
    let value ← Text.natural? whole
    if value < 0x10000000000000000 then some value else none
  | _ => none

/-- The options with the one of a name chosen; other names choose nothing. -/
def choose (options : Options) (name : String) (value : Json) : Option Options :=
  match name with
  | "shellName" => (text? value).map fun name => { options with shellName := name }
  | "extensions" => (texts? value).map fun texts => { options with extensions := texts }
  | "maxDepth" => (natural? value).map fun depth => { options with maxDepth := depth }
  | "wrapperTag" => (text? value).map fun tag => { options with wrapperTag := tag }
  | _ => some options

/-- The names of the options, in order. -/
def names : List String := ["shellName", "extensions", "maxDepth", "wrapperTag"]

/-- The options that named values choose, in order. -/
def chooseAll (options : Options) : List (String × Json) → Option Options
  | [] => some options
  | (name, value) :: fields => (options.choose name value).bind fun options =>
      options.chooseAll fields

/-- The options that a document chooses. A field that names an option twice is refused. -/
def ofJson? : Json → Option Options
  | .object fields => do
    let named ← fields.mapM fun (name, value) => name.map fun name => (name, value)
    if names.any fun name => 1 < (named.filter fun field => field.1 == name).length then none
    else default.chooseAll named
  | .array items =>
    if names.length < items.length then none else default.chooseAll (names.zip items)
  | _ => none

/-- The options that a text chooses. -/
def read (text : String) : Option Options := (Json.read text).bind ofJson?

end Options

end ComponentPages
