import ComponentPages.Number.Layout
import ComponentPages.Json
import ComponentPages.Text.Quoted
import ComponentPages.Value

/-!
# The texts of a value

A value has three texts. Its text on a page (`Value.text`) is what an action writes, before
escaping. Its JSON (`Value.json`) is also the page text of lists and maps; trusted markup is a
string there, and a number that is not finite is null. Its description (`Value.describe`) names
the kind of every part and stands in messages. The three lay out numbers in three ways.
-/
namespace ComponentPages

namespace Value

/-- On a page numbers are always positional, and whole numbers have no point. -/
def pageNumbers : Number.Layout where
  positional _ := true
  wholeMark := ""
  exponentPlus := ""
  tie := .up
  notANumber := "NaN"
  infinite := ("inf", "-inf")

/-- In JSON numbers are positional from five places after the point to sixteen digits before
it, whole numbers have a point, and positive exponents a sign. -/
def jsonNumbers : Number.Layout where
  positional leading := decide (-5 ≤ leading ∧ leading ≤ 15)
  wholeMark := ".0"
  exponentPlus := "+"
  tie := .even
  notANumber := "null"
  infinite := ("null", "null")

/-- In messages numbers are positional from four places after the point to sixteen digits
before it, and whole numbers have a point. -/
def messageNumbers : Number.Layout where
  positional leading := decide (-4 ≤ leading ∧ leading ≤ 15)
  wholeMark := ".0"
  exponentPlus := ""
  tie := .up
  notANumber := "NaN"
  infinite := ("inf", "-inf")

mutual

/-- The value as a compact JSON document. -/
def json : Value → String
  | .null => "null"
  | .bool flag => if flag then "true" else "false"
  | .int number => toString number.toInt
  | .float number => jsonNumbers.write number
  | .str text => Json.quoted text
  | .html markup => Json.quoted markup
  | .list items => "[" ++ String.intercalate "," (jsonItems items) ++ "]"
  | .map entries => "\x7b" ++ String.intercalate "," (jsonFields entries) ++ "\x7d"

/-- The items of a list as JSON documents. -/
def jsonItems : List Value → List String
  | [] => []
  | item :: items => json item :: jsonItems items

/-- The entries of a map as the fields of a JSON object. -/
def jsonFields : List (String × Value) → List String
  | [] => []
  | (name, value) :: entries => (Json.quoted name ++ ":" ++ json value) :: jsonFields entries

end

/-- What an action writes for the value, before escaping. -/
def text (value : Value) : String :=
  match value with
  | .null => ""
  | .bool flag => if flag then "true" else "false"
  | .int number => toString number.toInt
  | .float number => pageNumbers.write number
  | .str text => text
  | .html markup => markup
  | .list _ => value.json
  | .map _ => value.json

mutual

/-- The value with the kinds of its parts, as messages show it. -/
def describe : Value → String
  | .null => "Null"
  | .bool flag => if flag then "Bool(true)" else "Bool(false)"
  | .int number => "Int(" ++ toString number.toInt ++ ")"
  | .float number => "Float(" ++ messageNumbers.write number ++ ")"
  | .str text => "Str(" ++ Text.quoted text ++ ")"
  | .html markup => "Html(" ++ Text.quoted markup ++ ")"
  | .list items => "List([" ++ String.intercalate ", " (describeItems items) ++ "])"
  | .map entries => "Map(\x7b" ++ String.intercalate ", " (describeEntries entries) ++ "\x7d)"

/-- The descriptions of the items of a list. -/
def describeItems : List Value → List String
  | [] => []
  | item :: items => describe item :: describeItems items

/-- The descriptions of the entries of a map. -/
def describeEntries : List (String × Value) → List String
  | [] => []
  | (name, value) :: entries =>
    (Text.quoted name ++ ": " ++ describe value) :: describeEntries entries

end

end Value

end ComponentPages
