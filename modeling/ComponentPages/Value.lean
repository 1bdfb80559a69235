import ComponentPages.Entries
import ComponentPages.Text.Scan

/-!
# Values

The values that templates are evaluated over: the data of a render, the arguments of functions
and their results. Text that is trusted markup is a kind of its own (`html`); it alone is
written to a page unescaped.
-/
namespace ComponentPages

/-- A value of a template. The entries of a map are in increasing order of their names. -/
inductive Value where
  | null
  | bool (flag : Bool)
  | int (number : Int64)
  | float (number : Float)
  | str (text : String)
  | list (items : List Value)
  | map (entries : List (String × Value))
  /-- Trusted markup. -/
  | html (markup : String)
  deriving Inhabited

namespace Value

/-- The map with the given entries; of two entries with one name the later counts. -/
def ofEntries (pairs : List (String × Value)) : Value := .map (Entries.ofList pairs)

/-- Whether a condition takes the value for true. -/
def isTruthy : Value → Bool
  | .null => false
  | .bool flag => flag
  | .int number => number != 0
  | .float number => number != 0.0
  | .str text => text != ""
  | .html markup => markup != ""
  | .list items => !items.isEmpty
  | .map entries => !entries.isEmpty

/-- Whether a number is finite and whole. -/
def isWhole (number : Float) : Bool := number.isFinite && number.floor == number

/-- The integer that the value stands for: a whole number beyond the integers is taken for the
nearest one. -/
def asInt : Value → Option Int64
  | .int number => some number
  | .float number => if isWhole number then some number.toInt64 else none
  | _ => none

/-- The text of a text or of trusted markup. -/
def asText : Value → Option String
  | .str text => some text
  | .html markup => some markup
  | _ => none

/-- The position that a key names in a list: its decimal digits, after a plus sign at most. -/
def position? (key : String) : Option Nat :=
  match key.toList with
  | '+' :: digits => Text.natural? digits
  | digits => Text.natural? digits

/-- The entry of a map or the item of a list under a key. -/
def get? (value : Value) (key : String) : Option Value :=
  match value with
  | .map entries => Entries.find? key entries
  | .list items => (position? key).bind fun position => items[position]?
  | _ => none

/-- The value at the end of a path of keys, null where the path leaves the data. -/
def follow (value : Value) : List String → Value
  | [] => value
  | key :: path =>
    match value.get? key with
    | some next => next.follow path
    | none => .null

/-- The number of characters, items or entries. -/
def size? : Value → Option Nat
  | .str text => some text.length
  | .html markup => some markup.length
  | .list items => some items.length
  | .map entries => some entries.length
  | _ => none

end Value

end ComponentPages
