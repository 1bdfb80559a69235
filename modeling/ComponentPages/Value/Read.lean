import ComponentPages.Number.Binary
import ComponentPages.Json
import ComponentPages.Value

/-!
# Values of JSON documents

A JSON document as data for a template. A number is an integer exactly when it is written as
one and fits in a word; every other number has double precision. No document holds trusted
markup, whatever its fields are called.
-/
namespace ComponentPages

/-- The natural that decimal digits stand for. -/
def Numeral.natural (digits : List Char) : Nat := (Text.natural? digits).getD 0

/-- The number that a numeral stands for, to double precision. -/
def Numeral.float (numeral : Numeral) : Float :=
  let fraction := numeral.fraction.getD []
  let exponent : Int := match numeral.exponent with
    | none => 0
    | some (negative, digits) =>
      if negative then -(Numeral.natural digits : Int) else Numeral.natural digits
  Number.nearest numeral.negative (Numeral.natural (numeral.whole ++ fraction))
    (exponent - fraction.length)

/-- The integer that a numeral stands for, if it is written as one. Minus zero is not. -/
def Numeral.integer? (numeral : Numeral) : Option Int :=
  match numeral.fraction, numeral.exponent, numeral.negative with
  | none, none, false => some (Numeral.natural numeral.whole)
  | none, none, true =>
    match Numeral.natural numeral.whole with
    | 0 => none
    | value => some (-(value : Int))
  | _, _, _ => none

namespace Value

/-- The integer value of an integer that fits in a word. -/
def ofInt? (number : Int) : Option Value :=
  (Number.word? number).map .int

/-- The value of a numeral. -/
def ofNumeral (numeral : Numeral) : Value :=
  (numeral.integer?.bind ofInt?).getD (.float numeral.float)

mutual

/-- The value of a document. -/
def ofJson : Json → Value
  | .null => .null
  | .bool flag => .bool flag
  | .number numeral => ofNumeral numeral
  | .string text => .str (text.getD "")
  | .array items => .list (ofItems items)
  | .object fields => ofEntries (ofFields fields)

/-- The values of the items of an array. -/
def ofItems : List Json → List Value
  | [] => []
  | item :: items => ofJson item :: ofItems items

/-- The values of the fields of an object, under their names. -/
def ofFields : List (Option String × Json) → List (String × Value)
  | [] => []
  | (name, value) :: fields => (name.getD "", ofJson value) :: ofFields fields

end

end Value

end ComponentPages
