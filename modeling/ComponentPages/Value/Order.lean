import ComponentPages.Value

/-!
# Equality and order of values

Values are the same (`Value.same`) when they have one shape and equal parts, where numbers of
double precision are equal as numbers: what is not a number differs from itself. Values are
loosely equal (`Value.looselyEqual`) when they are the same, or are equal as numbers, or are
equal as text whether trusted or not. Numbers, texts and truth values have an order
(`Value.order`), other values none.
-/
namespace ComponentPages

namespace Value

mutual

/-- Whether two values have one shape and equal parts. -/
def same : Value → Value → Bool
  | .null, .null => true
  | .bool left, .bool right => left == right
  | .int left, .int right => left == right
  | .float left, .float right => left == right
  | .str left, .str right => left == right
  | .html left, .html right => left == right
  | .list left, .list right => sameItems left right
  | .map left, .map right => sameEntries left right
  | _, _ => false

/-- Whether two lists have the same items in order. -/
def sameItems : List Value → List Value → Bool
  | [], [] => true
  | left :: lefts, right :: rights => same left right && sameItems lefts rights
  | _, _ => false

/-- Whether two maps have the same values under the same names. -/
def sameEntries : List (String × Value) → List (String × Value) → Bool
  | [], [] => true
  | (name, left) :: lefts, (other, right) :: rights =>
    name == other && same left right && sameEntries lefts rights
  | _, _ => false

end

/-- The order of two numbers of double precision, if both are numbers. -/
def orderFloats (left right : Float) : Option Ordering :=
  if left < right then some .lt
  else if left == right then some .eq
  else if right < left then some .gt
  else none

/-- The order of two values, if they have one. Texts are ordered by code points. -/
def order : Value → Value → Option Ordering
  | .int left, .int right => some (compare left.toInt right.toInt)
  | .int left, .float right => orderFloats left.toFloat right
  | .float left, .int right => orderFloats left right.toFloat
  | .float left, .float right => orderFloats left right
  | .bool left, .bool right => some (compare left.toNat right.toNat)
  | left, right =>
    match left.asText, right.asText with
    | some left, some right =>
      some (if left < right then .lt else if left = right then .eq else .gt)
    | _, _ => none

/-- Whether a value is a number. -/
def isNumber : Value → Bool
  | .int _ => true
  | .float _ => true
  | _ => false

/-- Whether two values are the same, equal as numbers or equal as texts. -/
def looselyEqual (left right : Value) : Bool :=
  if left.isNumber && right.isNumber then left.order right == some .eq
  else match left.asText, right.asText with
    | some left, some right => left == right
    | _, _ => left.same right

end Value

end ComponentPages
