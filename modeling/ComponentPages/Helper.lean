import ComponentPages.Failure
import ComponentPages.Number.Binary
import ComponentPages.Value.Write

/-!
# Helpers

The functions that a registry lends to its templates. A helper answers a value, refuses its
arguments for a reason, or gives up. The default helpers calculate with integers, write JSON
and look at fields: sums, differences and products are exact or refused, and a remainder has
the sign of the dividend.
-/
namespace ComponentPages

/-- Why a helper has no answer. -/
inductive Refusal where
  | fault (fault : CallFault)
  /-- The helper gives up. -/
  | abandon
  deriving DecidableEq, Repr

/-- A function that a registry lends to its templates. -/
abbrev Helper := List Value → Except Refusal Value

namespace Helper

/-- The integer of an argument. -/
def integer (value : Value) : Except Refusal Int64 :=
  match value.asInt with
  | some number => .ok number
  | none => .error (.fault (.notInteger value.describe))

/-- The two integers of two arguments. -/
def integers (arguments : List Value) : Except Refusal (Int64 × Int64) :=
  match arguments with
  | [left, right] => do
    let left ← integer left
    let right ← integer right
    .ok (left, right)
  | _ => .error (.fault (.argumentCount 2 arguments.length))

/-- The integer value of a number that fits in a word. -/
def exactly (number : Int) : Except Refusal Value :=
  match Number.word? number with
  | some word => .ok (.int word)
  | none => .error (.fault .integerOverflow)

/-- The helper that applies an operation to two integers. -/
def arithmetic (operation : Int → Int → Int) : Helper := fun arguments => do
  let (left, right) ← integers arguments
  exactly (operation left.toInt right.toInt)

/-- The remainder of two integers. The remainder of the least integer by minus one is given
up. -/
def remainder : Helper := fun arguments => do
  let (left, right) ← integers arguments
  if right = 0 then .error (.fault .divisionByZero)
  else if left = Int64.minValue ∧ right = -1 then .error .abandon
  else .ok (.int (Int64.ofInt (left.toInt.tmod right.toInt)))

/-- The JSON text of the first argument, `{}` without one. -/
def toJson : Helper := fun arguments =>
  .ok (.str ((arguments.head?.map Value.json).getD "\x7b\x7d"))

/-- Whether a map holds something that counts as true under a key. -/
def hasField : Helper := fun arguments =>
  match arguments with
  | [.map entries, key] =>
    .ok (.bool (((Entries.find? key.text entries).map Value.isTruthy).getD false))
  | [_, _] => .ok (.bool false)
  | _ => .error (.fault (.argumentCount 2 arguments.length))

/-- The default helpers. -/
def defaults : Entries Helper := Entries.ofList [
  ("add", arithmetic (· + ·)), ("sub", arithmetic (· - ·)), ("mul", arithmetic (· * ·)),
  ("mod", remainder), ("toJson", toJson), ("hasField", hasField)]

/-- The names that no helper can take: the functions of a render. -/
def reserved : List String := ["comp", "param", "paramOr", "dict"]

end Helper

/-- The entries of a map whose names and values alternate. -/
def dictPairs : List Value → Except DictFault (List (String × Value))
  | key :: value :: rest =>
    match key.asText with
    | some name => (dictPairs rest).map ((name, value) :: ·)
    | none => .error (.keyNotText key.describe)
  | _ => .ok []

/-- The map whose names and values alternate in the arguments. -/
def dict (arguments : List Value) : Except Failure Value :=
  if arguments.length % 2 = 1 then .error (.dict .oddArguments)
  else match dictPairs arguments with
    | .ok pairs => .ok (.ofEntries pairs)
    | .error fault => .error (.dict fault)

end ComponentPages
