import ComponentPages.Failure
import ComponentPages.Value.Order
import ComponentPages.Value.Write

/-!
# Built-in functions

The functions that every template knows: comparison, logic, sizes, look-up and printing. A
host that has a function of the same name goes before them. Too few arguments are refused;
arguments beyond those that a function uses are ignored.
-/
namespace ComponentPages.Template

/-- Applies a function of one argument and more. -/
def withOne (name : String) (arguments : List Value) (apply : Value → List Value → α) :
    Except Failure α :=
  match arguments with
  | [] => .error (.function name (.argumentCount 1 0))
  | first :: others => .ok (apply first others)

/-- Applies a function of two arguments and more. -/
def withTwo (name : String) (arguments : List Value)
    (apply : Value → Value → List Value → α) : Except Failure α :=
  match arguments with
  | first :: second :: others => .ok (apply first second others)
  | _ => .error (.function name (.argumentCount 2 arguments.length))

/-- Tells whether the order of two arguments is an accepted one. -/
def ordered (name : String) (arguments : List Value) (accept : Ordering → Bool) :
    Except Failure Value := do
  match ← withTwo name arguments fun left right _ => left.order right with
  | some order => .ok (.bool (accept order))
  | none => .error (.function name .incomparable)

/-- The first argument that a test accepts, else the last one, else null. -/
def firstOrLast (test : Value → Bool) (arguments : List Value) : Value :=
  ((arguments.find? test).or arguments.getLast?).getD .null

/-- The size of the first argument. -/
def size (name : String) (arguments : List Value) : Except Failure Value := do
  match ← withOne name arguments fun value _ => value.size? with
  | some size => .ok (.int (Int64.ofNat size))
  | none => .error (.function name .noLength)

/-- What a built-in function answers, if there is one of the name. -/
def builtin (name : String) (arguments : List Value) : Option (Except Failure Value) :=
  match name with
  | "eq" => some (withTwo name arguments fun value other others =>
      .bool ((other :: others).any value.looselyEqual))
  | "ne" => some (withTwo name arguments fun left right _ => .bool !left.looselyEqual right)
  | "lt" => some (ordered name arguments Ordering.isLT)
  | "le" => some (ordered name arguments Ordering.isLE)
  | "gt" => some (ordered name arguments Ordering.isGT)
  | "ge" => some (ordered name arguments Ordering.isGE)
  | "not" => some (withOne name arguments fun value _ => .bool !value.isTruthy)
  | "and" => some (.ok (firstOrLast (fun value => !value.isTruthy) arguments))
  | "or" => some (.ok (firstOrLast Value.isTruthy arguments))
  | "len" => some (size name arguments)
  | "index" => some (withOne name arguments fun value keys =>
      keys.foldl (fun value key => (value.get? key.text).getD .null) value)
  | "print" => some (.ok (.str (String.join (arguments.map Value.text))))
  | _ => none

end ComponentPages.Template
