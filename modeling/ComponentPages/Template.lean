import ComponentPages.Template.Block
import ComponentPages.Template.Builtin
import ComponentPages.Template.Escape

/-!
# Templates

A template is parsed once and evaluated any number of times; its name stands in the messages of its
failures. Evaluation says what the nodes of a template write, given data and a host that knows
functions. The host may keep a state; evaluation passes it on from left to right, and a failure ends
the evaluation with the state that it has then. Trusted markup is written as it is, every other
value escaped. The evaluation is structural in the tree: only the host can call another template.
What a list or a text can hold is taken to fit into memory.
-/
namespace ComponentPages.Template

/-- A computation with a state that may fail; the state outlives a failure. -/
abbrev Eval (σ α : Type) := ExceptT Failure (StateM σ) α

/-- The functions that a host knows, by name; none where it knows none of the name. -/
abbrev Host (σ : Type) := String → List Value → Option (Eval σ Value)

/-- The host that knows no functions. -/
def Host.none {σ : Type} : Host σ := fun _ _ => .none

/-- What stays the same while a template is evaluated. -/
structure Setting (σ : Type) where
  /-- The name of the template, for messages. -/
  template : String
  /-- The data of the template. -/
  data : Value
  host : Host σ

variable {σ : Type}

/-- Fails for a fault of an action. -/
def Setting.fail {α : Type} (setting : Setting σ) (fault : ActionFault) : Eval σ α :=
  throw (.evaluation setting.template fault)

/-- Calls a function: one of the host, else a built-in one. -/
def Setting.call (setting : Setting σ) (name : String) (arguments : List Value) :
    Eval σ Value :=
  match setting.host name arguments with
  | some answer => answer
  | none =>
    match builtin name arguments with
    | some answer => liftExcept answer
    | none => setting.fail (.undefinedFunction name)

/-- The bytes that a value takes in a list. -/
def valueBytes : Nat := 32

/-- The most bytes that the values of a list take. -/
def listBytes : Nat := 0x7FFFFFFFFFFFFFFF

/-- No list is long enough for the integers below a count. -/
def Overlong (count : Int64) : Prop := listBytes < valueBytes * count.toInt.toNat

instance (count : Int64) : Decidable (Overlong count) :=
  inferInstanceAs (Decidable (listBytes < valueBytes * count.toInt.toNat))

/-- The least count that no list is long enough for. -/
theorem overlong_iff {count : Int64} : Overlong count ↔ 0x400000000000000 ≤ count.toInt := by
  simp only [Overlong, listBytes, valueBytes]
  omega

/-- The items that a range goes over. The integers below a count are listed before the first of them
is gone over, so a count that no list is long enough for is given up. -/
def Setting.items (setting : Setting σ) : Value → Except Failure (List Value)
  | .list items => .ok items
  | .map entries => .ok (entries.map Prod.snd)
  | .int count =>
    if Overlong count then .error (.abandoned (.range count))
    else .ok ((List.range count.toInt.toNat).map fun index => .int (Int64.ofNat index))
  | .null => .ok []
  | value => .error (.evaluation setting.template (.notIterable value.text))

/-- What an action writes for a value. -/
def written : Value → String
  | .html markup => markup
  | value => escape value.text

mutual

/-- The value of an operand. -/
def Operand.evaluate (setting : Setting σ) (dot : Value) : Operand → Eval σ Value
  | .dot path => pure (dot.follow path)
  | .root path => pure (setting.data.follow path)
  | .call name => setting.call name []
  | .literal value => pure value
  | .group pipeline => pipeline.evaluate setting dot

/-- The values of operands, from left to right. -/
def Operand.evaluateAll (setting : Setting σ) (dot : Value) : List Operand → Eval σ (List Value)
  | [] => pure []
  | operand :: operands => do
    let value ← operand.evaluate setting dot
    let values ← Operand.evaluateAll setting dot operands
    pure (value :: values)

/-- The value of a command, which may be given a value as its last argument. Only a function
takes arguments. -/
def Command.evaluate (setting : Setting σ) (dot : Value) (piped : Option Value) :
    Command → Eval σ Value
  | .of (.call name) arguments => do
    let values ← Operand.evaluateAll setting dot arguments
    setting.call name (values ++ piped.toList)
  | .of head arguments =>
    if arguments.isEmpty && piped.isNone then head.evaluate setting dot
    else setting.fail .argumentToValue

/-- The value of the last command, where each is given the value of the one before. -/
def Command.evaluateAll (setting : Setting σ) (dot : Value) (piped : Value) :
    List Command → Eval σ Value
  | [] => pure piped
  | command :: commands => do
    let value ← command.evaluate setting dot (some piped)
    Command.evaluateAll setting dot value commands

/-- The value of a pipeline. -/
def Pipeline.evaluate (setting : Setting σ) (dot : Value) : Pipeline → Eval σ Value
  | .of first others => do
    let value ← first.evaluate setting dot none
    Command.evaluateAll setting dot value others

end

mutual

/-- What a node writes. -/
def Node.evaluate (setting : Setting σ) (dot : Value) : Node → Eval σ String
  | .text content => pure content
  | .output pipeline => do
    let value ← pipeline.evaluate setting dot
    pure (written value)
  | .conditional (.of condition body) others otherwise => do
    let value ← condition.evaluate setting dot
    if value.isTruthy then Node.evaluateAll setting dot body
    else
      match ← Branch.evaluateFirst setting dot others with
      | some output => pure output
      | none => Node.evaluateAll setting dot otherwise
  | .range source body otherwise => do
    let value ← source.evaluate setting dot
    match ← liftExcept (setting.items value) with
    | [] => Node.evaluateAll setting dot otherwise
    | items => do
      let outputs ← items.mapM fun item => Node.evaluateAll setting item body
      pure (String.join outputs)
  | .within pipeline body otherwise => do
    let value ← pipeline.evaluate setting dot
    if value.isTruthy then Node.evaluateAll setting value body
    else Node.evaluateAll setting dot otherwise

/-- What nodes write, one after the other. -/
def Node.evaluateAll (setting : Setting σ) (dot : Value) : List Node → Eval σ String
  | [] => pure ""
  | node :: nodes => do
    let output ← node.evaluate setting dot
    let outputs ← Node.evaluateAll setting dot nodes
    pure (output ++ outputs)

/-- What the first branch writes whose condition holds, if one does. -/
def Branch.evaluateFirst (setting : Setting σ) (dot : Value) :
    List Branch → Eval σ (Option String)
  | [] => pure none
  | .of condition body :: branches => do
    let value ← condition.evaluate setting dot
    if value.isTruthy then
      let output ← Node.evaluateAll setting dot body
      pure (some output)
    else Branch.evaluateFirst setting dot branches

end

end ComponentPages.Template

namespace ComponentPages

open Template

/-- A parsed template. -/
structure Template where
  name : String
  nodes : List Node

namespace Template

/-- Parses a template. -/
def parse (name source : String) : Except Failure Template :=
  match segments source.toList >>= Node.ofSegments with
  | .ok nodes => .ok ⟨name, nodes⟩
  | .error fault => .error (.templateParse name fault)

/-- What a template writes for its data, which is also the current value at its start. -/
def execute {σ : Type} (template : Template) (data : Value) (host : Host σ) : Eval σ String :=
  Node.evaluateAll ⟨template.name, data, host⟩ data template.nodes

end Template

end ComponentPages
