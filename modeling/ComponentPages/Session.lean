import ComponentPages.Registry
import ComponentPages.Usage

/-!
# Sessions

The composition of components in one render. An invocation runs the template of a component in
a frame of its own: functions of the template read the arguments of the innermost frame, and the
frame goes when the invocation ends, whether it fails or not. Every component that is invoked
is marked as used. Invocations nest at most as deep as the options allow; the recursion is on
the number of frames that may still be added.
-/
namespace ComponentPages

open Template

/-- One invocation of a component. -/
structure CallFrame where
  name : String
  /-- The arguments of the caller, in order. -/
  arguments : List Value

/-- The report of an invocation that began. -/
structure Invocation where
  frame : CallFrame
  /-- The number of frames on the stack, this one included. -/
  depth : Nat

/-- The state of a render. -/
structure Session where
  /-- The invocations that have not ended, from the innermost one. -/
  stack : List CallFrame
  /-- The components marked as used. -/
  usage : Usage
  /-- The reports of the invocations, in the order in which they began. Nothing reads them in a
  render. -/
  begun : List Invocation

namespace Session

/-- The state at the start of a render. -/
def start : Session := ⟨[], .empty, []⟩

/-- The components marked as used, in the order of their first marks. -/
def used (session : Session) : List String := session.usage.order

/-- The number of invocations that have not ended. -/
def depth (session : Session) : Nat := session.stack.length

/-- Marks the component that a reference stands for as used. -/
def mark (session : Session) (reference : String) : Session :=
  { session with usage := session.usage.use (componentName reference) }

/-- The argument of the innermost invocation at an index, null where there is none. -/
def param (session : Session) (index : Int) : Value :=
  match session.stack with
  | [] => .null
  | frame :: _ => if index < 0 then .null else (frame.arguments[index.toNat]?).getD .null

/-- The argument of the innermost invocation at an index, or a default where that is null. -/
def paramOr (session : Session) (index : Int) (fallback : Value) : Value :=
  match session.param index with
  | .null => fallback
  | value => value

/-- An invocation begins: its component is marked, its frame is the innermost one, and it is
reported. -/
def enter (session : Session) (frame : CallFrame) : Session :=
  let marked := session.mark frame.name
  ⟨frame :: marked.stack, marked.usage, marked.begun ++ [⟨frame, marked.depth + 1⟩]⟩

/-- The innermost invocation ends. -/
def leave (session : Session) : Session := { session with stack := session.stack.tail }

/-- Runs a computation in a frame, which goes when the computation ends. -/
def inFrame {α : Type} (frame : CallFrame) (computation : Eval Session α) : Eval Session α :=
  ExceptT.mk fun session =>
    let (outcome, after) := computation.run (session.enter frame)
    (outcome, after.leave)

/-- The data of an invocation: a single map as it is, other arguments under their numbers. -/
def dataOf : List Value → Value
  | [.map entries] => .map entries
  | arguments => .ofEntries (arguments.zipIdx.map fun (value, index) => (toString index, value))

end Session

/-- The style and the script of components. -/
structure Assets where
  css : String
  js : String
  deriving DecidableEq, Repr

/-- A text on lines of its own, nothing if it is empty. -/
def assetLine (text : String) : String := if text = "" then "" else text ++ "\n"

namespace Registry

/-- The styles and scripts of the named components, in order. -/
def assets (registry : Registry) (names : List String) : Assets :=
  let components := names.filterMap registry.lookup
  ⟨String.join (components.map fun component => assetLine component.style),
    String.join (components.map fun component => assetLine component.script)⟩

/-- The integer that is the first argument of a function. -/
def indexArgument (name : String) (arguments : List Value) : Except Failure Int :=
  match arguments.head?.bind Value.asInt with
  | some index => .ok index.toInt
  | none => .error (.function name .noIndex)

/-- The functions that templates of a session know, where invocations are made by the given
computation: first those of the session, then the helpers. -/
def hostOf (registry : Registry) (invoke : String → List Value → Eval Session Value) :
    Host Session := fun name arguments =>
  match name with
  | "comp" => some <|
    match arguments with
    | .str reference :: others => invoke reference others
    | _ => throw (.function name .noComponentName)
  | "param" => some do
    let index ← liftExcept (indexArgument name arguments)
    return (← get).param index
  | "paramOr" => some do
    let index ← liftExcept (indexArgument name arguments)
    match arguments[1]? with
    | some fallback => return (← get).paramOr index fallback
    | none => throw (.function name .noDefault)
  | "dict" => some (liftExcept (dict arguments))
  | _ => (registry.callHelper name arguments).map liftExcept

/-- Invokes the component that a reference stands for, where at most the given number of frames
may be added to the stack. -/
def invokeWithin (registry : Registry) (room : Nat) (reference : String)
    (arguments : List Value) : Eval Session Value :=
  let name := componentName reference
  match registry.entry? name with
  | none => throw (.componentNotFound name)
  | some entry =>
    match room with
    | 0 => throw (.recursionLimit name registry.options.maxDepth)
    | room + 1 => do
      let html ← Session.inFrame ⟨name, arguments⟩
        (entry.template.execute (Session.dataOf arguments)
          (registry.hostOf (registry.invokeWithin room)))
      return .html html

/-- Invokes the component that a reference stands for. -/
def invoke (registry : Registry) (reference : String) (arguments : List Value) :
    Eval Session Value := do
  registry.invokeWithin (registry.options.maxDepth - (← get).depth) reference arguments

/-- The functions that templates of a session know. -/
def host (registry : Registry) : Host Session := registry.hostOf registry.invoke

end Registry

end ComponentPages
