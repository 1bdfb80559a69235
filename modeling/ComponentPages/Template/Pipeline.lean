import ComponentPages.Template.Token
import ComponentPages.Template.Tree

/-!
# Pipelines of tokens

The pipeline that the tokens of an action stand for. Commands are separated by pipes, and a
group in parentheses is a pipeline of its own. The first fault from left to right is reported;
at an opening parenthesis that is the lack of its partner, then a fault inside the group.
-/
namespace ComponentPages.Template

/-- The tokens up to the closing parenthesis of the group that they are in, and the tokens
after it; the depth counts the groups opened since. -/
def cutGroup : Nat → List Token → Option (List Token × List Token)
  | _, [] => none
  | 0, .closing :: rest => some ([], rest)
  | depth + 1, .closing :: rest =>
    (cutGroup depth rest).map fun (inner, after) => (.closing :: inner, after)
  | depth, .opening :: rest =>
    (cutGroup (depth + 1) rest).map fun (inner, after) => (.opening :: inner, after)
  | depth, token :: rest =>
    (cutGroup depth rest).map fun (inner, after) => (token :: inner, after)

/-- A group and the tokens after it are the tokens that they were cut from. -/
theorem eq_append_of_cutGroup {depth : Nat} {tokens inner after : List Token}
    (h : cutGroup depth tokens = some (inner, after)) :
    tokens = inner ++ .closing :: after := by
  fun_induction cutGroup depth tokens generalizing inner after with
  | case1 => simp at h
  | case2 rest =>
    obtain ⟨rfl, rfl⟩ := Prod.mk.inj (Option.some.inj h)
    rfl
  | case3 depth rest ih =>
    obtain ⟨⟨found, tail⟩, read, same⟩ := Option.map_eq_some_iff.1 h
    obtain ⟨rfl, rfl⟩ := Prod.mk.inj same
    simp [ih read]
  | case4 depth rest ih =>
    obtain ⟨⟨found, tail⟩, read, same⟩ := Option.map_eq_some_iff.1 h
    obtain ⟨rfl, rfl⟩ := Prod.mk.inj same
    simp [ih read]
  | case5 depth token rest _ _ _ ih =>
    obtain ⟨⟨found, tail⟩, read, same⟩ := Option.map_eq_some_iff.1 h
    obtain ⟨rfl, rfl⟩ := Prod.mk.inj same
    simp [ih read]

/-- The operand that a word stands for. -/
def operandOfWord (name : String) : Operand :=
  if name = "true" then .literal (.bool true)
  else if name = "false" then .literal (.bool false)
  else if name = "nil" then .literal .null
  else .call name

/-- The operand that a token stands for by itself. -/
def operand? : Token → Option Operand
  | .text content => some (.literal (.str content))
  | .int number => some (.literal (.int number))
  | .float number => some (.literal (.float number))
  | .word name => some (operandOfWord name)
  | .dot path => some (.dot path)
  | .root path => some (.root path)
  | .opening => none
  | .closing => none
  | .pipe => none

/-- The pipeline of the commands read, the operands of the command being read, and the tokens
after these. -/
def readPipeline (commands : List Command) (operands : List Operand) (tokens : List Token) :
    Except ParseFault Pipeline :=
  match tokens with
  | [] =>
    match operands with
    | [] => .error .missingValue
    | head :: arguments => .ok (.ofCommands commands (.of head arguments))
  | .pipe :: rest =>
    match operands with
    | [] => .error .missingCommand
    | head :: arguments => readPipeline (commands ++ [.of head arguments]) [] rest
  | .opening :: rest =>
    match _group : cutGroup 0 rest with
    | none => .error .unclosedParenthesis
    | some (inner, after) => do
      let pipeline ← readPipeline [] [] inner
      readPipeline commands (operands ++ [.group pipeline]) after
  | token :: rest =>
    match operand? token with
    | none => .error .unexpectedParenthesis
    | some operand => readPipeline commands (operands ++ [operand]) rest
termination_by tokens.length
decreasing_by
  · simp
  · rw [eq_append_of_cutGroup _group]
    simp only [List.length_append, List.length_cons]
    omega
  · rw [eq_append_of_cutGroup _group]
    simp only [List.length_append, List.length_cons]
    omega
  · simp

/-- The pipeline that the tokens of an action stand for. -/
def Pipeline.ofTokens (tokens : List Token) : Except ParseFault Pipeline :=
  readPipeline [] [] tokens

end ComponentPages.Template
