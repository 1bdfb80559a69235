import ComponentPages.Text.Quoted

/-!
# Failures

Why an operation can fail. Each kind of failure names its cause; the wording is in the
`message` functions alone. A template fails to parse for a `ParseFault`, an action fails for an
`ActionFault`, and a function refuses its arguments for a `CallFault`. An operation can also be
given up, which ends it without a message (`Failure.abandoned`): by a helper, or for a list that would
be too long (`Abandonment`).
-/
namespace ComponentPages

/-- Why a template does not parse. -/
inductive ParseFault where
  | unclosedAction
  | unclosedText (action : String)
  | unclosedEscape
  | unclosedRawText (action : String)
  | badNumber (text : String)
  | unexpectedCharacter (character : Char) (action : String)
  | unexpectedEnd
  | unexpectedElse
  | tokensAfterElse
  | elseIfOutsideIf
  | missingEnd
  | missingCommand
  | missingValue
  | unclosedParenthesis
  | unexpectedParenthesis
  deriving DecidableEq, Repr

/-- An action as it is shown in a message. -/
def shownAction (action : String) : String := "\x7b\x7b" ++ action ++ "\x7d\x7d"

/-- The wording of a fault of a template. -/
def ParseFault.message : ParseFault → String
  | .unclosedAction => "unclosed action"
  | .unclosedText action => "unterminated string in " ++ shownAction action
  | .unclosedEscape => "unterminated escape"
  | .unclosedRawText action => "unterminated raw string in " ++ shownAction action
  | .badNumber text => "bad number syntax: " ++ text
  | .unexpectedCharacter character action =>
    "unexpected " ++ Text.quotedChar character ++ " in " ++ shownAction action
  | .unexpectedEnd => "unexpected " ++ shownAction "end"
  | .unexpectedElse => "unexpected " ++ shownAction "else"
  | .tokensAfterElse => "unexpected tokens after " ++ shownAction "else"
  | .elseIfOutsideIf =>
    shownAction "else if" ++ " is only allowed inside " ++ shownAction "if"
  | .missingEnd => "unexpected EOF, missing " ++ shownAction "end"
  | .missingCommand => "missing command before '|'"
  | .missingValue => "missing value for command"
  | .unclosedParenthesis => "unclosed '('"
  | .unexpectedParenthesis => "unexpected ')'"

/-- Why an action of a template fails, apart from the functions that it calls. -/
inductive ActionFault where
  /-- The value to range over, with its text, has no items. -/
  | notIterable (text : String)
  | argumentToValue
  | undefinedFunction (name : String)
  deriving DecidableEq, Repr

/-- The wording of a fault of an action. -/
def ActionFault.message : ActionFault → String
  | .notIterable text => "range can't iterate over " ++ text
  | .argumentToValue => "can't give argument to non-function"
  | .undefinedFunction name => "function \"" ++ name ++ "\" not defined"

/-- Why a function refuses its arguments. -/
inductive CallFault where
  | argumentCount (wanted given : Nat)
  | incomparable
  | noLength
  /-- The argument with the given description is no integer. -/
  | notInteger (description : String)
  | integerOverflow
  | divisionByZero
  | noComponentName
  | noIndex
  | noDefault
  /-- A reason of the function's own. -/
  | refused (reason : String)
  deriving DecidableEq, Repr

/-- The wording of a refusal. -/
def CallFault.message : CallFault → String
  | .argumentCount wanted given =>
    "wrong number of args: want " ++ toString wanted ++ ", got " ++ toString given
  | .incomparable => "incompatible types for comparison"
  | .noLength => "len of unsupported type"
  | .notInteger description => "expected integer, got " ++ description
  | .integerOverflow => "integer overflow"
  | .divisionByZero => "integer divide by zero"
  | .noComponentName => "expected a component name"
  | .noIndex => "expected an integer index"
  | .noDefault => "missing default value"
  | .refused reason => reason

/-- Why a map cannot be built of keys and values. -/
inductive DictFault where
  | oddArguments
  /-- The key with the given description is no text. -/
  | keyNotText (description : String)
  deriving DecidableEq, Repr

/-- The wording of a fault of a map. -/
def DictFault.message : DictFault → String
  | .oddArguments => "odd number of arguments"
  | .keyNotText description => "keys must be strings, got " ++ description

/-- What gives an operation up. -/
inductive Abandonment where
  /-- The helper of the name gives up. -/
  | helper (name : String)
  /-- No list is long enough for the integers that a range goes over. -/
  | range (count : Int64)
  deriving DecidableEq, Repr

/-- Where a helper gives up, its name says so. -/
instance : Coe String Abandonment := ⟨.helper⟩

/-- Why an operation fails. -/
inductive Failure where
  /-- A document cannot be read. -/
  | unreadable (path : String)
  /-- A page shell lacks a tag that it needs. -/
  | missingAnchor (anchor : String)
  /-- No document of a load has the name of the page shell. -/
  | shellNotFound (name : String)
  /-- A page is rendered before there is a page shell. -/
  | noShell
  | componentNotFound (name : String)
  | dict (fault : DictFault)
  /-- An invocation would nest deeper than allowed. -/
  | recursionLimit (name : String) (limit : Nat)
  | templateParse (name : String) (fault : ParseFault)
  | evaluation (template : String) (fault : ActionFault)
  | function (name : String) (fault : CallFault)
  /-- The operation was given up, without an answer or a reason. -/
  | abandoned (cause : Abandonment)
  deriving DecidableEq, Repr

/-- The wording of a failure. One that has no wording of its own has an empty message. -/
def Failure.message : Failure → String
  | .unreadable _ => ""
  | .missingAnchor anchor => "Layout template must contain " ++ anchor ++ " tag"
  | .shellNotFound name =>
    "Layout template '" ++ name ++ "' not found in any of the provided directories"
  | .noShell => "Layout template not defined"
  | .componentNotFound name => "Component '" ++ name ++ "' not found"
  | .dict fault => "dict: " ++ fault.message
  | .recursionLimit name limit =>
    "Component '" ++ name ++ "' exceeded the nesting limit of " ++ toString limit
  | .templateParse name fault => "Failed to parse template '" ++ name ++ "': " ++ fault.message
  | .evaluation template fault =>
    "Error executing template '" ++ template ++ "': " ++ fault.message
  | .function name fault => "Error calling " ++ name ++ ": " ++ fault.message
  | .abandoned _ => ""

variable {ε α β : Type}

/-- Outcomes can be compared where their values and their failures can. -/
instance decidableEqExcept [DecidableEq ε] [DecidableEq α] : DecidableEq (Except ε α)
  | .ok left, .ok right =>
    decidable_of_iff (left = right) ⟨congrArg Except.ok, Except.ok.inj⟩
  | .error left, .error right =>
    decidable_of_iff (left = right) ⟨congrArg Except.error, Except.error.inj⟩
  | .ok _, .error _ => isFalse nofun
  | .error _, .ok _ => isFalse nofun

/-- A sequence that succeeds is a first step that does and one after it. -/
theorem exists_of_bind_ok {first : Except ε α} {next : α → Except ε β} {result : β}
    (done : (first >>= next) = .ok result) :
    ∃ value, first = .ok value ∧ next value = .ok result := by
  cases first with
  | error failure => exact nomatch done
  | ok value => exact ⟨value, rfl, done⟩

/-- What is made of a success is made of its value. -/
theorem exists_of_map_ok {first : Except ε α} {change : α → β} {result : β}
    (done : first.map change = .ok result) :
    ∃ value, first = .ok value ∧ change value = result := by
  cases first with
  | error failure => exact nomatch done
  | ok value => exact ⟨value, rfl, Except.ok.inj done⟩

end ComponentPages
