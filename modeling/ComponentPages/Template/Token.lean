import ComponentPages.Number.Binary
import ComponentPages.Failure
import ComponentPages.Text.Blank
import ComponentPages.Text.Letter
import ComponentPages.Text.Scan

/-!
# Tokens of an action

The text of an action as a list of tokens. Blanks separate tokens and are dropped; the first
text that starts no token, or a text or number that is malformed, fails the whole action.
-/
namespace ComponentPages.Template

open Text

/-- The quote of a raw text. -/
def rawQuote : Char := '\x60'

/-- A token of an action. -/
inductive Token where
  | text (content : String)
  | int (number : Int64)
  | float (number : Float)
  | word (name : String)
  /-- A dot and the path after it. -/
  | dot (path : List String)
  /-- A dollar sign and the path after it. -/
  | root (path : List String)
  | opening
  | closing
  | pipe

/-- The character that a letter after a backslash stands for. -/
def unescape (letter : Char) : Char :=
  if letter == 'n' then '\n' else if letter == 't' then '\t' else letter

/-- Reads a text after its opening quote, up to the closing one. -/
def readText (action : String) : List Char → Except ParseFault (List Char × List Char)
  | [] => .error (.unclosedText action)
  | '"' :: rest => .ok ([], rest)
  | ['\\'] => .error .unclosedEscape
  | '\\' :: letter :: rest =>
    (readText action rest).map fun (content, after) => (unescape letter :: content, after)
  | c :: rest => (readText action rest).map fun (content, after) => (c :: content, after)

/-- Reads a raw text after its opening quote, up to the closing one. -/
def readRawText (action : String) (rest : List Char) :
    Except ParseFault (List Char × List Char) :=
  match cut [rawQuote] rest with
  | some found => .ok found
  | none => .error (.unclosedRawText action)

/-- Reads the names of a path, each after a dot, as far as they go. -/
def readPath : List Char → List String × List Char
  | '.' :: c :: rest =>
    if isNameChar c then
      let (path, after) := readPath (rest.dropWhile isNameChar)
      (String.ofList (c :: rest.takeWhile isNameChar) :: path, after)
    else ([], '.' :: c :: rest)
  | rest => ([], rest)
termination_by text => text.length
decreasing_by
  have := (List.dropWhile_sublist isNameChar (l := rest)).length_le
  simp only [List.length_cons]
  omega

/-- Reads the path after a dot, whose first name needs no dot of its own. -/
def readField (rest : List Char) : List String × List Char :=
  match rest with
  | c :: _ => if isNameChar c then readPath ('.' :: rest) else readPath rest
  | [] => ([], [])

/-- The number of digits with at most one point and a sign, with the sign taken off. -/
def number? (negative : Bool) (text : List Char) : Option Token :=
  match splitWhere (· == '.') text with
  | [whole] => do
    let size ← natural? whole
    let value : Int := if negative then -size else size
    (Number.word? value).map .int
  | [whole, fraction] => do
    let size ← natural? (whole ++ fraction)
    some (.float (Number.nearest negative size (-fraction.length)))
  | _ => none

/-- Reads a number that starts with a digit, or with a minus sign before one. -/
def readNumber (first : Char) (rest : List Char) : Except ParseFault (Token × List Char) :=
  let digits := rest.takeWhile fun c => c.isDigit || c == '.'
  let after := rest.dropWhile fun c => c.isDigit || c == '.'
  let found := if first == '-' then number? true digits else number? false (first :: digits)
  match found with
  | some token => .ok (token, after)
  | none => .error (.badNumber (String.ofList (first :: digits)))

/-- Whether a text starts with a digit. -/
def startsWithDigit : List Char → Bool
  | [] => false
  | c :: _ => c.isDigit

/-- Reads the token that starts with the given character, which is no blank. -/
def readToken (action : String) (c : Char) (rest : List Char) :
    Except ParseFault (Token × List Char) :=
  if c == '(' then .ok (.opening, rest)
  else if c == ')' then .ok (.closing, rest)
  else if c == '|' then .ok (.pipe, rest)
  else if c == '"' then
    (readText action rest).map fun (content, after) => (.text (String.ofList content), after)
  else if c == rawQuote then
    (readRawText action rest).map fun (content, after) => (.text (String.ofList content), after)
  else if c == '.' then
    let (path, after) := readField rest
    .ok (.dot path, after)
  else if c == '$' then
    let (path, after) := readPath rest
    .ok (.root path, after)
  else if c.isDigit || (c == '-' && startsWithDigit rest) then readNumber c rest
  else if isNameChar c then
    .ok (.word (String.ofList (c :: rest.takeWhile isNameChar)), rest.dropWhile isNameChar)
  else .error (.unexpectedCharacter c action)

/-- The tokens of the text of an action; the action is what messages show. -/
def readTokens (action : String) : List Char → Except ParseFault (List Token)
  | [] => .ok []
  | c :: rest =>
    if isBlank c then readTokens action rest
    else match readToken action c rest with
      | .error fault => .error fault
      | .ok (token, after) =>
        if after.length ≤ rest.length then (readTokens action after).map (token :: ·)
        else .ok [token]
termination_by text => text.length

/-- The tokens of an action. -/
def tokenize (action : List Char) : Except ParseFault (List Token) :=
  readTokens (String.ofList action) action

end ComponentPages.Template
