import ComponentPages.Text.Scan

/-!
# JSON

JSON documents and their reading. A number keeps the digits it was written with, so that a
whole number and a number with a fraction stay apart. A string is a text only if its escapes
name whole characters; one that leaves half of a surrogate pair is still grammatical, and
matters only to someone who reads it.
-/
namespace ComponentPages

/-- A number as it is written. -/
structure Numeral where
  /-- Whether it has a minus sign. -/
  negative : Bool
  /-- The digits before the point. -/
  whole : List Char
  /-- The digits after the point, if there is a point. -/
  fraction : Option (List Char)
  /-- The exponent, if there is one: whether it is negative, and its digits. -/
  exponent : Option (Bool × List Char)

/-- A JSON document. -/
inductive Json where
  | null
  | bool (flag : Bool)
  | number (numeral : Numeral)
  /-- A string, with its text if its escapes name whole characters. -/
  | string (text : Option String)
  | array (items : List Json)
  | object (fields : List (Option String × Json))

namespace Json

open Text

/-- The document without the blanks at its front. -/
def skip (text : List Char) : List Char :=
  text.dropWhile fun c => c == ' ' || c == '\n' || c == '\t' || c == '\r'

/-- The value of a hexadecimal digit. -/
def hexDigit? (c : Char) : Option Nat :=
  if c.isDigit then some (c.toNat - '0'.toNat)
  else if 'a' ≤ c && c ≤ 'f' then some (c.toNat - 'a'.toNat + 10)
  else if 'A' ≤ c && c ≤ 'F' then some (c.toNat - 'A'.toNat + 10)
  else none

/-- The characters that are escaped by one letter, with the letter. -/
def shortEscapes : List (Char × Char) := [
  ('"', '"'), ('\\', '\\'), ('/', '/'), ('b', '\x08'), ('f', '\x0c'), ('n', '\n'), ('r', '\r'),
  ('t', '\t')]

/-- Reads a string after its opening quote: its characters, and the code units of its numeric
escapes. Control characters are refused. -/
def readUnits : List Char → Option (List (Char ⊕ Nat) × List Char)
  | [] => none
  | '"' :: rest => some ([], rest)
  | '\\' :: 'u' :: first :: second :: third :: fourth :: rest => do
    let unit := 4096 * (← hexDigit? first) + 256 * (← hexDigit? second) +
      16 * (← hexDigit? third) + (← hexDigit? fourth)
    let (units, after) ← readUnits rest
    some (.inr unit :: units, after)
  | '\\' :: letter :: rest => do
    let c ← shortEscapes.lookup letter
    let (units, after) ← readUnits rest
    some (.inl c :: units, after)
  | c :: rest =>
    if c.toNat < 32 then none
    else (readUnits rest).map fun (units, after) => (.inl c :: units, after)

/-- The text of the characters and code units of a string. A code unit of a pair of surrogates
counts only together with the other one. -/
def textOfUnits : List (Char ⊕ Nat) → Option (List Char)
  | [] => some []
  | .inl c :: rest => (textOfUnits rest).map (c :: ·)
  | .inr unit :: rest =>
    if unit < 0xD800 || 0xDFFF < unit then (textOfUnits rest).map (Char.ofNat unit :: ·)
    else match rest with
      | .inr low :: rest =>
        if unit < 0xDC00 && 0xDC00 ≤ low && low ≤ 0xDFFF then
          (textOfUnits rest).map
            (Char.ofNat (0x10000 + 1024 * (unit - 0xD800) + (low - 0xDC00)) :: ·)
        else none
      | _ => none

/-- Reads a string after its opening quote. -/
def readString : Reader (Option String) := fun rest =>
  (readUnits rest).map fun (units, after) => ((textOfUnits units).map String.ofList, after)

/-- Reads one digit or more. -/
def readDigits : Reader (List Char) := fun text =>
  match cutFront Char.isDigit text with
  | ([], _) => none
  | found => some found

/-- Reads the digits of a whole number, which starts with a zero only if it is zero. -/
def readWhole : Reader (List Char) := fun text =>
  match readDigits text with
  | some ('0' :: _ :: _, _) => none
  | found => found

/-- Reads the fraction of a number, if there is one. -/
def readFraction : Reader (Option (List Char))
  | '.' :: rest => (readDigits rest).map fun (digits, after) => (some digits, after)
  | rest => some (none, rest)

/-- Reads the digits of an exponent and its sign. -/
def readSigned : Reader (Bool × List Char)
  | '-' :: rest => (readDigits rest).map fun (digits, after) => ((true, digits), after)
  | '+' :: rest => (readDigits rest).map fun (digits, after) => ((false, digits), after)
  | rest => (readDigits rest).map fun (digits, after) => ((false, digits), after)

/-- Reads the exponent of a number, if there is one. -/
def readExponent : Reader (Option (Bool × List Char))
  | 'e' :: rest => (readSigned rest).map fun (exponent, after) => (some exponent, after)
  | 'E' :: rest => (readSigned rest).map fun (exponent, after) => (some exponent, after)
  | rest => some (none, rest)

/-- Reads a number. -/
def readNumeral : Reader Numeral := fun text => do
  let (negative, text) := match text with
    | '-' :: rest => (true, rest)
    | rest => (false, rest)
  let (whole, text) ← readWhole text
  let (fraction, text) ← readFraction text
  let (exponent, text) ← readExponent text
  some (⟨negative, whole, fraction, exponent⟩, text)

/-- Reads the constants and the numbers. -/
def readScalar : Reader Json := fun text =>
  match (literal "null".toList) text, (literal "true".toList) text,
      (literal "false".toList) text with
  | some (_, rest), _, _ => some (.null, rest)
  | _, some (_, rest), _ => some (.bool true, rest)
  | _, _, some (_, rest) => some (.bool false, rest)
  | none, none, none => (readNumeral text).map fun (numeral, rest) => (.number numeral, rest)

mutual

/-- Reads a document; the fuel bounds the calls. -/
def readValue : Nat → Reader Json
  | 0, _ => none
  | fuel + 1, text =>
    match skip text with
    | '"' :: rest => (readString rest).map fun (text, after) => (.string text, after)
    | '[' :: rest =>
      match skip rest with
      | ']' :: after => some (.array [], after)
      | rest => (readItems fuel rest).map fun (items, after) => (.array items, after)
    | '{' :: rest =>
      match skip rest with
      | '}' :: after => some (.object [], after)
      | rest => (readFields fuel rest).map fun (fields, after) => (.object fields, after)
    | text => readScalar text

/-- Reads the items of an array up to its end. -/
def readItems : Nat → Reader (List Json)
  | 0, _ => none
  | fuel + 1, text => do
    let (item, text) ← readValue fuel text
    match skip text with
    | ']' :: after => some ([item], after)
    | ',' :: rest =>
      let (items, after) ← readItems fuel rest
      some (item :: items, after)
    | _ => none

/-- Reads the fields of an object up to its end. -/
def readFields : Nat → Reader (List (Option String × Json))
  | 0, _ => none
  | fuel + 1, text =>
    match skip text with
    | '"' :: rest => do
      let (name, text) ← readString rest
      match skip text with
      | ':' :: rest =>
        let (value, text) ← readValue fuel rest
        match skip text with
        | '}' :: after => some ([(name, value)], after)
        | ',' :: rest =>
          let (fields, after) ← readFields fuel rest
          some ((name, value) :: fields, after)
        | _ => none
      | _ => none
    | _ => none

end

/-- The document that a text holds, with nothing but blanks around it. -/
def read (text : String) : Option Json := do
  let characters := text.toList
  let (value, rest) ← readValue (2 * characters.length + 2) characters
  if (skip rest).isEmpty then some value else none

/-- A character of a string as it is written. -/
def escaped (c : Char) : List Char :=
  if c == '"' then "\\\"".toList
  else if c == '\\' then "\\\\".toList
  else if 32 ≤ c.toNat then [c]
  else if c == '\x08' then "\\b".toList
  else if c == '\x0c' then "\\f".toList
  else if c == '\n' then "\\n".toList
  else if c == '\r' then "\\r".toList
  else if c == '\t' then "\\t".toList
  else "\\u00".toList ++ [Nat.digitChar (c.toNat / 16), Nat.digitChar (c.toNat % 16)]

/-- A text as a string: quotes, backslashes and control characters are escaped, and nothing
else. -/
def quoted (text : String) : String :=
  String.ofList ('"' :: text.toList.flatMap escaped ++ ['"'])

end Json

end ComponentPages
