import ComponentPages.Style.Selector
import ComponentPages.Text.Blank

/-!
# Style sheets in a scope

A style sheet is put in a scope rule by rule. Comments go first. The sheet is then cut at the braces
that are not inside others: text in front of a brace is the head of a rule, and a body runs to
the brace that closes it, or to the end of the sheet. Every selector of a rule is put in
the scope by itself, and so are the rules that an at-rule groups; all other at-rules, and the
bodies of rules, are kept as they are.
-/
namespace ComponentPages.Style

open Text Markup

/-- Reads a comment. -/
def readComment : Reader Unit
  | '/' :: '*' :: rest => (cut ['*', '/'] rest).map fun (_, after) => ((), after)
  | _ => none

/-- A sheet without its comments. -/
def withoutComments (css : List Char) : List Char := readComment.replace (fun _ => []) css

/-- A body up to the brace that closes it, and the text after that; without such a brace, all
the text. The depth counts the braces opened since. -/
def cutBody : Nat → List Char → List Char × List Char
  | _, [] => ([], [])
  | 0, '}' :: rest => ([], rest)
  | depth + 1, '}' :: rest =>
    let (body, after) := cutBody depth rest
    ('}' :: body, after)
  | depth, '{' :: rest =>
    let (body, after) := cutBody (depth + 1) rest
    ('{' :: body, after)
  | depth, c :: rest =>
    let (body, after) := cutBody depth rest
    (c :: body, after)

/-- A body and the text after it are no longer than the text they were cut from. -/
theorem length_cutBody (depth : Nat) (text : List Char) :
    (cutBody depth text).1.length + (cutBody depth text).2.length ≤ text.length := by
  fun_induction cutBody depth text <;> simp_all <;> omega

/-- The names of the at-rules that group other rules. -/
def groupingNames : List (List Char) :=
  ["media".toList, "supports".toList, "container".toList, "layer".toList, "document".toList]

/-- Whether the head of a rule is that of an at-rule that groups others. -/
def isGrouping : List Char → Bool
  | '@' :: rest => groupingNames.any fun name =>
      match afterFolded name rest with
      | some after => endsWord after
      | none => false
  | _ => false

/-- A text that is kept, if there is any. -/
def kept (text : List Char) : List (List Char) :=
  if (trim text).isEmpty then [] else [trim text]

/-- The statements in front of the head of a rule, and the head. -/
def cutStatements (text : List Char) : List (List Char) × List Char :=
  match cutLast [';'] text with
  | some (before, after) => (kept (before ++ [';']), trim after)
  | none => ([], trim text)

/-- The selectors of the head of a rule. -/
def selectors (head : List Char) : List (List Char) :=
  ((splitWhere (· == ',') head).map trim).filter fun selector => !selector.isEmpty

/-- The head of a rule in a scope; that of an at-rule stays as it is. -/
def scopeHead (scope : List Char) (root : Root) (head : List Char) : List Char :=
  match head with
  | '@' :: _ => head
  | _ => ", ".toList.intercalate ((selectors head).map (scopeSelector scope root))

/-- A rule with its head and body. -/
def writeRule (head body : List Char) : List Char := head ++ '{' :: body ++ ['}']

/-- The parts of a sheet in a scope, in order: rules, and text between rules. -/
def scopeParts (scope : List Char) (root : Root) (css : List Char) : List (List Char) :=
  match _cut : cutFront (fun c => c != '{' && c != '}') css with
  | (text, []) => kept text
  | (text, brace :: rest) =>
    if brace == '}' then kept text ++ scopeParts scope root rest
    else
      let (statements, head) := cutStatements text
      let body :=
        if isGrouping head then
          ['\n'].intercalate (scopeParts scope root (cutBody 0 rest).1)
        else (cutBody 0 rest).1
      statements ++ writeRule (scopeHead scope root head) body ::
        scopeParts scope root (cutBody 0 rest).2
termination_by css.length
decreasing_by
  all_goals
    have bound := length_cutBody 0 rest
    rw [eq_append_of_cutFront _cut]
    simp only [List.length_append, List.length_cons]
    omega

/-- A style sheet in the scope of a class that is on the given root. -/
def scopeStyles (css scope : String) (root : Root) : String :=
  String.ofList (['\n'].intercalate (scopeParts scope.toList root (withoutComments css.toList)))

end ComponentPages.Style
