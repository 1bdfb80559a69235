import ComponentPages.Template.Token

/-!
# Segments of a template

A template is text with actions between `{{` and `}}`. The end of an action is looked for
outside the quoted texts of the action (`cutAction`). A dash next to a blank at an end of an
action removes the blanks of the text on that side. Comments leave nothing.
-/
namespace ComponentPages.Template

open Text

/-- A stretch of text or an action. -/
inductive Segment where
  | text (content : String)
  | action (tokens : List Token)

/-- The text of an action up to its end, and the text after that. The first argument is the
quote of the text of the action that the place is in, if it is in one; after a backslash
between double quotes a character stands for itself. -/
def cutAction : Option Char → List Char → Option (List Char × List Char)
  | _, [] => none
  | some '"', '\\' :: c :: rest =>
    (cutAction (some '"') rest).map fun (inner, after) => ('\\' :: c :: inner, after)
  | some quote, c :: rest =>
    (cutAction (if c == quote then none else some quote) rest).map
      fun (inner, after) => (c :: inner, after)
  | none, '}' :: '}' :: rest => some ([], rest)
  | none, c :: rest =>
    (cutAction (if c == '"' || c == rawQuote then some c else none) rest).map
      fun (inner, after) => (c :: inner, after)

/-- An action and what follows it are the text that they were cut from. -/
theorem eq_append_of_cutAction {quote : Option Char} {text inner after : List Char}
    (h : cutAction quote text = some (inner, after)) : text = inner ++ '}' :: '}' :: after := by
  fun_induction cutAction quote text generalizing inner after with
  | case1 => simp at h
  | case2 c rest ih =>
    obtain ⟨⟨found, tail⟩, read, same⟩ := Option.map_eq_some_iff.1 h
    obtain ⟨rfl, rfl⟩ := Prod.mk.inj same
    simp [ih read]
  | case3 quote c rest _ ih =>
    obtain ⟨⟨found, tail⟩, read, same⟩ := Option.map_eq_some_iff.1 h
    obtain ⟨rfl, rfl⟩ := Prod.mk.inj same
    simp [ih read]
  | case4 rest =>
    obtain ⟨rfl, rfl⟩ := Prod.mk.inj (Option.some.inj h)
    rfl
  | case5 c rest _ ih =>
    obtain ⟨⟨found, tail⟩, read, same⟩ := Option.map_eq_some_iff.1 h
    obtain ⟨rfl, rfl⟩ := Prod.mk.inj same
    simp [ih read]

/-- Whether the text of an action asks to trim the text before it. -/
def trimsBefore (inner : List Char) : Bool :=
  "- ".toList.isPrefixOf inner || "-\n".toList.isPrefixOf inner || inner == ['-']

/-- Whether the text of an action asks to trim the text after it. -/
def trimsAfter (inner : List Char) : Bool :=
  " -".toList.isSuffixOf inner || "\n-".toList.isSuffixOf inner

/-- Whether the text of an action is a comment. -/
def isComment (inner : List Char) : Bool :=
  "/*".toList.isPrefixOf inner && "*/".toList.isSuffixOf inner

/-- The segment of a text, if there is any text. -/
def textSegment (text : List Char) : List Segment :=
  if text.isEmpty then [] else [.text (String.ofList text)]

/-- The segment of the text of an action; a comment has none. -/
def actionSegment (inner : List Char) : Except ParseFault (List Segment) :=
  if isComment inner then .ok [] else (tokenize inner).map fun tokens => [.action tokens]

/-- The text behind the mark that begins an action is no longer than the whole. -/
theorem length_le_of_opened {source before rest : List Char}
    (opened : cut ['{', '{'] source = some (before, rest)) : rest.length ≤ source.length := by
  obtain ⟨found, finds, same⟩ := Option.map_eq_some_iff.1 opened
  obtain ⟨marked, rfl, reads⟩ := Reader.eq_append_of_first finds
  obtain ⟨rfl, rfl⟩ := Prod.mk.inj same
  obtain ⟨after, mark, read⟩ := Option.map_eq_some_iff.1 reads
  obtain ⟨-, rfl⟩ := Prod.mk.inj read
  rcases marked with _ | ⟨first, _ | ⟨second, others⟩⟩
  · cases mark
  · change (if '{' == first then none else none) = some found.after at mark
    rw [ite_self] at mark
    cases mark
  · change (if '{' == first then if '{' == second then some others else none else none) =
      some found.after at mark
    simp only [Option.ite_none_right_eq_some, Option.some.injEq] at mark
    obtain ⟨-, -, rfl⟩ := mark
    simp only [List.length_append, List.length_cons]
    omega

/-- The segments of a template, where the flag says whether an action before it asks to trim
its front. -/
def readSegments (trimming : Bool) (source : List Char) : Except ParseFault (List Segment) :=
  let trimmed (text : List Char) := if trimming then trimStart text else text
  match _opened : cut ['{', '{'] source with
  | none => .ok (textSegment (trimmed source))
  | some (before, rest) =>
    match _closed : cutAction none rest with
    | none => .error .unclosedAction
    | some (inner, after) => do
      let before := trimmed before
      let (before, inner) :=
        if trimsBefore inner then (trimEnd before, inner.drop 1) else (before, inner)
      let (trimming, inner) :=
        if trimsAfter inner then (true, inner.dropLast) else (false, inner)
      let here ← actionSegment (trim inner)
      let others ← readSegments trimming after
      .ok (textSegment before ++ here ++ others)
termination_by source.length
decreasing_by
  have shorter : rest.length ≤ source.length := length_le_of_opened _opened
  rw [eq_append_of_cutAction _closed, List.length_append] at shorter
  simp only [List.length_cons] at shorter
  omega

/-- The segments of a template. -/
def segments (source : List Char) : Except ParseFault (List Segment) := readSegments false source

end ComponentPages.Template
