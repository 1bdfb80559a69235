import ComponentPages.Style.Sheet

/-!
# Style sheets as trees

A style sheet is made of rules with selectors, of at-rules that group other rules, of other
at-rules, and of statements in front of a rule or at the end. `Sheet.Writes` says which texts
are such a sheet, with blanks around every part, and `Sheet.inScope` is the sheet in a scope:
every selector is rewritten, and everything else is kept. `Rewrites` is the table of the rewrites
of a selector.
-/
namespace ComponentPages.Style

open Text Markup

/-- All characters of a text are blanks. -/
def AllBlank (text : List Char) : Prop := ∀ c ∈ text, isBlank c = true

/-- Blank texts can be told. -/
instance (text : List Char) : Decidable (AllBlank text) :=
  List.decidableBAll (fun c => isBlank c = true) text

/-- A text has none of the given characters. -/
def Lacks (marks text : List Char) : Prop := ∀ c ∈ text, c ∉ marks

/-- Texts without given characters can be told. -/
instance (marks text : List Char) : Decidable (Lacks marks text) :=
  List.decidableBAll (fun c => c ∉ marks) text

/-- A text in which every brace has its partner. -/
inductive Balanced : List Char → Prop where
  | nil : Balanced []
  | char {c : Char} {rest : List Char} (noOpening : c ≠ '{') (noClosing : c ≠ '}')
    (balanced : Balanced rest) : Balanced (c :: rest)
  | block {inner rest : List Char} (inside : Balanced inner) (balanced : Balanced rest) :
    Balanced ('{' :: (inner ++ '}' :: rest))

/-- A selector of a rule. -/
structure Selector where
  text : List Char
  filled : text ≠ []
  trimmed : Trimmed text
  plain : Lacks ['{', '}', ';', ','] text
  noAtRule : text.head? ≠ some '@'

/-- A run of statements: it ends with the semicolon of the last one. -/
structure Statements where
  text : List Char
  trimmed : Trimmed text
  plain : Lacks ['{', '}'] text
  ends : text.getLast? = some ';'

/-- The head of an at-rule. -/
structure AtHead where
  text : List Char
  starts : text.head? = some '@'
  trimmed : Trimmed text
  plain : Lacks ['{', '}', ';'] text

/-- A body that is kept as it is. -/
structure Body where
  text : List Char
  balanced : Balanced text

/-- A character of the name of an at-rule: a letter, a digit, `-`, `_` or any character from
128 on. -/
def isAtNameChar (c : Char) : Bool :=
  c.isAlphanum || c == '-' || c == '_' || decide (128 ≤ c.toNat)

/-- The name of an at-rule. -/
def AtHead.name (head : AtHead) : List Char := head.text.tail.takeWhile isAtNameChar

/-- The name of an at-rule is that of one that groups other rules, in any case. -/
def AtHead.Groups (head : AtHead) : Prop :=
  ∃ name ∈ groupingNames, alike name head.name = true

/-- The at-rules that group other rules can be told. -/
instance (head : AtHead) : Decidable head.Groups :=
  inferInstanceAs (Decidable (∃ name ∈ groupingNames, alike name head.name = true))

mutual

/-- A style sheet: rules, with statements in front of any and at the end. -/
inductive Sheet where
  | ends (last : Option Statements)
  | next (before : Option Statements) (rule : Rule) (rest : Sheet)

/-- A rule of a style sheet. -/
inductive Rule where
  | style (first : Selector) (others : List Selector) (body : Body)
  | group (head : AtHead) (groups : head.Groups) (sheet : Sheet)
  | other (head : AtHead) (single : ¬ head.Groups) (body : Body)

end

section Writing

/-- The text of statements, if there are any. -/
def statementsText : Option Statements → List Char
  | none => []
  | some statements => statements.text

/-- Selectors after the first one, each after a comma with blanks around. -/
def Selector.WritesAll : List Selector → List Char → Prop
  | [], text => text = []
  | selector :: selectors, text =>
    ∃ before after rest, AllBlank before ∧ AllBlank after ∧ Selector.WritesAll selectors rest ∧
      text = before ++ ',' :: (after ++ selector.text ++ rest)

mutual

/-- The text is one of the sheet. -/
def Sheet.Writes : Sheet → List Char → Prop
  | .ends last, css =>
    ∃ front back, AllBlank front ∧ AllBlank back ∧ css = front ++ statementsText last ++ back
  | .next before rule rest, css =>
    ∃ front middle written after, AllBlank front ∧ AllBlank middle ∧ rule.Writes written ∧
      rest.Writes after ∧ css = front ++ statementsText before ++ middle ++ written ++ after

/-- The text is one of the rule. -/
def Rule.Writes : Rule → List Char → Prop
  | .style first others body, css =>
    ∃ more blanks, Selector.WritesAll others more ∧ AllBlank blanks ∧
      css = first.text ++ more ++ blanks ++ '{' :: (body.text ++ ['}'])
  | .group head _ sheet, css =>
    ∃ blanks inner, AllBlank blanks ∧ sheet.Writes inner ∧
      css = head.text ++ blanks ++ '{' :: (inner ++ ['}'])
  | .other head _ body, css =>
    ∃ blanks, AllBlank blanks ∧ css = head.text ++ blanks ++ '{' :: (body.text ++ ['}'])

end

end Writing

section Scope

/-- Statements as a part of a sheet, if there are any. -/
def statementsPart : Option Statements → List (List Char)
  | none => []
  | some statements => [statements.text]

mutual

/-- The parts of the sheet when every selector is rewritten. -/
def Sheet.inScope (rewrite : List Char → List Char) : Sheet → List (List Char)
  | .ends last => statementsPart last
  | .next before rule rest =>
    statementsPart before ++ rule.inScope rewrite :: rest.inScope rewrite

/-- The rule when every selector is rewritten. -/
def Rule.inScope (rewrite : List Char → List Char) : Rule → List Char
  | .style first others body =>
    writeRule (", ".toList.intercalate ((first :: others).map fun selector =>
      rewrite selector.text)) body.text
  | .group head _ sheet => writeRule head.text (['\n'].intercalate (sheet.inScope rewrite))
  | .other head _ body => writeRule head.text body.text

end

/-- The text of a sheet when every selector is rewritten: its parts, one on each line. -/
def Sheet.scopedText (sheet : Sheet) (rewrite : List Char → List Char) : List Char :=
  ['\n'].intercalate (sheet.inScope rewrite)

/-- A name of a class as it stands in a selector of one class: a letter or `_`, after a dash at
most, and letters, digits, `_` and `-` after it. -/
def IsClassName (name : List Char) : Prop :=
  ∃ dash first rest, (dash = [] ∨ dash = ['-']) ∧ (first.isAlpha = true ∨ first = '_') ∧
    (∀ c ∈ rest, c.isAlphanum = true ∨ c = '_' ∨ c = '-') ∧ name = dash ++ first :: rest

/-- The selector is the tag of the root, ignoring case. -/
def IsRootTag (root : Root) (selector : List Char) : Prop :=
  ∃ tag, root.tag = some tag ∧ alike tag.toList selector = true

/-- The root may carry the class. -/
def MayCarry (root : Root) (name : List Char) : Prop :=
  root.kind = .single ∨ String.ofList name ∈ root.classes

/-- The rewrites of selectors in a scope under a root; the first case that fits is taken. -/
inductive Rewrites (scope : List Char) (root : Root) : List Char → List Char → Prop where
  | wrapped {selector : List Char} (rootless : root.kind = .normal) :
    Rewrites scope root selector ('.' :: scope ++ ' ' :: selector)
  | tag {selector : List Char} (rooted : root.kind ≠ .normal)
    (rootTag : IsRootTag root selector) : Rewrites scope root selector (selector ++ '.' :: scope)
  | ownClass {name : List Char} (rooted : root.kind ≠ .normal)
    (noTag : ¬ IsRootTag root ('.' :: name)) (named : IsClassName name)
    (carried : MayCarry root name) :
    Rewrites scope root ('.' :: name) ('.' :: scope ++ '.' :: name)
  | innerClass {name : List Char} (rooted : root.kind ≠ .normal)
    (noTag : ¬ IsRootTag root ('.' :: name)) (named : IsClassName name)
    (notCarried : ¬ MayCarry root name) :
    Rewrites scope root ('.' :: name) ('.' :: scope ++ ' ' :: '.' :: name)
  | pseudo {rest : List Char} (rooted : root.kind ≠ .normal)
    (noTag : ¬ IsRootTag root (':' :: rest)) :
    Rewrites scope root (':' :: rest)
      ((root.tag.map String.toList).getD [] ++ '.' :: scope ++ ':' :: rest)
  | descendant {selector : List Char} (rooted : root.kind ≠ .normal)
    (noTag : ¬ IsRootTag root selector)
    (noClass : ∀ name, selector = '.' :: name → ¬ IsClassName name)
    (noPseudo : selector.head? ≠ some ':') :
    Rewrites scope root selector ('.' :: scope ++ ' ' :: selector)

/-- The characters of a class name are told one by one. -/
theorem startsClass_and_all_iff {first : Char} {rest : List Char} :
    (startsClass first && rest.all isClassChar) = true ↔
      (first.isAlpha = true ∨ first = '_') ∧
        ∀ c ∈ rest, c.isAlphanum = true ∨ c = '_' ∨ c = '-' := by
  simp [startsClass, isClassChar, or_assoc]

/-- The names of classes are those that are told to be. -/
theorem isClassName_iff {name : List Char} : isClassName name = true ↔ IsClassName name := by
  constructor
  · intro named
    unfold isClassName at named
    split at named
    · rename_i first rest
      obtain ⟨letter, all⟩ := startsClass_and_all_iff.1 named
      exact ⟨['-'], first, rest, .inr rfl, letter, all, rfl⟩
    · rename_i first rest _
      obtain ⟨letter, all⟩ := startsClass_and_all_iff.1 named
      exact ⟨[], first, rest, .inl rfl, letter, all, rfl⟩
    · exact nomatch named
  · rintro ⟨dash, first, rest, rfl | rfl, letter, all, rfl⟩
    · have noDash : first ≠ '-' := by
        rintro rfl
        exact absurd letter (by decide)
      rw [List.nil_append, isClassName.eq_2 _ _ (fun _ _ dash => absurd dash noDash)]
      exact startsClass_and_all_iff.2 ⟨letter, all⟩
    · exact startsClass_and_all_iff.2 ⟨letter, all⟩

/-- The tag of a root is told. -/
theorem isRootTag_iff {root : Root} {selector : List Char} :
    isRootTag root selector = true ↔ IsRootTag root selector := by
  unfold isRootTag IsRootTag
  cases root.tag <;> simp

/-- The classes that a root may carry are told. -/
theorem mayCarry_iff {root : Root} {name : List Char} :
    mayCarry root name = true ↔ MayCarry root name := by
  simp [mayCarry, MayCarry]

/-- A selector is rewritten by the table. -/
theorem rewrites_scopeSelector (scope : List Char) (root : Root) (selector : List Char) :
    Rewrites scope root selector (scopeSelector scope root selector) := by
  unfold scopeSelector
  split
  · rename_i rootless
    exact .wrapped rootless
  · rename_i rooted
    split
    · rename_i rootTag
      exact .tag rooted (isRootTag_iff.1 rootTag)
    · rename_i other
      have noTag : ¬ IsRootTag root selector := mt isRootTag_iff.2 other
      split
      · rename_i name
        by_cases named : isClassName name = true
        · by_cases carried : mayCarry root name = true
          · rw [named, carried, Bool.and_self, if_pos rfl]
            exact .ownClass rooted noTag (isClassName_iff.1 named) (mayCarry_iff.1 carried)
          · rw [Bool.eq_false_iff.2 carried, Bool.and_false, if_neg Bool.false_ne_true]
            exact .innerClass rooted noTag (isClassName_iff.1 named) (mt mayCarry_iff.2 carried)
        · rw [Bool.eq_false_iff.2 named, Bool.false_and, if_neg Bool.false_ne_true]
          refine .descendant rooted noTag ?_ (by simp)
          rintro name ⟨⟩
          exact mt isClassName_iff.2 named
      · exact .pseudo rooted noTag
      · rename_i noDot noColon
        refine .descendant rooted noTag (fun name dot => absurd dot (noDot name)) ?_
        intro colon
        obtain ⟨rest, same⟩ := List.head?_eq_some_iff.1 colon
        exact noColon rest same

end Scope

end ComponentPages.Style
