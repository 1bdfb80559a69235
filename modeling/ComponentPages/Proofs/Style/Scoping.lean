import ComponentPages.Proofs.Style.Sheets
import ComponentPages.Proofs.Text.Cut
import Mathlib

/-!
# Style sheets in a scope

A text of a sheet is put in a scope as the sheet is: its parts are those of the sheet with every
selector rewritten (`Sheet.scopeParts_eq`). What carries the induction over the sheet is that a
body ends at its own closing brace, since its braces are balanced (`cutBody_append`), so that
the text before the first brace is the statements and the head of the first rule, and the text
after the body is one of the rest of the sheet.
-/
namespace ComponentPages.Style

open Text Markup

section Braces

/-- No text has a character. -/
theorem lacks_nil (marks : List Char) : Lacks marks [] := nofun

/-- Texts without given characters follow each other without them. -/
theorem Lacks.append {marks text others : List Char} (lacks : Lacks marks text)
    (more : Lacks marks others) : Lacks marks (text ++ others) :=
  List.forall_mem_append.2 ⟨lacks, more⟩

/-- A text without given characters has none of some of them. -/
theorem Lacks.fewer {marks text : List Char} (more : List Char)
    (lacks : Lacks (marks ++ more) text) : Lacks marks text :=
  fun c member mark => lacks c member (List.mem_append_left more mark)

/-- A text is balanced before a balanced text. -/
theorem Balanced.append {text others : List Char} (balanced : Balanced text)
    (more : Balanced others) : Balanced (text ++ others) := by
  induction balanced with
  | nil => exact more
  | char noOpening noClosing _ ih => exact .char noOpening noClosing ih
  | block inside _ _ ih =>
    rw [List.cons_append, List.append_assoc, List.cons_append]
    exact .block inside ih

/-- A text without braces is balanced. -/
theorem balanced_of_forall {text : List Char} (plain : Lacks ['{', '}'] text) :
    Balanced text := by
  induction text with
  | nil => exact .nil
  | cons c text ih =>
    obtain ⟨here, later⟩ := List.forall_mem_cons.1 plain
    obtain ⟨noOpening, noClosing⟩ : c ≠ '{' ∧ c ≠ '}' := by simpa using here
    exact .char noOpening noClosing (ih later)

/-- What a body is cut from after a balanced text is cut from after it. -/
theorem cutBody_append {text : List Char} (balanced : Balanced text) (depth : Nat)
    (rest : List Char) :
    cutBody depth (text ++ rest) =
      (text ++ (cutBody depth rest).1, (cutBody depth rest).2) := by
  induction balanced generalizing depth rest with
  | nil => rfl
  | @char c text noOpening noClosing _ ih =>
    have passes : cutBody depth (c :: (text ++ rest)) =
        (c :: (cutBody depth (text ++ rest)).1, (cutBody depth (text ++ rest)).2) := by
      rw [cutBody.eq_def]
      split <;> simp_all
    rw [List.cons_append, passes, ih]
    rfl
  | @block inner text _ _ inside later =>
    have opens : cutBody depth ('{' :: (inner ++ '}' :: (text ++ rest))) =
        ('{' :: (cutBody (depth + 1) (inner ++ '}' :: (text ++ rest))).1,
          (cutBody (depth + 1) (inner ++ '}' :: (text ++ rest))).2) := by
      rw [cutBody]
    have closes : cutBody (depth + 1) ('}' :: (text ++ rest)) =
        ('}' :: (cutBody depth (text ++ rest)).1, (cutBody depth (text ++ rest)).2) := by
      rw [cutBody]
    rw [List.cons_append, List.append_assoc, List.cons_append, opens, inside, closes, later]
    simp

/-- A balanced body ends at the brace after it. -/
theorem cutBody_body {body : List Char} (balanced : Balanced body) (rest : List Char) :
    cutBody 0 (body ++ '}' :: rest) = (body, rest) := by
  rw [cutBody_append balanced, cutBody, List.append_nil]

end Braces

section Parts

/-- Blanks have no meaning in a sheet. -/
theorem AllBlank.plain {text : List Char} (blank : AllBlank text) :
    Lacks ['{', '}', ';', ','] text := by
  intro c member mark
  have marks : (['{', '}', ';', ','].all fun c => !isBlank c) = true := by decide
  have solid := List.all_eq_true.1 marks c mark
  rw [blank c member] at solid
  exact Bool.false_ne_true solid

/-- Blanks after blanks are blanks. -/
theorem AllBlank.append {text others : List Char} (blank : AllBlank text)
    (more : AllBlank others) : AllBlank (text ++ others) :=
  List.forall_mem_append.2 ⟨blank, more⟩

/-- Statements are kept without the blanks around them, if there are any. -/
theorem kept_statementsText (statements : Option Statements) {front back : List Char}
    (before : AllBlank front) (after : AllBlank back) :
    kept (front ++ statementsText statements ++ back) = statementsPart statements := by
  cases statements with
  | none =>
    have nothing : Trimmed [] := ⟨by simp, by simp⟩
    rw [statementsText, kept, nothing.trim_append before after]
    rfl
  | some statements =>
    have filled : statements.text.isEmpty = false := by
      refine List.isEmpty_eq_false_iff.2 fun empty => ?_
      have ends := statements.ends
      rw [empty] at ends
      exact nomatch ends
    rw [statementsText, kept, statements.trimmed.trim_append before after, filled]
    rfl

/-- The statements in front of a head are cut off, and no blanks around the head are left. -/
theorem cutStatements_eq (statements : Option Statements) {front middle head back : List Char}
    (before : AllBlank front) (between : AllBlank middle) (after : AllBlank back)
    (trimmed : Trimmed head) (plain : ';' ∉ head) :
    cutStatements (front ++ statementsText statements ++ middle ++ head ++ back) =
      (statementsPart statements, head) := by
  have blankless {text : List Char} (blank : AllBlank text) : ';' ∉ text := fun member =>
    blank.plain _ member (by decide)
  unfold cutStatements
  cases statements with
  | none =>
    have absent : ';' ∉ front ++ statementsText none ++ middle ++ head ++ back := by
      simp [statementsText, blankless before, blankless between, blankless after, plain]
    rw [cutLast_eq_none absent]
    simp only [statementsText, List.append_nil, statementsPart]
    rw [trimmed.trim_append (before.append between) after]
  | some statements =>
    obtain ⟨others, same⟩ : ∃ others, statements.text = others ++ [';'] :=
      List.getLast?_eq_some_iff.1 statements.ends
    have absent : ';' ∉ middle ++ head ++ back := by
      simp [blankless between, blankless after, plain]
    have whole : front ++ statementsText (some statements) ++ middle ++ head ++ back =
        front ++ others ++ ';' :: (middle ++ head ++ back) := by
      simp [statementsText, same]
    have keeps := kept_statementsText (some statements) before (by decide : AllBlank [])
    rw [statementsText, same, List.append_nil, ← List.append_assoc] at keeps
    have cuts : cutLast [';'] (front ++ others ++ ';' :: (middle ++ head ++ back)) =
        some (front ++ others, middle ++ head ++ back) := @cutLast_append _ [] _ absent _
    rw [whole, cuts]
    simp only [keeps, trimmed.trim_append between after]

/-- The text before the first brace is cut off there. -/
theorem cutFront_braceless {front rest : List Char} (plain : Lacks ['{', '}'] front)
    (stops : ∀ c ∈ rest.head?, (c != '{' && c != '}') = false) :
    cutFront (fun c => c != '{' && c != '}') (front ++ rest) = (front, rest) :=
  cutFront_append (fun c member => by simpa using plain c member) stops

/-- At a brace, the text in front of it has no part in what follows. -/
theorem scopeParts_brace {front rest : List Char} {brace : Char}
    (plain : Lacks ['{', '}'] front) (isBrace : brace ∈ ['{', '}']) (scope : List Char)
    (root : Root) :
    scopeParts scope root (front ++ brace :: rest) =
      if brace == '}' then kept front ++ scopeParts scope root rest
      else (cutStatements front).1 ++ writeRule (scopeHead scope root (cutStatements front).2)
        (if isGrouping (cutStatements front).2 then
          ['\n'].intercalate (scopeParts scope root (cutBody 0 rest).1) else (cutBody 0 rest).1) ::
        scopeParts scope root (cutBody 0 rest).2 := by
  have cutsFront : cutFront (fun c => c != '{' && c != '}') (front ++ brace :: rest) =
      (front, brace :: rest) := cutFront_braceless plain (by simpa [or_iff_not_imp_left] using isBrace)
  conv_lhs => rw [scopeParts]
  split
  · rename_i found
    exact absurd (Prod.mk.inj (cutsFront.symm.trans found)).2 (by simp)
  · rename_i found
    obtain ⟨rfl, same⟩ := Prod.mk.inj (cutsFront.symm.trans found)
    obtain ⟨rfl, rfl⟩ := List.cons.inj same
    rfl

/-- A closing brace without a partner ends the text in front of it. -/
theorem scopeParts_stray {front : List Char} (plain : Lacks ['{', '}'] front)
    (scope : List Char) (root : Root) (rest : List Char) :
    scopeParts scope root (front ++ '}' :: rest) =
      kept front ++ scopeParts scope root rest := by
  rw [scopeParts_brace plain (by decide), if_pos BEq.rfl]

/-- The first rule of a sheet is that of the text before the first brace and of the body that
is cut off behind it. -/
theorem scopeParts_opening {front : List Char} (plain : Lacks ['{', '}'] front)
    (scope : List Char) (root : Root) (rest : List Char) :
    scopeParts scope root (front ++ '{' :: rest) =
      (cutStatements front).1 ++ writeRule (scopeHead scope root (cutStatements front).2)
        (if isGrouping (cutStatements front).2 then
          ['\n'].intercalate (scopeParts scope root (cutBody 0 rest).1) else (cutBody 0 rest).1) ::
        scopeParts scope root (cutBody 0 rest).2 := by
  rw [scopeParts_brace plain (by decide), if_neg (by decide)]

/-- A rule with a balanced body is followed by the rest of the sheet. -/
theorem scopeParts_rule {front body : List Char} (plain : Lacks ['{', '}'] front)
    (balanced : Balanced body) {statements : List (List Char)} {head : List Char}
    (cuts : cutStatements front = (statements, head)) (scope : List Char) (root : Root)
    (rest : List Char) :
    scopeParts scope root (front ++ '{' :: (body ++ '}' :: rest)) =
      statements ++ writeRule (scopeHead scope root head)
        (if isGrouping head then ['\n'].intercalate (scopeParts scope root body) else body) ::
        scopeParts scope root rest := by
  rw [scopeParts_opening plain, cutBody_body balanced, cuts]

/-- A text without braces is kept. -/
theorem scopeParts_text {text : List Char} (plain : Lacks ['{', '}'] text)
    (scope : List Char) (root : Root) : scopeParts scope root text = kept text := by
  have cutsFront : cutFront (fun c => c != '{' && c != '}') (text ++ []) = (text, []) :=
    cutFront_braceless plain (by simp)
  rw [List.append_nil] at cutsFront
  rw [scopeParts]
  split
  · rename_i found
    obtain ⟨rfl, -⟩ := Prod.mk.inj (cutsFront.symm.trans found)
    rfl
  · rename_i found
    exact absurd (Prod.mk.inj (cutsFront.symm.trans found)).2 (by simp)

end Parts

section Heads

/-- The pieces of a selector list between its commas are the selectors with blanks around. -/
theorem map_trim_splitWhere {front more : List Char} (selector : Selector)
    {others : List Selector} (before : AllBlank front) (writes : Selector.WritesAll others more) :
    (splitWhere (· == ',') (front ++ selector.text ++ more)).map trim =
      (selector :: others).map Selector.text := by
  have commaless {text : List Char} (plain : Lacks ['{', '}', ';', ','] text) :
      ∀ c ∈ text, (c == ',') = false := by
    intro c member
    refine Bool.eq_false_iff.2 fun comma => ?_
    obtain rfl := eq_of_beq comma
    exact plain ',' member (by decide)
  induction others generalizing front selector more with
  | nil =>
    obtain rfl := writes
    have whole : ∀ c ∈ front ++ selector.text ++ [], (c == ',') = false := by
      rw [List.append_nil]
      exact List.forall_mem_append.2 ⟨commaless before.plain, commaless selector.plain⟩
    have trims := selector.trimmed.trim_append before (by decide : AllBlank [])
    rw [splitWhere_of_forall whole, List.map_singleton, trims]
    rfl
  | cons next others ih =>
    obtain ⟨blanks, spaces, rest, after, between, writes, rfl⟩ := writes
    have whole : ∀ c ∈ front ++ selector.text ++ blanks, (c == ',') = false :=
      List.forall_mem_append.2 ⟨List.forall_mem_append.2
        ⟨commaless before.plain, commaless selector.plain⟩, commaless after.plain⟩
    have cuts := splitWhere_append (· == ',') BEq.rfl whole
      (spaces ++ next.text ++ rest)
    rw [← List.append_assoc, cuts, List.map_cons, selector.trimmed.trim_append before after,
      ih next between writes]
    rfl

/-- The head of a rule names its selectors. -/
theorem selectors_eq (first : Selector) {others : List Selector} {more : List Char}
    (writes : Selector.WritesAll others more) :
    selectors (first.text ++ more) = (first :: others).map Selector.text := by
  have pieces := map_trim_splitWhere first (by decide : AllBlank []) writes
  rw [List.nil_append] at pieces
  rw [selectors, pieces]
  refine List.filter_eq_self.2 fun text member => ?_
  obtain ⟨selector, -, rfl⟩ := List.mem_map.1 member
  simpa using selector.filled

/-- Selectors after others end without a blank, as the first one does. -/
theorem isBlank_getLast?_of_writesAll {text more : List Char} {others : List Selector}
    (last : ∀ c ∈ text.getLast?, isBlank c = false) (writes : Selector.WritesAll others more) :
    ∀ c ∈ (text ++ more).getLast?, isBlank c = false := by
  induction others generalizing text more with
  | nil =>
    obtain rfl := writes
    rw [List.append_nil]
    exact last
  | cons next others ih =>
    obtain ⟨blanks, spaces, rest, -, -, writes, rfl⟩ := writes
    have whole : text ++ (blanks ++ ',' :: (spaces ++ next.text ++ rest)) =
        text ++ blanks ++ ',' :: spaces ++ (next.text ++ rest) := by simp
    have filled : next.text ++ rest ≠ [] := by simp [next.filled]
    rw [whole, List.getLast?_append_of_ne_nil _ filled]
    exact ih next.trimmed.last writes

/-- Selectors have no characters of other parts of a sheet. -/
theorem plain_of_writesAll {more : List Char} {others : List Selector}
    (writes : Selector.WritesAll others more) : Lacks ['{', '}', ';'] more := by
  induction others generalizing more with
  | nil =>
    obtain rfl := writes
    exact lacks_nil _
  | cons next others ih =>
    obtain ⟨blanks, spaces, rest, after, between, writes, rfl⟩ := writes
    refine (after.plain.fewer [',']).append (List.forall_mem_cons.2 ⟨by decide, ?_⟩)
    exact ((between.plain.fewer [',']).append (next.plain.fewer [','])).append (ih writes)

/-- A character that ends the name of an at-rule belongs to no word. -/
theorem isWord_of_isAtNameChar {c : Char} (ends : isAtNameChar c = false) : isWord c = false := by
  simp only [isAtNameChar, Bool.or_eq_false_iff, decide_eq_false_iff_not, Nat.not_le,
    Char.isAlphanum] at ends
  obtain ⟨⟨⟨⟨noLetter, noDigit⟩, -⟩, noMark⟩, low⟩ := ends
  rw [isWord, isLetter, isDecimalDigit, isWordMark, if_pos low, if_pos low, if_pos low, noLetter,
    noDigit, noMark]
  rfl

/-- An at-rule with the name of one that groups others is taken for one. -/
theorem AtHead.Groups.isGrouping {head : AtHead} (groups : head.Groups) :
    isGrouping head.text = true := by
  obtain ⟨name, listed, same⟩ := groups
  obtain ⟨rest, starts⟩ := List.head?_eq_some_iff.1 head.starts
  have lower : ∀ name ∈ groupingNames, name.map Char.toLower = name := by decide
  have found := afterFolded_of_alike (lower name listed) same (rest.dropWhile isAtNameChar)
  have whole : head.name ++ rest.dropWhile isAtNameChar = rest := by
    rw [AtHead.name, starts]
    exact List.takeWhile_append_dropWhile
  have ends : endsWord (rest.dropWhile isAtNameChar) = true := by
    have stops := List.head?_dropWhile_not isAtNameChar rest
    cases after : rest.dropWhile isAtNameChar with
    | nil => rfl
    | cons c tail =>
      rw [after] at stops
      rw [endsWord, isWord_of_isAtNameChar stops]
      rfl
  rw [whole] at found
  rw [starts, Style.isGrouping]
  refine List.any_eq_true.2 ⟨name, listed, ?_⟩
  rw [found]
  exact ends

end Heads

section Sheets

mutual

/-- No at-rule in the sheet that does not group is taken for one that does. -/
def Sheet.Told : Sheet → Prop
  | .ends _ => True
  | .next _ rule rest => rule.Told ∧ rest.Told

/-- No at-rule in the rule that does not group is taken for one that does. -/
def Rule.Told : Rule → Prop
  | .style _ _ _ => True
  | .group _ _ sheet => sheet.Told
  | .other head _ _ => isGrouping head.text = false

end

/-- A text without blanks at its ends and without characters of other parts of a sheet. -/
structure IsHead (head : List Char) : Prop where
  trimmed : Trimmed head
  plain : Lacks ['{', '}', ';'] head

/-- The selectors of a rule are the head of the rule. -/
theorem isHead_of_writesAll (first : Selector) {others : List Selector} {more : List Char}
    (writes : Selector.WritesAll others more) : IsHead (first.text ++ more) := by
  refine ⟨⟨?_, isBlank_getLast?_of_writesAll first.trimmed.last writes⟩,
    (first.plain.fewer [',']).append (plain_of_writesAll writes)⟩
  obtain ⟨c, text, same⟩ := List.exists_cons_of_ne_nil first.filled
  intro start member
  rw [same] at member
  exact first.trimmed.first start (by rw [same]; exact member)

/-- The head of a rule with selectors is not that of an at-rule. -/
theorem scopeHead_of_writesAll (first : Selector) {others : List Selector} {more : List Char}
    (writes : Selector.WritesAll others more) (scope : List Char) (root : Root) :
    isGrouping (first.text ++ more) = false ∧
      scopeHead scope root (first.text ++ more) =
        ", ".toList.intercalate ((first :: others).map fun selector =>
          scopeSelector scope root selector.text) := by
  have names := selectors_eq first writes
  obtain ⟨c, text, same⟩ := List.exists_cons_of_ne_nil first.filled
  have noAtRule : c ≠ '@' := by
    rintro rfl
    exact first.noAtRule (by rw [same]; rfl)
  rw [same, List.cons_append] at names ⊢
  constructor
  · unfold isGrouping
    split
    · rename_i starts
      exact absurd (List.cons.inj starts).1 noAtRule
    · rfl
  · unfold scopeHead
    split
    · rename_i starts
      exact absurd (List.cons.inj starts).1 noAtRule
    · rw [names, List.map_map]
      rfl

/-- The head of an at-rule is kept. -/
theorem AtHead.scopeHead (head : AtHead) (scope : List Char) (root : Root) :
    scopeHead scope root head.text = head.text := by
  obtain ⟨rest, starts⟩ := List.head?_eq_some_iff.1 head.starts
  rw [starts]
  rfl

mutual

/-- A text of a sheet is put in a scope as the sheet is, and its braces are balanced. -/
theorem Sheet.scopeParts_eq {sheet : Sheet} {css : List Char} (writes : sheet.Writes css)
    (told : sheet.Told) (scope : List Char) (root : Root) :
    Balanced css ∧ scopeParts scope root css = sheet.inScope (scopeSelector scope root) := by
  have braceless {text : List Char} (blank : AllBlank text) : Lacks ['{', '}'] text :=
    blank.plain.fewer [';', ',']
  have stated (statements : Option Statements) : Lacks ['{', '}'] (statementsText statements) := by
    cases statements with
    | none => exact lacks_nil _
    | some statements => exact statements.plain
  match sheet with
  | .ends last =>
    obtain ⟨front, back, before, after, rfl⟩ := writes
    have plain : Lacks ['{', '}'] (front ++ statementsText last ++ back) :=
      ((braceless before).append (stated last)).append (braceless after)
    exact ⟨balanced_of_forall plain,
      (scopeParts_text plain scope root).trans (kept_statementsText last before after)⟩
  | .next before rule rest =>
    obtain ⟨front, middle, written, after, first, between, ruled, later, rfl⟩ := writes
    obtain ⟨head, blanks, body, rfl, isHead, last, balanced, same⟩ :=
      Rule.exists_parts ruled told.1 scope root
    obtain ⟨balancedRest, restSame⟩ := Sheet.scopeParts_eq later told.2 scope root
    have plain : Lacks ['{', '}'] (front ++ statementsText before ++ middle ++ head ++ blanks) :=
      ((((braceless first).append (stated before)).append (braceless between)).append
        (isHead.plain.fewer [';'])).append (braceless last)
    have cuts := cutStatements_eq before first between last isHead.trimmed
      (fun member => isHead.plain _ member (by decide))
    have whole : front ++ statementsText before ++ middle ++
        (head ++ blanks ++ '{' :: (body ++ ['}'])) ++ after =
        front ++ statementsText before ++ middle ++ head ++ blanks ++
          '{' :: (body ++ '}' :: after) := by simp
    rw [whole]
    refine ⟨(balanced_of_forall plain).append (.block balanced balancedRest), ?_⟩
    rw [scopeParts_rule plain balanced cuts, same, restSame, Sheet.inScope]

/-- A text of a rule is a head and a balanced body, and these are put in a scope as the rule
is. -/
theorem Rule.exists_parts {rule : Rule} {css : List Char} (writes : rule.Writes css)
    (told : rule.Told) (scope : List Char) (root : Root) :
    ∃ head blanks body, css = head ++ blanks ++ '{' :: (body ++ ['}']) ∧ IsHead head ∧
      AllBlank blanks ∧ Balanced body ∧
      writeRule (Style.scopeHead scope root head)
          (if isGrouping head then ['\n'].intercalate (scopeParts scope root body) else body) =
        rule.inScope (scopeSelector scope root) := by
  match rule with
  | .style first others body =>
    obtain ⟨more, blanks, listed, blank, rfl⟩ := writes
    obtain ⟨single, heads⟩ := scopeHead_of_writesAll first listed scope root
    refine ⟨_, blanks, body.text, rfl, isHead_of_writesAll first listed, blank, body.balanced, ?_⟩
    rw [single, heads, if_neg Bool.false_ne_true, Rule.inScope]
  | .group head groups sheet =>
    obtain ⟨blanks, inner, blank, inside, rfl⟩ := writes
    obtain ⟨balanced, same⟩ := Sheet.scopeParts_eq inside told scope root
    refine ⟨_, blanks, inner, rfl, ⟨head.trimmed, head.plain⟩, blank, balanced, ?_⟩
    rw [groups.isGrouping, if_pos rfl, same, head.scopeHead, Rule.inScope]
  | .other head single body =>
    obtain ⟨blanks, blank, rfl⟩ := writes
    have kept : isGrouping head.text = false := told
    refine ⟨_, blanks, body.text, rfl, ⟨head.trimmed, head.plain⟩, blank, body.balanced, ?_⟩
    rw [kept, if_neg Bool.false_ne_true, head.scopeHead, Rule.inScope]

end

/-- At a text that does not start a comment no comment is read. -/
theorem readComment_eq_none {text : List Char} (plain : ¬ ['/', '*'] <+: text) :
    readComment text = none := by
  unfold readComment
  split
  · rename_i rest
    exact absurd ⟨rest, rfl⟩ plain
  · rfl

/-- An empty sheet has no comments. -/
theorem withoutComments_nil : withoutComments [] = [] := by
  rw [withoutComments, Reader.replace, Reader.pieces, List.flatMap_nil]

/-- A character that starts no comment is kept. -/
theorem withoutComments_cons {c : Char} {css : List Char} (plain : ¬ ['/', '*'] <+: c :: css) :
    withoutComments (c :: css) = c :: withoutComments css := by
  rw [withoutComments, Reader.replace, Reader.pieces_cons (readComment_eq_none plain)]
  rfl

/-- A text without the start of a comment has no comments. -/
theorem withoutComments_eq {css : List Char} (free : ¬ ['/', '*'] <:+: css) :
    withoutComments css = css := by
  induction css with
  | nil => exact withoutComments_nil
  | cons c css ih =>
    rw [withoutComments_cons fun starts => free starts.isInfix,
      ih fun inside => free (List.infix_cons inside)]

/-- A text without an asterisk does not start a comment. -/
theorem uncommented_of_notMem {css : List Char} (plain : '*' ∉ css) : ¬ ['/', '*'] <:+: css :=
  fun inside => plain (inside.subset (by simp))

/-- A style sheet is put in a scope with every selector of its rules, grouped or not, rewritten
once by the table, and with everything else kept, one part on each line. -/
theorem scopeStyles_writes {sheet : Sheet} {css : String} (writes : sheet.Writes css.toList)
    (free : ¬ ['/', '*'] <:+: css.toList) (told : sheet.Told) (scope : String) (root : Root) :
    scopeStyles css scope root =
        String.ofList (sheet.scopedText (scopeSelector scope.toList root)) ∧
      ∀ selector,
        Rewrites scope.toList root selector (scopeSelector scope.toList root selector) := by
  refine ⟨?_, rewrites_scopeSelector scope.toList root⟩
  rw [scopeStyles, withoutComments_eq free, (Sheet.scopeParts_eq writes told _ _).2]
  rfl

/-- A sheet with a statement, a group with a rule of two selectors, and frames. -/
def framedSheet : Sheet :=
  .next (some ⟨"@import 'a';".toList, by decide, by decide, by decide⟩)
    (.group ⟨"@Media (width)".toList, by decide, by decide, by decide⟩ (by decide)
      (.next none
        (.style ⟨".a".toList, by decide, by decide, by decide, by decide⟩
          [⟨"B".toList, by decide, by decide, by decide, by decide⟩]
          ⟨"c:d".toList, balanced_of_forall (by decide)⟩)
        (.ends none)))
    (.next none
      (.other ⟨"@keyframes".toList, by decide, by decide, by decide⟩ (by decide)
        ⟨['t', 'o'] ++ '{' :: (['x', ':', '1'] ++ ['}']), (balanced_of_forall (by decide)).append
          (.block (balanced_of_forall (by decide)) .nil)⟩)
      (.ends none))

/-- A text of the sheet. -/
def framedText : String :=
  "@import 'a'; @Media (width) \x7b .a , B\x7bc:d\x7d\x7d\n@keyframes\x7bto\x7bx:1\x7d\x7d"

/-- The sheet is put in the scope of a class on a root without elements inside. -/
theorem scopeStyles_framedSheet :
    framedSheet.Writes framedText.toList ∧ framedSheet.Told ∧
      scopeStyles framedText "s-1" ⟨.single, some "b", []⟩ =
        "@import 'a';\n@Media (width)\x7b.s-1.a, B.s-1\x7bc:d\x7d\x7d\n" ++
          "@keyframes\x7bto\x7bx:1\x7d\x7d" := by
  have writes : framedSheet.Writes framedText.toList := by
    refine ⟨[], [' '], "@Media (width) \x7b .a , B\x7bc:d\x7d\x7d".toList,
      "\n@keyframes\x7bto\x7bx:1\x7d\x7d".toList, by decide, by decide, ?_, ?_, by decide⟩
    · refine ⟨[' '], " .a , B\x7bc:d\x7d".toList, by decide, ?_, by decide⟩
      refine ⟨[' '], [], ".a , B\x7bc:d\x7d".toList, [], by decide, by decide, ?_,
        ⟨[], [], by decide, by decide, rfl⟩, by decide⟩
      exact ⟨" , B".toList, [], ⟨[' '], [' '], [], by decide, by decide, rfl, by decide⟩,
        by decide, by decide⟩
    · exact ⟨['\n'], [], "@keyframes\x7bto\x7bx:1\x7d\x7d".toList, [], by decide, by decide,
        ⟨[], by decide, by decide⟩, ⟨[], [], by decide, by decide, rfl⟩, by decide⟩
  have told : framedSheet.Told :=
    ⟨⟨trivial, trivial⟩, (by decide : isGrouping "@keyframes".toList = false), trivial⟩
  have free : ¬ ['/', '*'] <:+: framedText.toList := uncommented_of_notMem (by decide)
  have scopes := scopeStyles_writes writes free told "s-1" ⟨.single, some "b", []⟩
  refine ⟨writes, told, scopes.1.trans ?_⟩
  simp only [framedSheet]
  cbv

/-- A sheet of one at-rule that does not group, but whose name starts like one that does. -/
def layerStepsSheet : Sheet :=
  .next none
    (.other ⟨"@layer-steps spin".toList, by decide, by decide, by decide⟩ (by decide)
      ⟨" to ".toList ++ '{' :: (" x: 1 ".toList ++ '}' :: [' ']),
        (balanced_of_forall (by decide)).append
          (.block (balanced_of_forall (by decide)) (balanced_of_forall (by decide)))⟩)
    (.ends none)

/-- A text of that sheet. -/
def layerStepsText : String := "@layer-steps spin \x7b to \x7b x: 1 \x7d \x7d"

/-- The body of an at-rule that does not group is taken for rules if the name goes on with a dash
after that of one that groups. -/
theorem scopeStyles_layerStepsSheet :
    layerStepsSheet.Writes layerStepsText.toList ∧ ¬ ['/', '*'] <:+: layerStepsText.toList ∧
      scopeStyles layerStepsText "s-1" .normal ≠
        String.ofList (layerStepsSheet.scopedText (scopeSelector "s-1".toList .normal)) := by
  have writes : layerStepsSheet.Writes layerStepsText.toList :=
    ⟨[], [], layerStepsText.toList, [], by decide, by decide, ⟨[' '], by decide, by decide⟩,
      ⟨[], [], by decide, by decide, rfl⟩, by decide⟩
  have free : ¬ ['/', '*'] <:+: layerStepsText.toList := uncommented_of_notMem (by decide)
  have taken : scopeStyles layerStepsText "s-1" .normal =
      "@layer-steps spin\x7b.s-1 to\x7b x: 1 \x7d\x7d" := by cbv
  have kept : String.ofList (layerStepsSheet.scopedText (scopeSelector "s-1".toList .normal)) =
      "@layer-steps spin\x7b to \x7b x: 1 \x7d \x7d" := by cbv
  refine ⟨writes, free, ?_⟩
  rw [taken, kept]
  decide

end Sheets

end ComponentPages.Style
