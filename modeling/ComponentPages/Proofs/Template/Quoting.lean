import ComponentPages.Proofs.Template.Bytes
import ComponentPages.Proofs.Template.Comments
import ComponentPages.Proofs.Template.Contents
import Mathlib

/-!
# Quoted texts of an action

The search for the end of an action and the reading of its tokens agree on its quoted texts. What
is cut off as an action closes each quote that it opens (`inert_of_cutAction`), also without its
marks and the blanks around it (`Inert.withoutMarks`, `Inert.trim`). So wherever the reading comes
to in such a text (`Reaches`), the search is outside of quotes there, and a quoted text that starts
there ends within the action (`Inert.outside`). No other part of parsing refuses a quoted text, and
hence no template is refused for one that does not end (`quotes_end`).
-/
namespace ComponentPages.Template

open Text

section Ends

variable {inner : List Char}

/-- An action with a mark for the text before it starts with a dash. -/
theorem exists_of_trimsBefore (marked : trimsBefore inner = true) :
    ∃ rest, inner = '-' :: rest := by
  rcases Bool.or_eq_true_iff.1 marked with front | alone
  · rcases Bool.or_eq_true_iff.1 front with space | line
    · obtain ⟨rest, rfl⟩ := List.isPrefixOf_iff_prefix.1 space
      exact ⟨_, rfl⟩
    · obtain ⟨rest, rfl⟩ := List.isPrefixOf_iff_prefix.1 line
      exact ⟨_, rfl⟩
  · exact ⟨[], eq_of_beq alone⟩

/-- An action with a mark for the text after it ends with a dash. -/
theorem exists_of_trimsAfter (marked : trimsAfter inner = true) :
    ∃ front, inner = front ++ ['-'] := by
  have last : inner.getLast? = some '-' := by
    by_contra undashed
    rw [trimsAfter_of_getLast? undashed] at marked
    cases marked
  exact List.getLast?_eq_some_iff.1 last

/-- An action that ends no action still ends none without its marks. -/
theorem Inert.withoutMarks (inert : Inert inner) : Inert (withoutMarks inner) := by
  have dash : ∀ c ∈ ['-'], c ≠ '\x7d' ∧ c ≠ '"' ∧ c ≠ rawQuote :=
    List.forall_mem_singleton.2 (by decide)
  have started : Inert (withoutFrontMark inner) := by
    rw [withoutFrontMark]
    split
    · rename_i marked
      obtain ⟨rest, rfl⟩ := exists_of_trimsBefore marked
      have whole : Inert (['-'] ++ rest) := inert
      exact whole.of_passes (passes_of_forall dash)
    · exact inert
  change Inert (if trimsAfter (withoutFrontMark inner) then (withoutFrontMark inner).dropLast
    else withoutFrontMark inner)
  split
  · rename_i marked
    obtain ⟨front, whole⟩ := exists_of_trimsAfter marked
    rw [whole] at started ⊢
    rw [List.dropLast_concat]
    exact started.of_append fun c member => (dash c member).2
  · exact started

/-- A text that ends no action still ends none without the blanks around it. -/
theorem Inert.trim (inert : Inert inner) : Inert (trim inner) := by
  have front : ∀ c ∈ inner.takeWhile isBlank, isBlank c = true :=
    List.all_eq_true.1 List.all_takeWhile
  have started : Inert (trimStart inner) := by
    rw [← List.takeWhile_append_dropWhile (p := isBlank) (l := inner)] at inert
    exact inert.of_passes (passes_of_forall fun c member => ne_of_isBlank (front c member))
  obtain ⟨blanks, whole, blank⟩ := eq_trimEnd_append (trimStart inner)
  rw [whole] at started
  exact started.of_append fun c member => (ne_of_isBlank (blank c member)).2

end Ends

section Places

variable {action : String} {text place content after : List Char} {fault : ParseFault}

/-- A text between double quotes is read if it is one that can stand there. -/
theorem Quoted.exists_readText (quoted : Quoted content) (action : String) (after : List Char) :
    ∃ letters, readText action (content ++ '"' :: after) = .ok (letters, after) := by
  induction quoted with
  | nil => exact ⟨[], by rw [List.nil_append, readText]⟩
  | plain noQuote noEscape later ih =>
    obtain ⟨letters, read⟩ := ih
    exact ⟨_, by rw [List.cons_append, readText_cons noQuote noEscape, read]; rfl⟩
  | escaped later ih =>
    obtain ⟨letters, read⟩ := ih
    exact ⟨_, by rw [List.cons_append, List.cons_append, readText, read]; rfl⟩

/-- A raw text ends at the first of its quotes. -/
theorem readRawText_append (unquoted : rawQuote ∉ content) (action : String) (after : List Char) :
    readRawText action (content ++ rawQuote :: after) = .ok (content, after) := by
  rw [readRawText, cut_single unquoted]

/-- Reading the tokens of a text comes to a place in it: behind blanks and whole tokens. -/
inductive Reaches (action : String) : List Char → List Char → Prop where
  | here (text : List Char) : Reaches action text text
  | blank {c : Char} {rest place : List Char} (blank : isBlank c = true)
      (later : Reaches action rest place) : Reaches action (c :: rest) place
  | token {c : Char} {rest after place : List Char} {token : Token} (filled : isBlank c = false)
      (read : readToken action c rest = .ok (token, after))
      (later : Reaches action after place) : Reaches action (c :: rest) place

/-- Reading the tokens of a text fails exactly for a fault of a token at a place that it comes
to. -/
theorem readTokens_eq_error_iff :
    readTokens action text = .error fault ↔ ∃ c rest, Reaches action text (c :: rest) ∧
      isBlank c = false ∧ readToken action c rest = .error fault := by
  constructor
  · intro failed
    fun_induction readTokens action text with
    | case1 => cases failed
    | case2 c rest blank ih =>
      obtain ⟨first, others, reaches, filled, fails⟩ := ih failed
      exact ⟨first, others, .blank blank reaches, filled, fails⟩
    | case3 c rest filled fault fails =>
      obtain rfl := Except.error.inj failed
      exact ⟨c, rest, .here _, Bool.eq_false_iff.2 filled, fails⟩
    | case4 c rest filled token after read shorter ih =>
      cases found : readTokens action after with
      | ok tokens =>
        rw [found] at failed
        cases failed
      | error other =>
        rw [found] at failed
        obtain rfl := Except.error.inj failed
        obtain ⟨first, others, reaches, solid, fails⟩ := ih found
        exact ⟨first, others, .token (Bool.eq_false_iff.2 filled) read reaches, solid, fails⟩
    | case5 => cases failed
  · rintro ⟨c, rest, reaches, filled, fails⟩
    generalize same : c :: rest = place at reaches
    induction reaches with
    | here text =>
      subst same
      rw [readTokens, filled, if_neg Bool.false_ne_true, fails]
    | blank blank later ih =>
      rw [readTokens, if_pos blank, ih same]
    | token filled read later ih =>
      rw [readTokens_cons filled read, ih same]
      rfl

/-- A place of the text of an action where the search for its end is outside of quotes, and where a
quoted text that starts there ends within the action, at its first closing quote. -/
structure Outside (action : String) (text place : List Char) : Prop where
  passed : ∃ front, text = front ++ place ∧ Passes front
  quoted : ∀ rest, place = '"' :: rest → ∃ content after letters,
    rest = content ++ '"' :: after ∧ Quoted content ∧ readText action rest = .ok (letters, after)
  rawQuoted : ∀ rest, place = rawQuote :: rest → ∃ content after,
    rest = content ++ rawQuote :: after ∧ rawQuote ∉ content ∧
      readRawText action rest = .ok (content, after)

/-- What is in front of a place that the reading of tokens comes to, the search for the end of an
action passes. -/
theorem Reaches.exists_passes (reaches : Reaches action text place) :
    ∃ front, text = front ++ place ∧ Passes front := by
  induction reaches with
  | here text => exact ⟨[], rfl, passes_nil⟩
  | @blank c rest place blank later ih =>
    obtain ⟨front, rfl, passes⟩ := ih
    obtain ⟨noBrace, noQuote, noRawQuote⟩ := ne_of_isBlank blank
    exact ⟨c :: front, rfl, (passes_singleton noBrace noQuote noRawQuote).append passes⟩
  | @token c rest after place token filled read later ih =>
    obtain ⟨front, rfl, passes⟩ := ih
    obtain ⟨taken, rfl, stretch⟩ := exists_of_readToken read
    exact ⟨c :: taken ++ front, by simp, stretch.passes.append passes⟩

/-- The reading of the tokens of a text that ends no action comes only to places outside of
quotes. -/
theorem Inert.outside (inert : Inert text) (reaches : Reaches action text place) :
    Outside action text place := by
  -- All quotes of the text are closed, so with those in front of the place those behind it are.
  obtain ⟨front, rfl, passes⟩ := reaches.exists_passes
  have here : Inert place := inert.of_passes passes
  refine ⟨⟨front, rfl, passes⟩, ?_, ?_⟩
  · rintro rest rfl
    cases here with
    | plain noQuote => exact absurd rfl noQuote
    | @quoted content after quoted =>
      obtain ⟨letters, read⟩ := quoted.exists_readText action after
      exact ⟨content, after, letters, rfl, quoted, read⟩
  · rintro rest rfl
    cases here with
    | plain _ noRawQuote => exact absurd rfl noRawQuote
    | @rawQuoted content after unquoted =>
      exact ⟨content, after, rfl, unquoted, readRawText_append unquoted action after⟩

end Places

section Faults

variable {α β : Type} {fault : ParseFault}

/-- A fault of a quoted text that does not end. -/
inductive Unended : ParseFault → Prop where
  | text (action : String) : Unended (.unclosedText action)
  | rawText (action : String) : Unended (.unclosedRawText action)
  | escape : Unended .unclosedEscape

/-- A fault is one of these exactly if its message says so. -/
theorem unended_iff_message :
    Unended fault ↔ ∃ rest, fault.message = "unterminated" ++ rest := by
  constructor
  · intro unended
    cases unended with
    | text action =>
      refine ⟨" string in " ++ shownAction action, ?_⟩
      rw [← String.append_assoc]
      rfl
    | rawText action =>
      refine ⟨" raw string in " ++ shownAction action, ?_⟩
      rw [← String.append_assoc]
      rfl
    | escape => exact ⟨" escape", rfl⟩
  · rintro ⟨rest, said⟩
    have starts : "unterminated".toList <+: fault.message.toList :=
      ⟨rest.toList, by rw [said, String.toList_append]⟩
    cases fault with
    | unclosedText action => exact .text action
    | unclosedRawText action => exact .rawText action
    | unclosedEscape => exact .escape
    | _ =>
      unfold ParseFault.message at starts
      simp [shownAction] at starts

/-- An outcome that is no failure for a quoted text that does not end. -/
def Ended (outcome : Except ParseFault α) : Prop :=
  ∀ fault, outcome = .error fault → ¬ Unended fault

/-- A value is no failure. -/
theorem ended_ok (value : α) : Ended (.ok value : Except ParseFault α) := by
  intro fault failed
  cases failed

/-- A failure for another fault is none for a quoted text. -/
theorem ended_error (other : ¬ Unended fault) : Ended (.error fault : Except ParseFault α) := by
  rintro cause ⟨⟩
  exact other

/-- A sequence fails for no quoted text if none of its steps does. -/
theorem Ended.bind {first : Except ParseFault α} {next : α → Except ParseFault β}
    (ended : Ended first) (later : ∀ value, first = .ok value → Ended (next value)) :
    Ended (first >>= next) := by
  cases first with
  | ok value => exact later value rfl
  | error cause =>
    intro fault failed
    obtain rfl := Except.error.inj failed
    exact ended cause rfl

/-- What is made of an outcome fails for no quoted text if the outcome does not. -/
theorem Ended.map {first : Except ParseFault α} (ended : Ended first) (change : α → β) :
    Ended (first.map change) := by
  cases first with
  | ok value => exact ended_ok _
  | error cause =>
    intro fault failed
    obtain rfl := Except.error.inj failed
    exact ended cause rfl

/-- A number is refused for no quoted text. -/
theorem ended_readNumber (first : Char) (rest : List Char) : Ended (readNumber first rest) := by
  unfold readNumber
  simp only
  split
  · exact ended_ok _
  · exact ended_error (by rintro ⟨⟩)

/-- The tokens of a pipeline are refused for no quoted text. -/
theorem ended_readPipeline (commands : List Command) (operands : List Operand)
    (tokens : List Token) : Ended (readPipeline commands operands tokens) := by
  fun_induction readPipeline commands operands tokens with
  | case1 => exact ended_error (by rintro ⟨⟩)
  | case2 => exact ended_ok _
  | case3 => exact ended_error (by rintro ⟨⟩)
  | case4 commands rest head arguments ih => exact ih
  | case5 => exact ended_error (by rintro ⟨⟩)
  | case6 commands operands rest inner after _ inside outside =>
    exact inside.bind fun pipeline _ => outside pipeline
  | case7 => exact ended_error (by rintro ⟨⟩)
  | case8 commands operands token rest _ _ operand found ih => exact ih

/-- What follows `else` is refused for no quoted text. -/
theorem ended_ofElse (tokens : List Token) : Ended (Action.ofElse tokens) := by
  unfold Action.ofElse
  split
  · exact ended_ok _
  · split
    · exact (ended_readPipeline [] [] _).map _
    · exact ended_error (by rintro ⟨⟩)
  · exact ended_error (by rintro ⟨⟩)

/-- The tokens of an action are refused for no quoted text. -/
theorem ended_ofTokens (tokens : List Token) : Ended (Action.ofTokens tokens) := by
  unfold Action.ofTokens
  split
  · split_ifs
    · exact ended_ok _
    · exact ended_ofElse _
    · exact (ended_readPipeline [] [] _).map _
    · exact (ended_readPipeline [] [] _).map _
    · exact (ended_readPipeline [] [] _).map _
    · exact (ended_readPipeline [] [] _).map _
  · exact (ended_readPipeline [] [] _).map _

/-- An `else` is refused for no quoted text. -/
theorem OpenBlock.ended_toElse (nodes : List Node) (block : OpenBlock) :
    Ended (block.toElse nodes) := by
  unfold OpenBlock.toElse
  split
  case h_1 | h_2 | h_3 | h_4 => exact ended_ok _
  case h_5 | h_6 | h_7 => exact ended_error (by rintro ⟨⟩)

/-- An `else if` is refused for no quoted text. -/
theorem OpenBlock.ended_toElseIf (nodes : List Node) (condition : Pipeline) (block : OpenBlock) :
    Ended (block.toElseIf nodes condition) := by
  unfold OpenBlock.toElseIf
  split
  case h_1 => exact ended_ok _
  case h_2 | h_3 | h_4 | h_5 | h_6 => exact ended_error (by rintro ⟨⟩)

/-- An action is refused in no place for a quoted text. -/
theorem ended_act (reading : Reading) (action : Action) : Ended (reading.act action) := by
  unfold Reading.act
  cases action with
  | output pipeline => exact ended_ok _
  | openIf condition => exact ended_ok _
  | openRange source => exact ended_ok _
  | openWith value => exact ended_ok _
  | elseIf condition =>
    rcases reading.blocks with _ | ⟨⟨block, before⟩, outer⟩
    · exact ended_error (by rintro ⟨⟩)
    · exact (block.ended_toElseIf reading.nodes condition).map _
  | elseOnly =>
    rcases reading.blocks with _ | ⟨⟨block, before⟩, outer⟩
    · exact ended_error (by rintro ⟨⟩)
    · exact (block.ended_toElse reading.nodes).map _
  | endBlock =>
    rcases reading.blocks with _ | ⟨⟨block, before⟩, outer⟩
    · exact ended_error (by rintro ⟨⟩)
    · exact ended_ok _

/-- A segment is refused for no quoted text. -/
theorem ended_step (reading : Reading) (segment : Segment) : Ended (reading.step segment) := by
  cases segment with
  | text content => exact ended_ok _
  | action tokens => exact (ended_ofTokens tokens).bind fun action _ => ended_act reading action

/-- Segments are refused for no quoted text. -/
theorem ended_foldlM (segments : List Segment) (reading : Reading) :
    Ended (segments.foldlM Reading.step reading) := by
  induction segments generalizing reading with
  | nil => exact ended_ok _
  | cons segment segments ih =>
    rw [List.foldlM_cons]
    exact (ended_step reading segment).bind fun next _ => ih next

/-- Segments stand for nodes, or are refused for no quoted text. -/
theorem ended_ofSegments (segments : List Segment) : Ended (Node.ofSegments segments) := by
  refine (ended_foldlM segments _).bind fun reading _ => ?_
  unfold Reading.finish
  split
  · exact ended_ok _
  · exact ended_error (by rintro ⟨⟩)

end Faults

section Templates

/-- Where the search is outside of quotes, a token is refused for no quoted text. -/
theorem Outside.ended_readToken {action : String} {text rest : List Char} {c : Char}
    (outside : Outside action text (c :: rest)) : Ended (readToken action c rest) := by
  unfold readToken
  split_ifs with opening closing pipe quote raw dot root number named
  · exact ended_ok _
  · exact ended_ok _
  · exact ended_ok _
  · obtain rfl := eq_of_beq quote
    obtain ⟨content, after, letters, -, -, read⟩ := outside.quoted rest rfl
    rw [read]
    exact ended_ok _
  · obtain rfl := eq_of_beq raw
    obtain ⟨content, after, -, -, read⟩ := outside.rawQuoted rest rfl
    rw [read]
    exact ended_ok _
  · exact ended_ok _
  · exact ended_ok _
  · exact ended_readNumber c rest
  · exact ended_ok _
  · exact ended_error (by rintro ⟨⟩)

/-- The tokens of a text that ends no action are refused for no quoted text. -/
theorem Inert.ended_tokenize {text : List Char} (inert : Inert text) : Ended (tokenize text) := by
  intro fault failed
  obtain ⟨c, rest, reaches, filled, fails⟩ := readTokens_eq_error_iff.1 failed
  exact (inert.outside reaches).ended_readToken fault fails

/-- A template has segments, or is refused for no quoted text. -/
theorem ended_readSegments (trimming : Bool) (source : List Char) :
    Ended (readSegments trimming source) := by
  -- By induction on the text: what follows its first action is shorter.
  rw [readSegments_eq]
  cases opened : cut ['{', '{'] source with
  | none => exact ended_ok _
  | some found =>
    obtain ⟨before, rest⟩ := found
    cases closed : cutAction none rest with
    | none =>
      simp only [closed]
      exact ended_error (by rintro ⟨⟩)
    | some found =>
      obtain ⟨inner, after⟩ := found
      have inert : Inert (trim (withoutMarks inner)) :=
        (inert_of_cutAction closed).withoutMarks.trim
      have here : Ended (actionSegment (trim (withoutMarks inner))) := by
        rw [actionSegment]
        split
        · exact ended_ok _
        · exact inert.ended_tokenize.map _
      simp only [closed, segmentsFrom]
      refine Ended.map (here.bind fun segments _ => ?_) _
      exact (ended_readSegments _ after).bind fun others _ => ended_ok _
termination_by source.length
decreasing_by
  rw [eq_append_of_cut opened, eq_append_of_cutAction closed]
  simp only [List.length_append, List.length_cons]
  omega

/-- No template is refused for a quoted text that does not end. The search for the end of an action
may go byte by byte, and wherever it ends, the reading of the tokens of the action, without its
marks and the blanks around it, comes only to places where the search is outside of quotes and where
a quoted text ends within the action. -/
theorem quotes_end :
    (∀ name source failure, parse name source = .error failure → ∃ fault,
      failure = .templateParse name fault ∧ ∀ rest, fault.message ≠ "unterminated" ++ rest) ∧
    (∀ rest, actionSize none (utf8 rest) =
      (cutAction none rest).map fun found => (utf8 found.1).length) ∧
    ∀ rest inner after, cutAction none rest = some (inner, after) →
      ∀ action place, Reaches action (trim (withoutMarks inner)) place →
        Outside action (trim (withoutMarks inner)) place := by
  refine ⟨?_, actionSize_utf8, ?_⟩
  · intro name source failure failed
    have ended : Ended (segments source.toList >>= Node.ofSegments) :=
      (ended_readSegments false source.toList).bind fun parts _ => ended_ofSegments parts
    unfold parse at failed
    split at failed
    · cases failed
    · rename_i fault refused
      refine ⟨fault, (Except.error.inj failed).symm, fun rest said => ?_⟩
      exact ended fault refused (unended_iff_message.2 ⟨rest, said⟩)
  · intro rest inner after cuts action place reaches
    exact (inert_of_cutAction cuts).withoutMarks.trim.outside reaches

/-- The text of an action with each kind of quote inside of the other, with closing braces in both,
and with a letter of two bytes behind a backslash. -/
def nestedQuotes : List Char :=
  "- \"\\é\x60\\\"\x7d\x7d\" | f \x60\"\x7d\x7d\\\x60 -".toList

/-- The raw text in it, without its opening quote. -/
def nestedRawText : List Char := "\"\x7d\x7d\\\x60".toList

/-- A template is refused for another reason, and in an action with nested quotes the raw text is
reached behind the other text, and ends. -/
theorem quotes_end_nested :
    (∃ fault, parse "card" "\x7b\x7b'\x7d\x7d" = .error (.templateParse "card" fault) ∧
      ∀ rest, fault.message ≠ "unterminated" ++ rest) ∧
    actionSize none (utf8 (nestedQuotes ++ ['\x7d', '\x7d', ' '])) = some 25 ∧
    cutAction none (nestedQuotes ++ ['\x7d', '\x7d', ' ']) = some (nestedQuotes, [' ']) ∧
    Reaches "" (trim (withoutMarks nestedQuotes)) (rawQuote :: nestedRawText) ∧
    Outside "" (trim (withoutMarks nestedQuotes)) (rawQuote :: nestedRawText) := by
  have refused : parse "card" "\x7b\x7b'\x7d\x7d" =
      .error (.templateParse "card" (.unexpectedCharacter '\'' "'")) := by cbv
  have size : actionSize none (utf8 (nestedQuotes ++ ['\x7d', '\x7d', ' '])) = some 25 := by cbv
  have cuts : cutAction none (nestedQuotes ++ ['\x7d', '\x7d', ' ']) =
      some (nestedQuotes, [' ']) := by cbv
  have reaches : Reaches "" (trim (withoutMarks nestedQuotes)) (rawQuote :: nestedRawText) := by
    have body : trim (withoutMarks nestedQuotes) = '"' :: ("\\é\x60\\\"\x7d\x7d\"".toList ++
        ' ' :: '|' :: ' ' :: 'f' :: ' ' :: rawQuote :: nestedRawText) := by cbv
    have text : readToken "" '"' ("\\é\x60\\\"\x7d\x7d\"".toList ++
        ' ' :: '|' :: ' ' :: 'f' :: ' ' :: rawQuote :: nestedRawText) =
        .ok (.text "é\x60\"\x7d\x7d",
          ' ' :: '|' :: ' ' :: 'f' :: ' ' :: rawQuote :: nestedRawText) := by cbv
    have pipe : readToken "" '|' (' ' :: 'f' :: ' ' :: rawQuote :: nestedRawText) =
        .ok (.pipe, ' ' :: 'f' :: ' ' :: rawQuote :: nestedRawText) := by cbv
    have word : readToken "" 'f' (' ' :: rawQuote :: nestedRawText) =
        .ok (.word "f", ' ' :: rawQuote :: nestedRawText) := by cbv
    have space : isBlank ' ' = true := by decide
    rw [body]
    exact .token (by decide) text <| .blank space <| .token (by decide) pipe <| .blank space <|
      .token (by decide) word <| .blank space <| .here _
  obtain ⟨refusals, sizes, places⟩ := quotes_end
  obtain ⟨fault, same, other⟩ := refusals "card" _ _ refused
  refine ⟨⟨fault, ?_, other⟩, size, cuts, reaches, places _ _ _ cuts _ _ reaches⟩
  rw [refused, same]

end Templates

end ComponentPages.Template
