import ComponentPages.Proofs.Template.Lexing
import Mathlib

/-!
# Comments

A comment leaves nothing: where it stands between two templates, what these write stands side by
side (`parse_comment_between`). That asks for an action that ends where its comment ends. The end of
an action is looked for outside of quoted texts, before it is known to be a comment, so the quotes
and doubled braces of a comment count: the action ends with its comment exactly if the comment
closes each quote that it opens and doubles no closing brace outside of quotes
(`cutAction_comment_iff`). What is cut off as an action always does (`inert_of_cutAction`).
-/
namespace ComponentPages.Template

open Text

/-- A text that ends no action, as that of a comment: each quote is closed, and outside of quotes no
closing brace is doubled. -/
inductive Inert : List Char → Prop where
  | nil : Inert []
  | plain {c : Char} {text : List Char} (noQuote : c ≠ '"') (noRawQuote : c ≠ rawQuote)
      (unclosing : ¬ ['\x7d', '\x7d'] <+: c :: text) (later : Inert text) : Inert (c :: text)
  | quoted {content text : List Char} (quoted : Quoted content) (later : Inert text) :
      Inert ('"' :: (content ++ '"' :: text))
  | rawQuoted {content text : List Char} (unquoted : rawQuote ∉ content) (later : Inert text) :
      Inert (rawQuote :: (content ++ rawQuote :: text))

section Ends

variable {text content rest : List Char}

/-- A text without quotes and closing braces ends no action. -/
theorem inert_of_forall (plain : ∀ c ∈ text, c ≠ '"' ∧ c ≠ rawQuote ∧ c ≠ '\x7d') : Inert text := by
  induction text with
  | nil => exact .nil
  | cons c text ih =>
    obtain ⟨⟨noQuote, noRawQuote, noBrace⟩, later⟩ := List.forall_mem_cons.1 plain
    refine .plain noQuote noRawQuote ?_ (ih later)
    rintro ⟨others, same⟩
    exact noBrace (List.cons.inj same).1.symm

/-- Outside of quotes, a character that neither quotes nor closes an action with the next one is
passed. -/
theorem cutAction_cons {c : Char} (noQuote : c ≠ '"') (noRawQuote : c ≠ rawQuote)
    (unclosing : ¬ ['\x7d', '\x7d'] <+: c :: rest) :
    cutAction none (c :: rest) =
      (cutAction none rest).map fun found => (c :: found.1, found.2) := by
  have open' : ∀ others, c = '\x7d' → rest = '\x7d' :: others → False := by
    rintro others rfl rfl
    exact unclosing ⟨others, rfl⟩
  rw [cutAction.eq_5 c rest open', if_neg (by simp [noQuote, noRawQuote])]

/-- No two closing braces are in a row across a seam to a text that starts with none. -/
theorem unclosing_append {c : Char} (unclosing : ¬ ['\x7d', '\x7d'] <+: c :: text)
    (apart : rest.head? ≠ some '\x7d') : ¬ ['\x7d', '\x7d'] <+: c :: (text ++ rest) := by
  rintro ⟨others, same⟩
  obtain ⟨rfl, next⟩ := List.cons.inj same
  cases text with
  | nil => exact apart (by rw [List.nil_append] at next; rw [← next]; rfl)
  | cons second text =>
    obtain ⟨rfl, -⟩ := List.cons.inj next
    exact unclosing ⟨text, rfl⟩

/-- Such a text of a comment is passed, in front of what does not start with a closing brace. -/
theorem Inert.cutAction_append (inert : Inert text) (apart : rest.head? ≠ some '\x7d') :
    cutAction none (text ++ rest) =
      (cutAction none rest).map fun found => (text ++ found.1, found.2) := by
  induction inert with
  | nil =>
    rw [List.nil_append]
    cases cutAction none rest <;> rfl
  | @plain c text noQuote noRawQuote unclosing later ih =>
    rw [List.cons_append, cutAction_cons noQuote noRawQuote (unclosing_append unclosing apart), ih,
      Option.map_map]
    rfl
  | @quoted content text quoted later ih =>
    have passes := quoted.passes (text ++ rest)
    rw [ih, Option.map_map] at passes
    simpa [Function.comp_def] using passes
  | @rawQuoted content text unquoted later ih =>
    have passes := passes_rawQuoted unquoted (text ++ rest)
    rw [ih, Option.map_map] at passes
    simpa [Function.comp_def] using passes

/-- What an action holds from a place in the given quote on, if it ends: the rest of the quoted text
with its closing quote, and outside of quotes a text that ends no action. -/
def Completes : Option Char → List Char → Prop
  | none, inner => Inert inner
  | some quote, inner => ∃ content others, inner = content ++ quote :: others ∧
      (if quote = '"' then Quoted content else quote ∉ content) ∧ Inert others

/-- What is cut off as an action is complete. -/
theorem completes_of_cutAction {state : Option Char} {inner after : List Char}
    (cuts : cutAction state text = some (inner, after)) : Completes state inner := by
  fun_induction cutAction state text generalizing inner with
  | case1 => cases cuts
  | case2 letter rest ih =>
    obtain ⟨⟨found, tail⟩, later, same⟩ := Option.map_eq_some_iff.1 cuts
    obtain ⟨rfl, rfl⟩ := Prod.mk.inj same
    obtain ⟨content, others, rfl, quoted, inert⟩ := ih later
    rw [if_pos rfl] at quoted
    exact ⟨'\\' :: letter :: content, others, rfl, by rw [if_pos rfl]; exact .escaped quoted, inert⟩
  | case3 quote c rest unescaped ih =>
    obtain ⟨⟨found, tail⟩, later, same⟩ := Option.map_eq_some_iff.1 cuts
    obtain ⟨rfl, rfl⟩ := Prod.mk.inj same
    by_cases closes : c = quote
    · subst closes
      rw [beq_self_eq_true, if_pos rfl] at ih later
      refine ⟨[], found, rfl, ?_, ih later⟩
      split
      · exact .nil
      · exact List.not_mem_nil
    · rw [beq_eq_false_iff_ne.2 closes, if_neg Bool.false_ne_true] at ih later
      obtain ⟨content, others, rfl, quoted, inert⟩ := ih later
      refine ⟨c :: content, others, rfl, ?_, inert⟩
      split
      · rename_i double
        subst double
        -- A backslash that escapes nothing is the last character, and no action ends there.
        have noEscape : c ≠ '\\' := by
          rintro rfl
          cases rest with
          | nil => cases later
          | cons letter rest => exact unescaped letter rest rfl rfl rfl
        rw [if_pos rfl] at quoted
        exact .plain closes noEscape quoted
      · rename_i single
        rw [if_neg single] at quoted
        intro member
        rcases List.mem_cons.1 member with same | later
        · exact closes same.symm
        · exact quoted later
  | case4 =>
    obtain ⟨rfl, rfl⟩ := Prod.mk.inj (Option.some.inj cuts)
    exact .nil
  | case5 c rest unended ih =>
    obtain ⟨⟨found, tail⟩, later, same⟩ := Option.map_eq_some_iff.1 cuts
    obtain ⟨rfl, rfl⟩ := Prod.mk.inj same
    have complete := ih later
    by_cases double : c = '"'
    · subst double
      obtain ⟨content, others, rfl, quoted, inert⟩ := complete
      exact .quoted quoted inert
    by_cases raw : c = rawQuote
    · subst raw
      obtain ⟨content, others, rfl, unquoted, inert⟩ := complete
      exact .rawQuoted unquoted inert
    · have outside : (c == '"' || c == rawQuote) = false := by simp [double, raw]
      rw [outside, if_neg Bool.false_ne_true] at complete
      have unclosing : ¬ ['\x7d', '\x7d'] <+: c :: found := by
        rintro ⟨others, same⟩
        obtain ⟨rfl, rfl⟩ := List.cons.inj same
        exact unended _ rfl (eq_append_of_cutAction later)
      exact .plain double raw unclosing complete

/-- What is cut off as an action ends no action. -/
theorem inert_of_cutAction {inner after : List Char}
    (cuts : cutAction none text = some (inner, after)) : Inert inner := completes_of_cutAction cuts

/-- A quoted text ends in front of a text without its quote. -/
theorem exists_of_append_eq {quote : Char} {others back : List Char} (absent : quote ∉ back)
    (same : content ++ quote :: others = text ++ back) :
    ∃ middle, text = content ++ quote :: middle ∧ others = middle ++ back := by
  rcases List.append_eq_append_iff.1 same with ⟨front, rfl, whole⟩ | ⟨front, rfl, whole⟩
  · cases front with
    | nil =>
      obtain rfl : quote :: others = back := whole
      exact absurd List.mem_cons_self absent
    | cons first middle =>
      obtain ⟨rfl, rfl⟩ := List.cons.inj whole
      exact ⟨middle, rfl, rfl⟩
  · exact absurd (whole ▸ List.mem_append_right front List.mem_cons_self) absent

/-- A text that ends no action still ends none when what it ends with is taken off, if no quote is
taken off. -/
theorem Inert.of_append {back : List Char} (unquoted : ∀ c ∈ back, c ≠ '"' ∧ c ≠ rawQuote)
    (inert : Inert (text ++ back)) : Inert text := by
  have noQuote : '"' ∉ back := fun member => (unquoted '"' member).1 rfl
  have noRawQuote : rawQuote ∉ back := fun member => (unquoted rawQuote member).2 rfl
  generalize whole : text ++ back = joined at inert
  induction inert generalizing text with
  | nil =>
    rw [(List.append_eq_nil_iff.1 whole).1]
    exact .nil
  | plain double raw unclosing later ih =>
    cases text with
    | nil => exact .nil
    | cons c text =>
      obtain ⟨rfl, rfl⟩ := List.cons.inj whole
      exact .plain double raw (fun closing => unclosing (closing.trans (List.prefix_append _ _)))
        (ih rfl)
  | quoted quoted later ih =>
    cases text with
    | nil => exact .nil
    | cons c text =>
      obtain ⟨rfl, same⟩ := List.cons.inj whole
      obtain ⟨middle, rfl, rfl⟩ := exists_of_append_eq noQuote same.symm
      exact .quoted quoted (ih rfl)
  | rawQuoted unquoted later ih =>
    cases text with
    | nil => exact .nil
    | cons c text =>
      obtain ⟨rfl, same⟩ := List.cons.inj whole
      obtain ⟨middle, rfl, rfl⟩ := exists_of_append_eq noRawQuote same.symm
      exact .rawQuoted unquoted (ih rfl)

/-- A text that ends no action still ends none when a text that is passed is taken off in front. -/
theorem Inert.of_passes {front : List Char} (passes : Passes front)
    (inert : Inert (front ++ text)) : Inert text := by
  -- Both are followed by the end of an action, a blank apart.
  have ends : cutAction none [' ', '\x7d', '\x7d'] = some ([' '], []) := by decide
  have apart : [' ', '\x7d', '\x7d'].head? ≠ some '\x7d' := by decide
  have whole := inert.cutAction_append apart
  rw [ends, List.append_assoc, passes] at whole
  obtain ⟨⟨inner, after⟩, cuts, same⟩ := Option.map_eq_some_iff.1 whole
  have taken : front ++ inner = front ++ (text ++ [' ']) := by
    rw [← List.append_assoc]
    exact (Prod.mk.inj same).1
  have spaced : Inert (text ++ [' ']) := List.append_cancel_left taken ▸ inert_of_cutAction cuts
  exact spaced.of_append (by simp [rawQuote])

/-- The text of a comment as that of an action. -/
def commentText (comment : List Char) : List Char := '/' :: '*' :: (comment ++ ['*', '/'])

/-- The search for the end of an action passes a comment that ends no action. -/
theorem Inert.passes (inert : Inert text) : Passes (commentText text) := by
  intro rest
  have slash : Passes ['/', '*'] := passes_of_forall (by simp [rawQuote])
  have ends : Passes ['*', '/'] := passes_of_forall (by simp [rawQuote])
  have whole : commentText text ++ rest = ['/', '*'] ++ (text ++ (['*', '/'] ++ rest)) := by
    simp [commentText]
  rw [whole, slash, inert.cutAction_append (by simp), ends, Option.map_map, Option.map_map]
  simp [commentText, Function.comp_def]

/-- An action that starts with a comment ends with it exactly if the comment is one that ends no
action. -/
theorem cutAction_comment_iff :
    cutAction none (commentText text ++ '\x7d' :: '\x7d' :: rest) =
      some (commentText text, rest) ↔ Inert text := by
  constructor
  · intro cuts
    have slash : Passes ['/', '*'] := passes_of_forall (by simp [rawQuote])
    have whole : Inert (['/', '*'] ++ (text ++ ['*', '/'])) := inert_of_cutAction cuts
    exact (whole.of_passes slash).of_append (by simp [rawQuote])
  · intro inert
    have ends : cutAction none ('\x7d' :: '\x7d' :: rest) = some ([], rest) := by rw [cutAction]
    rw [inert.passes, ends, Option.map_some, List.append_nil]

/-- The comments that end no action can be told. -/
instance (text : List Char) : Decidable (Inert text) :=
  decidable_of_iff (cutAction none (commentText text ++ ['\x7d', '\x7d']) =
    some (commentText text, [])) cutAction_comment_iff

end Ends

section Templates

variable {comment : List Char}

/-- A comment that ends no action is the text of an action. -/
theorem Inert.body (inert : Inert comment) : Body (commentText comment) where
  filled := List.cons_ne_nil _ _
  passes := inert.passes
  unfronted _ := trimsBefore_cons (by decide) _
  undashed := by simp [commentText, List.getLast?_cons, List.getLast?_append]

/-- The action of a comment has no segment. -/
theorem actionSegment_commentText (comment : List Char) :
    actionSegment (trim (commentText comment)) = .ok [] := by
  have last : (commentText comment).getLast? = some '/' := by
    simp [commentText, List.getLast?_cons, List.getLast?_append]
  have trimmed : Trimmed (commentText comment) := by
    constructor
    · intro c first
      obtain rfl : c = '/' := (Option.some.inj first).symm
      decide
    · intro c final
      obtain rfl : c = '/' := Option.some.inj (final.symm.trans last)
      decide
  have whole : trim (commentText comment) = commentText comment := by
    have alone : trim ([] ++ commentText comment ++ []) = commentText comment :=
      trimmed.trim_append nofun nofun
    rwa [List.nil_append, List.append_nil] at alone
  have comments : isComment (commentText comment) = true := by
    rw [isComment, Bool.and_eq_true_iff, List.isPrefixOf_iff_prefix, List.isSuffixOf_iff_suffix]
    exact ⟨⟨_, rfl⟩, ⟨'/' :: '*' :: comment, by simp [commentText]⟩⟩
  rw [whole, actionSegment, comments, if_pos rfl]

/-- A comment between two templates leaves nothing: they parse together, and write what the first
writes and then what the second writes. -/
theorem parse_comment_between {name x y comment : String} {first second : Template}
    (inert : Inert comment.toList) (apart : x.toList.getLast? ≠ some '{')
    (before : parse name x = .ok first) (behind : parse name y = .ok second) :
    ∃ whole : Template,
      parse name (x ++ "\x7b\x7b/*" ++ comment ++ "*/\x7d\x7d" ++ y) = .ok whole ∧
      ∀ {σ : Type} (data : Value) (host : Host σ), whole.execute data host = (do
        let output ← first.execute data host
        let later ← second.execute data host
        pure (output ++ later)) := by
  obtain ⟨parts, nodes, read, made, rfl⟩ := exists_of_parse_ok before
  obtain ⟨others, later, further, done, rfl⟩ := exists_of_parse_ok behind
  have body := inert.body
  have unmarked : marked false false (commentText comment.toList) = commentText comment.toList := by
    simp [marked]
  have following : segmentsFrom (commentText comment.toList) y.toList = .ok others := by
    have parts := body.segmentsFrom_marked false false y.toList
    rw [unmarked, actionSegment_commentText, further] at parts
    exact parts
  have source : (x ++ "\x7b\x7b/*" ++ comment ++ "*/\x7d\x7d" ++ y).toList =
      x.toList ++ '{' :: '{' :: (commentText comment.toList ++ '\x7d' :: '\x7d' :: y.toList) := by
    simp [commentText]
  have lexes : readSegments false (x ++ "\x7b\x7b/*" ++ comment ++ "*/\x7d\x7d" ++ y).toList =
      .ok (parts ++ others) := by
    rw [source, readSegments_append_action read apart (cutAction_comment_iff.2 inert)
      (trimsBefore_cons (by decide) _), following]
    rfl
  have joined : Node.ofSegments (parts ++ others) = .ok (nodes ++ later) := by
    rw [ofSegments_append made, done]
    rfl
  exact ⟨⟨name, nodes ++ later⟩, parse_of_readSegments lexes joined name, fun data host =>
    evaluateAll_append ⟨name, data, host⟩ data nodes later⟩

/-- A comment with quoted braces and quotes between two templates with actions leaves nothing. -/
theorem parse_comment_between_quotes :
    ∃ first second whole : Template,
      parse "card" "<p>\x7b\x7bif .title\x7d\x7d+\x7b\x7bend\x7d\x7d " = .ok first ∧
      parse "card" " \x7b\x7b.body\x7d\x7d</p>" = .ok second ∧
      parse "card" ("<p>\x7b\x7bif .title\x7d\x7d+\x7b\x7bend\x7d\x7d " ++ "\x7b\x7b/*" ++
        " not \"\\\"\x7d\x7d\" nor \x60\"\x7d\x7d\x60, \x7b\x7b or \x7d " ++ "*/\x7d\x7d" ++
        " \x7b\x7b.body\x7d\x7d</p>") = .ok whole ∧
      ∀ {σ : Type} (data : Value) (host : Host σ), whole.execute data host = (do
        let output ← first.execute data host
        let later ← second.execute data host
        pure (output ++ later)) := by
  obtain ⟨first, before⟩ : ∃ first,
    parse "card" "<p>\x7b\x7bif .title\x7d\x7d+\x7b\x7bend\x7d\x7d " = .ok first := ⟨_, by cbv⟩
  obtain ⟨second, behind⟩ : ∃ second,
    parse "card" " \x7b\x7b.body\x7d\x7d</p>" = .ok second := ⟨_, by cbv⟩
  have inert : Inert
      " not \"\\\"\x7d\x7d\" nor \x60\"\x7d\x7d\x60, \x7b\x7b or \x7d ".toList := by decide
  obtain ⟨whole, parsed, writes⟩ := parse_comment_between inert (by decide) before behind
  exact ⟨first, second, whole, before, behind, parsed, writes⟩

/-- A comment with a lone quote leaves its action open. -/
theorem parse_comment_unclosed :
    (∃ first, parse "card" "<p>" = .ok first) ∧ (∃ second, parse "card" "x</p>" = .ok second) ∧
      ¬ "*/".toList <:+: " 5\" wide ".toList ∧
      parse "card" ("<p>" ++ "\x7b\x7b/*" ++ " 5\" wide " ++ "*/\x7d\x7d" ++ "x</p>") =
        .error (.templateParse "card" .unclosedAction) :=
  ⟨⟨_, by cbv⟩, ⟨_, by cbv⟩, by decide, by cbv⟩

end Templates

end ComponentPages.Template
