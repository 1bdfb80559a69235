import ComponentPages.Proofs.Template.Comments
import ComponentPages.Proofs.Template.Printing
import Mathlib

/-!
# Chains of conditions

An `else if` stands for an `else` with a conditional of its own: a chain of conditions and the
conditionals nested in each other are both rejected or both accepted, and then they have the same
outcome (`chain_nests`). Both sources are templates linked by actions, of which no link has a mark. A
row of such links lexes link by link (`Link.readSegments_writeAll`) as long as no template in front of
an action ends with an opening brace. There the action starts a brace early, and its text has no
tokens (`Link.exists_error`); the bodies decide about that, so it happens to both sources or to
neither.
-/
namespace ComponentPages.Template

open Text Grammar

section Seams

/-- The text of an action that starts with a brace has no tokens, with or without its marks. -/
theorem exists_actionSegment_error (inner : List Char) :
    ∃ fault, actionSegment (trim (withoutMarks ('{' :: inner))) = .error fault := by
  have solid : isBlank '{' = false := by decide
  obtain ⟨others, bare⟩ : ∃ others, withoutMarks ('{' :: inner) = '{' :: others := by
    have front : trimsBefore ('{' :: inner) = false := trimsBefore_cons (by decide) inner
    rw [withoutMarks, front, if_neg Bool.false_ne_true]
    split
    · rename_i back
      cases inner with
      | nil => exact absurd back (by decide)
      | cons c inner => exact ⟨(c :: inner).dropLast, rfl⟩
    · exact ⟨inner, rfl⟩
  have started : trimStart ('{' :: others) = '{' :: others := by
    rw [trimStart, List.dropWhile_cons_of_neg (by simp [solid])]
  have trimmed : trim ('{' :: others) = '{' :: trimEnd others := by
    rw [trim, started]
    exact trimEnd_append_cons solid [] others
  have unread (action : String) (rest : List Char) :
      readToken action '{' rest = .error (.unexpectedCharacter '{' action) := by
    simp [readToken, rawQuote, show isNameChar '{' = false by decide,
      show '{'.isDigit = false by decide]
  have content : isComment ('{' :: trimEnd others) = false := by
    simp [isComment, List.isPrefixOf]
  rw [bare, trimmed, actionSegment, content, if_neg Bool.false_ne_true, tokenize, readTokens,
    if_neg (by simp [solid]), unread]
  exact ⟨_, rfl⟩

/-- An action behind a text that ends with an opening brace does not lex: it starts with that
brace. -/
theorem exists_brace_error {front : List Char} (free : ¬ ['{', '{'] <:+: front ++ ['{'])
    (trimming : Bool) (rest : List Char) :
    ∃ fault, readSegments trimming (front ++ ['{'] ++ '{' :: '{' :: rest) = .error fault := by
  have frontFree : ¬ ['{', '{'] <:+: front := fun inside =>
    free (inside.trans (List.prefix_append front ['{']).isInfix)
  have apart : front.getLast? ≠ some '{' := by
    intro last
    obtain ⟨others, rfl⟩ : ∃ others, front = others ++ ['{'] :=
      ⟨front.dropLast, (List.dropLast_append_getLast? '{' last).symm⟩
    exact free ⟨others, [], by simp⟩
  have whole : front ++ ['{'] ++ '{' :: '{' :: rest = front ++ '{' :: '{' :: ('{' :: rest) := by
    simp
  have starts : cutAction none ('{' :: rest) =
      (cutAction none rest).map fun found => ('{' :: found.1, found.2) :=
    cutAction_cons (by decide) (by decide) (by simp)
  rw [readSegments_eq, whole, cut_doubled frontFree apart]
  cases closed : cutAction none rest with
  | none =>
    simp only [starts, closed, Option.map_none]
    exact ⟨_, rfl⟩
  | some found =>
    obtain ⟨fault, unread⟩ := exists_actionSegment_error found.1
    simp only [starts, closed, Option.map_some, segmentsFrom, unread]
    exact ⟨fault, rfl⟩

/-- What ends with an opening brace behind a closing one ends with it behind the closing one. -/
theorem getLast?_of_append_brace {front behind : List Char}
    (brace : (front ++ '\x7d' :: behind).getLast? = some '{') : behind.getLast? = some '{' := by
  rw [List.getLast?_append, List.getLast?_cons] at brace
  cases last : behind.getLast? with
  | none =>
    rw [last] at brace
    exact absurd (Option.some.inj brace) (by decide)
  | some c =>
    rw [last] at brace
    exact brace

/-- An action behind a template that ends with an opening brace does not lex. -/
theorem exists_readSegments_error {source : List Char} {parts : List Segment} {trimming : Bool}
    (read : readSegments trimming source = .ok parts) (brace : source.getLast? = some '{')
    (rest : List Char) :
    ∃ fault, readSegments trimming (source ++ '{' :: '{' :: rest) = .error fault := by
  -- The recursion is on the template behind its first action, which ends with the same brace.
  cases opened : cut ['{', '{'] source with
  | none =>
    have free : ¬ ['{', '{'] <:+: source := by
      rintro ⟨before, behind, rfl⟩
      obtain ⟨found, cuts⟩ := exists_cut (List.cons_ne_nil '{' ['{']) before behind
      exact absurd (cuts.symm.trans opened) (Option.some_ne_none found)
    obtain ⟨front, rfl⟩ : ∃ front, source = front ++ ['{'] :=
      ⟨source.dropLast, (List.dropLast_append_getLast? '{' brace).symm⟩
    exact exists_brace_error free trimming rest
  | some found =>
    obtain ⟨before, started⟩ := found
    rw [readSegments_eq] at read ⊢
    rw [opened] at read
    rw [cut_append_right (List.cons_ne_nil _ _) opened]
    cases ended : cutAction none started with
    | none =>
      simp only [ended] at read
      cases read
    | some found =>
      obtain ⟨inner, behind⟩ := found
      simp only [ended] at read
      simp only [cutAction_append ended]
      obtain ⟨_, later, -⟩ := exists_of_map_ok read
      obtain ⟨here, said, others, next, -⟩ := exists_of_segmentsFrom later
      have whole : source =
          (before ++ '{' :: '{' :: (inner ++ ['\x7d'])) ++ '\x7d' :: behind := by
        rw [eq_append_of_cut opened, eq_append_of_cutAction ended]
        simp
      have last : behind.getLast? = some '{' := getLast?_of_append_brace (whole ▸ brace)
      obtain ⟨fault, unread⟩ := exists_readSegments_error next last rest
      rw [segmentsFrom, said, unread]
      exact ⟨fault, rfl⟩
termination_by source.length
decreasing_by
  rw [eq_append_of_cut opened, eq_append_of_cutAction ended]
  simp only [List.length_append, List.length_cons]
  omega

end Seams

/-- An action without marks, and a template behind it. -/
structure Link where
  action : List Char
  body : List Char
  /-- The tokens of the action. -/
  tokens : List Token
  /-- The segments of the template. -/
  parts : List Segment
  spells : tokenize action = .ok tokens
  some_token : tokens ≠ []
  reads : readSegments false body = .ok parts

namespace Link

/-- The source of a link. -/
def write (link : Link) : List Char :=
  '{' :: '{' :: (link.action ++ '\x7d' :: '\x7d' :: link.body)

/-- The source of links. -/
def writeAll (links : List Link) : List Char := links.flatMap write

/-- The segments of a link. -/
def segments (link : Link) : List Segment := .action link.tokens :: link.parts

/-- No template in front of a link ends with an opening brace. -/
def Separate : List Char → List Link → Prop
  | _, [] => True
  | text, link :: links => text.getLast? ≠ some '{' ∧ Separate link.body links

variable {source : List Char} {parts : List Segment}

/-- Behind a template that does not end with an opening brace, a link lexes as its action and what
its template starts. -/
theorem readSegments_append (link : Link) (read : readSegments false source = .ok parts)
    (apart : source.getLast? ≠ some '{') (rest : List Char) :
    readSegments false (source ++ (link.write ++ rest)) =
      (readSegments false (link.body ++ rest)).map fun others =>
        parts ++ .action link.tokens :: others := by
  have body : Body link.action := Body.of_tokenize link.spells link.some_token
  have unmarked : marked false false link.action = link.action := by simp [marked]
  have closed : cutAction none (link.action ++ '\x7d' :: '\x7d' :: (link.body ++ rest)) =
      some (link.action, link.body ++ rest) := by
    have cuts := body.cutAction_marked false false (link.body ++ rest)
    rwa [unmarked] at cuts
  have fronted : trimsBefore link.action = false := by
    have front := body.trimsBefore_marked false false
    rwa [unmarked] at front
  have following : segmentsFrom link.action (link.body ++ rest) =
      (readSegments false (link.body ++ rest)).map (.action link.tokens :: ·) := by
    have here := body.segmentsFrom_marked false false (link.body ++ rest)
    rw [unmarked, actionSegment_of_tokenize link.spells] at here
    rw [here]
    cases readSegments false (link.body ++ rest) with
    | error fault => rfl
    | ok others => rfl
  have written : source ++ (link.write ++ rest) =
      source ++ '{' :: '{' :: (link.action ++ '\x7d' :: '\x7d' :: (link.body ++ rest)) := by
    simp [write]
  rw [written, readSegments_append_action read apart closed fronted, following]
  cases readSegments false (link.body ++ rest) with
  | error fault => rfl
  | ok others => rfl

/-- Links behind a template lex one by one, if no template in front of one ends with an opening
brace. -/
theorem readSegments_writeAll {links : List Link} (read : readSegments false source = .ok parts)
    (separate : Separate source links) :
    readSegments false (source ++ writeAll links) = .ok (parts ++ links.flatMap segments) := by
  induction links generalizing source parts with
  | nil =>
    have nothing : source ++ writeAll [] = source := List.append_nil source
    rw [nothing, read, List.flatMap_nil, List.append_nil]
  | cons link links ih =>
    obtain ⟨apart, later⟩ := separate
    have others : readSegments false (link.body ++ writeAll links) =
        .ok (link.parts ++ links.flatMap segments) := ih link.reads later
    have first : writeAll (link :: links) = link.write ++ writeAll links := rfl
    rw [first, link.readSegments_append read apart, others]
    rfl

/-- Links behind a template do not lex if a template in front of one ends with an opening brace. -/
theorem exists_writeAll_error {links : List Link} (read : readSegments false source = .ok parts)
    (joined : ¬ Separate source links) :
    ∃ fault, readSegments false (source ++ writeAll links) = .error fault := by
  induction links generalizing source parts with
  | nil => exact absurd trivial joined
  | cons link links ih =>
    have first : writeAll (link :: links) = link.write ++ writeAll links := rfl
    by_cases brace : source.getLast? = some '{'
    · exact exists_readSegments_error read brace _
    · have later : ¬ Separate link.body links := fun separate => joined ⟨brace, separate⟩
      obtain ⟨fault, unread⟩ := ih link.reads later
      rw [first, link.readSegments_append read brace, unread]
      exact ⟨fault, rfl⟩

end Link

/-- A condition and the template that stands where it is the first that holds. -/
structure Choice where
  condition : String
  body : String

/-- The text is that of a pipeline. -/
def IsPipeline (text : String) : Prop :=
  ∃ tokens pipeline, tokenize text.toList = .ok tokens ∧ Pipeline.ofTokens tokens = .ok pipeline

section Sources

variable (first : Choice) (others : List Choice) (otherwise : String)

/-- The source of conditions, where each but the first stands behind the given text, of what stands
where none of them holds, and of so many ends. -/
def conditionsSource (further : String) (ends : Nat) : String :=
  "\x7b\x7bif " ++ first.condition ++ "\x7d\x7d" ++ first.body ++
    String.join (others.map fun choice => further ++ choice.condition ++ "\x7d\x7d" ++ choice.body) ++
    "\x7b\x7belse\x7d\x7d" ++ otherwise ++ String.join (List.replicate ends "\x7b\x7bend\x7d\x7d")

/-- The source of one conditional with further conditions. -/
def chainedSource : String := conditionsSource first others otherwise "\x7b\x7belse if " 1

/-- The source of a conditional for each condition, each in the last part of the one before. -/
def nestedSource : String :=
  conditionsSource first others otherwise "\x7b\x7belse\x7d\x7d\x7b\x7bif " (others.length + 1)

end Sources

/-- A choice with the derivations of its two sides. -/
structure DerivedChoice extends Choice where
  chain : Chain
  items : List Item
  spells : tokenize condition.toList = .ok chain.tokens
  reads : readSegments false body.toList = .ok (Item.segmentsAll items)

section Derivations

/-- The text of a pipeline has the tokens of a derivation. -/
theorem IsPipeline.exists_chain {text : String} (isPipeline : IsPipeline text) :
    ∃ chain : Chain, tokenize text.toList = .ok chain.tokens := by
  obtain ⟨tokens, pipeline, read, made⟩ := isPipeline
  obtain ⟨chain, rfl, -⟩ := Pipeline.ofTokens_eq_ok_iff.1 made
  exact ⟨chain, read⟩

/-- A template that parses has the segments of a derivation. -/
theorem exists_items_of_parse {name source : String}
    (parses : ∃ template, parse name source = .ok template) :
    ∃ items, readSegments false source.toList = .ok (Item.segmentsAll items) := by
  obtain ⟨template, parsed⟩ := parses
  obtain ⟨parts, nodes, read, made, -⟩ := exists_of_parse_ok parsed
  obtain ⟨items, rfl, -⟩ := Node.ofSegments_eq_ok_iff.1 made
  exact ⟨items, read⟩

/-- A choice of a pipeline and a template that parses has derivations. -/
theorem exists_derivedChoice {choice : Choice} {name : String}
    (condition : IsPipeline choice.condition)
    (body : ∃ template, parse name choice.body = .ok template) :
    ∃ derived : DerivedChoice, derived.toChoice = choice := by
  obtain ⟨chain, spells⟩ := condition.exists_chain
  obtain ⟨items, reads⟩ := exists_items_of_parse body
  exact ⟨⟨choice, chain, items, spells, reads⟩, rfl⟩

end Derivations

section Links

/-- Words, each with a space behind it, and a text. -/
def spaced (words : List String) (text : List Char) : List Char :=
  words.foldr (fun word rest => word.toList ++ ' ' :: rest) text

/-- Words in front of a text are tokens in front of those of the text. -/
theorem tokenize_spaced {words : List String} (listed : ∀ word ∈ words, word ∈ keywords)
    {text : List Char} {tokens : List Token} (read : tokenize text = .ok tokens) :
    tokenize (spaced words text) = .ok (words.map .word ++ tokens) := by
  have reads : Reads (spaced words text) (words.map .word ++ tokens) := by
    induction words with
    | nil => exact reads_of_tokenize read
    | cons word words ih =>
      obtain ⟨here, later⟩ := List.forall_mem_cons.1 listed
      have written : Reads word.toList [.word word] :=
        reads_word (isWordName_of_mem (List.mem_append_left _ here))
      exact written.append (unjoined_cons (by decide) _) ((ih later).blank_cons (by decide))
  exact reads.tokenize_eq

/-- The link of an action with words and the condition of a choice, and of its template. -/
def DerivedChoice.link (choice : DerivedChoice) (words : List String)
    (listed : ∀ word ∈ words, word ∈ keywords) : Link where
  action := spaced words choice.condition.toList
  body := choice.body.toList
  tokens := words.map .word ++ choice.chain.tokens
  parts := Item.segmentsAll choice.items
  spells := tokenize_spaced listed choice.spells
  some_token := by simp [choice.chain.tokens_ne_nil]
  reads := choice.reads

/-- The link of an action with a single word and of a template. -/
def wordLink (word : String) (listed : word ∈ keywords) (body : List Char) (parts : List Segment)
    (reads : readSegments false body = .ok parts) : Link where
  action := word.toList
  body := body
  tokens := [.word word]
  parts := parts
  spells := (reads_word (isWordName_of_mem (List.mem_append_left _ listed))).tokenize_eq
  some_token := List.cons_ne_nil _ _
  reads := reads

/-- The empty template has no segments. -/
theorem readSegments_nil : readSegments false [] = .ok [] := by
  rw [readSegments_eq]
  rfl

/-- The link of the end of a block. -/
def endLink : Link := wordLink "end" (by decide) [] [] readSegments_nil

/-- The link of the start of the last part of a block, with nothing behind it. -/
def elseLink : Link := wordLink "else" (by decide) [] [] readSegments_nil

namespace DerivedChoice

variable (choice : DerivedChoice)

/-- The link of a first condition. -/
def ifLink : Link := choice.link ["if"] (by decide)

/-- The link of a further condition of a chain. -/
def chainedLinks : List Link := [choice.link ["else", "if"] (by decide)]

/-- The links of a further condition of conditionals in each other. -/
def nestedLinks : List Link := [elseLink, choice.ifLink]

end DerivedChoice

variable (first : DerivedChoice) (others : List DerivedChoice) {otherwise : List Char}
  {items : List Item} (reads : readSegments false otherwise = .ok (Item.segmentsAll items))
  (further : DerivedChoice → List Link)

/-- The links of conditions, of what stands where none of them holds, and of so many ends. -/
def conditionsLinks (ends : Nat) : List Link :=
  first.ifLink :: (others.flatMap further ++
    (wordLink "else" (by decide) otherwise (Item.segmentsAll items) reads ::
      List.replicate ends endLink))

section Segments

variable (choice : DerivedChoice) {words : List String}

/-- The segments of a link of a condition start with the action that opens a block or a branch. -/
theorem DerivedChoice.segments_link (listed : ∀ word ∈ words, word ∈ keywords) :
    (choice.link words listed).segments =
      opening words choice.chain :: Item.segmentsAll choice.items := rfl

/-- The segments of a link of a last part start with the action in front of it. -/
theorem segments_wordLink_else :
    (wordLink "else" (by decide) otherwise (Item.segmentsAll items) reads).segments =
      otherwiseAction :: Item.segmentsAll items := rfl

/-- The segment of a link with nothing behind it is its action. -/
theorem segments_bareLinks :
    elseLink.segments = [otherwiseAction] ∧ endLink.segments = [endAction []] := ⟨rfl, rfl⟩

end Segments

/-- The links of conditions are written as their source. -/
theorem writeAll_conditionsLinks {text : String}
    (writes : ∀ choice : DerivedChoice, Link.writeAll (further choice) =
      text.toList ++ choice.condition.toList ++ '\x7d' :: '\x7d' :: choice.body.toList) (ends : Nat) :
    Link.writeAll (conditionsLinks first others reads further ends) =
      (conditionsSource first.toChoice (others.map (·.toChoice)) (String.ofList otherwise) text
        ends).toList := by
  have between : Link.writeAll (others.flatMap further) =
      (String.join (others.map fun choice =>
        text ++ choice.condition ++ "\x7d\x7d" ++ choice.body)).toList := by
    induction others with
    | nil => rfl
    | cons choice others ih =>
      have parts : Link.writeAll ((choice :: others).flatMap further) =
          Link.writeAll (further choice) ++ Link.writeAll (others.flatMap further) := by
        simp [Link.writeAll]
      rw [parts, ih, writes]
      simp
  have closing : Link.writeAll (List.replicate ends endLink) =
      (String.join (List.replicate ends "\x7b\x7bend\x7d\x7d")).toList := by
    induction ends with
    | zero => rfl
    | succ ends ih =>
      have parts : Link.writeAll (List.replicate (ends + 1) endLink) =
          endLink.write ++ Link.writeAll (List.replicate ends endLink) := rfl
      rw [parts, ih, List.replicate_succ]
      simp [endLink, wordLink, Link.write]
  have parts : Link.writeAll (conditionsLinks first others reads further ends) =
      first.ifLink.write ++ (Link.writeAll (others.flatMap further) ++
        ((wordLink "else" (by decide) otherwise (Item.segmentsAll items) reads).write ++
          Link.writeAll (List.replicate ends endLink))) := by
    simp [Link.writeAll, conditionsLinks]
  rw [parts, between, closing]
  simp [conditionsSource, DerivedChoice.ifLink, DerivedChoice.link, spaced, wordLink, Link.write,
    Function.comp_def]

/-- The templates of a conditional do not end with an opening brace. -/
def Braceless (first : Choice) (others : List Choice) (otherwise : String) : Prop :=
  otherwise.toList.getLast? ≠ some '{' ∧
    ∀ choice ∈ first :: others, choice.body.toList.getLast? ≠ some '{'

instance (first : Choice) (others : List Choice) (otherwise : String) :
    Decidable (Braceless first others otherwise) := inferInstanceAs (Decidable (_ ∧ _))

/-- The ends of blocks have nothing behind them that ends with a brace. -/
theorem separate_ends (ends : Nat) : Link.Separate [] (List.replicate ends endLink) := by
  induction ends with
  | zero => trivial
  | succ ends ih => exact ⟨nofun, ih⟩

/-- The links of conditions are separate just where their templates do not end with a brace. -/
theorem separate_conditionsLinks
    (passes : ∀ (choice : DerivedChoice) (text : List Char) (links : List Link),
      Link.Separate text (further choice ++ links) ↔
        text.getLast? ≠ some '{' ∧ Link.Separate choice.body.toList links) (ends : Nat) :
    Link.Separate [] (conditionsLinks first others reads further (ends + 1)) ↔
      Braceless first.toChoice (others.map (·.toChoice)) (String.ofList otherwise) := by
  have behind (text : List Char) : Link.Separate text (others.flatMap further ++
      (wordLink "else" (by decide) otherwise (Item.segmentsAll items) reads ::
        List.replicate (ends + 1) endLink)) ↔
      text.getLast? ≠ some '{' ∧
        (∀ choice ∈ others, choice.body.toList.getLast? ≠ some '{') ∧
        otherwise.getLast? ≠ some '{' := by
    -- What stands in front of the next action is a parameter: it is the body of the choice before.
    induction others generalizing text with
    | nil =>
      constructor
      · rintro ⟨apart, last, -⟩
        exact ⟨apart, nofun, last⟩
      · rintro ⟨apart, -, last⟩
        exact ⟨apart, last, separate_ends ends⟩
    | cons choice others ih =>
      have parts : (choice :: others).flatMap further = further choice ++ others.flatMap further :=
        List.flatMap_cons
      rw [parts, List.append_assoc, passes, ih, List.forall_mem_cons, and_assoc]
  have nothing : ([] : List Char).getLast? ≠ some '{' := nofun
  have starts : Link.Separate [] (conditionsLinks first others reads further (ends + 1)) ↔
      Link.Separate first.body.toList (others.flatMap further ++
        (wordLink "else" (by decide) otherwise (Item.segmentsAll items) reads ::
          List.replicate (ends + 1) endLink)) := and_iff_right nothing
  rw [starts, behind, Braceless, List.forall_mem_cons, List.forall_mem_map, String.toList_ofList]
  tauto

section Spellings

/-- The links of a chain are written as its source. -/
theorem writeAll_chained :
    Link.writeAll (conditionsLinks first others reads DerivedChoice.chainedLinks 1) =
      (chainedSource first.toChoice (others.map (·.toChoice)) (String.ofList otherwise)).toList := by
  refine writeAll_conditionsLinks first others reads _ (fun choice => ?_) 1
  simp [DerivedChoice.chainedLinks, DerivedChoice.link, Link.writeAll, Link.write, spaced]

/-- The links of conditionals in each other are written as their source. -/
theorem writeAll_nested :
    Link.writeAll (conditionsLinks first others reads DerivedChoice.nestedLinks
      (others.length + 1)) =
      (nestedSource first.toChoice (others.map (·.toChoice)) (String.ofList otherwise)).toList := by
  rw [nestedSource, List.length_map]
  refine writeAll_conditionsLinks first others reads _ (fun choice => ?_) (others.length + 1)
  simp [DerivedChoice.nestedLinks, DerivedChoice.ifLink, DerivedChoice.link, elseLink, wordLink,
    Link.writeAll, Link.write, spaced]

/-- The links of a chain are separate just where its templates do not end with a brace. -/
theorem separate_chained :
    Link.Separate [] (conditionsLinks first others reads DerivedChoice.chainedLinks 1) ↔
      Braceless first.toChoice (others.map (·.toChoice)) (String.ofList otherwise) :=
  separate_conditionsLinks first others reads _ (fun _ _ _ => Iff.rfl) 0

/-- The same holds of the links of conditionals in each other: an `else` has nothing behind it. -/
theorem separate_nested :
    Link.Separate [] (conditionsLinks first others reads DerivedChoice.nestedLinks
      (others.length + 1)) ↔
      Braceless first.toChoice (others.map (·.toChoice)) (String.ofList otherwise) := by
  have nothing : ([] : List Char).getLast? ≠ some '{' := nofun
  exact separate_conditionsLinks first others reads DerivedChoice.nestedLinks
    (fun _ _ _ => and_congr_right fun _ => and_iff_right nothing) others.length

end Spellings

/-- The derivation of one conditional with further conditions. -/
def chainedItem (items : List Item) : Item :=
  .conditional first.chain first.items (others.map fun choice => .of choice.chain choice.items)
    (.present items) []

/-- The derivation of a conditional for each condition, each in the last part of the one before. -/
def nestedItem : DerivedChoice → List DerivedChoice → List Item → Item
  | first, [], items => .conditional first.chain first.items [] (.present items) []
  | first, next :: others, items =>
    .conditional first.chain first.items [] (.present [nestedItem next others items]) []

/-- The links of a chain have the segments of one conditional. -/
theorem segments_chained :
    (conditionsLinks first others reads DerivedChoice.chainedLinks 1).flatMap Link.segments =
      Item.segmentsAll [chainedItem first others items] := by
  have arms : (others.flatMap DerivedChoice.chainedLinks).flatMap Link.segments =
      Arm.segmentsAll (others.map fun choice => .of choice.chain choice.items) := by
    induction others with
    | nil => rfl
    | cons choice others ih =>
      have here : choice.chainedLinks.flatMap Link.segments =
          opening ["else", "if"] choice.chain :: Item.segmentsAll choice.items := by
        simp [DerivedChoice.chainedLinks, DerivedChoice.segments_link]
      rw [List.flatMap_cons, List.flatMap_append, ih, here]
      rfl
  simp only [conditionsLinks, List.flatMap_cons, List.flatMap_append, arms, DerivedChoice.ifLink,
    DerivedChoice.segments_link, segments_wordLink_else, List.replicate_one, List.flatMap_nil,
    segments_bareLinks.2]
  simp [chainedItem, Item.segmentsAll, Item.segments, Otherwise.segments]

/-- The links of conditionals in each other have the segments of such conditionals. -/
theorem segments_nested :
    (conditionsLinks first others reads DerivedChoice.nestedLinks (others.length + 1)).flatMap
      Link.segments = Item.segmentsAll [nestedItem first others items] := by
  induction others generalizing first with
  | nil =>
    simp only [conditionsLinks, List.flatMap_cons, List.flatMap_append, List.flatMap_nil,
      DerivedChoice.ifLink, DerivedChoice.segments_link, segments_wordLink_else]
    simp [nestedItem, Item.segmentsAll, Item.segments, Otherwise.segments, Arm.segmentsAll,
      segments_bareLinks.2]
  | cons next others ih =>
    have ends : List.replicate (others.length + 1 + 1) endLink =
        List.replicate (others.length + 1) endLink ++ [endLink] := List.replicate_succ'
    have parts : conditionsLinks first (next :: others) reads DerivedChoice.nestedLinks
        (others.length + 1 + 1) = first.ifLink :: elseLink ::
          (conditionsLinks next others reads DerivedChoice.nestedLinks (others.length + 1) ++
            [endLink]) := by
      rw [conditionsLinks, conditionsLinks, ends]
      simp [DerivedChoice.nestedLinks]
    rw [List.length_cons, parts, List.flatMap_cons, List.flatMap_cons, List.flatMap_append, ih,
      List.flatMap_singleton, segments_bareLinks.1, segments_bareLinks.2, DerivedChoice.ifLink,
      DerivedChoice.segments_link]
    simp [nestedItem, Item.segmentsAll, Item.segments, Otherwise.segments, Arm.segmentsAll]

end Links

section Evaluation

/-- A conditional for each branch, each in the last part of the one before. -/
def Node.nested : Branch → List Branch → List Node → Node
  | first, [], otherwise => .conditional first [] otherwise
  | first, next :: others, otherwise => .conditional first [] [Node.nested next others otherwise]

variable {σ : Type} (setting : Setting σ) (dot : Value)

/-- A conditional evaluates its first condition, and where that does not hold what the conditional
without it evaluates. -/
theorem Node.evaluate_conditional_cons (condition : Pipeline) (body : List Node) (next : Branch)
    (others : List Branch) (otherwise : List Node) :
    (Node.conditional (.of condition body) (next :: others) otherwise).evaluate setting dot = (do
      let value ← condition.evaluate setting dot
      if value.isTruthy then Node.evaluateAll setting dot body
      else (Node.conditional next others otherwise).evaluate setting dot) := by
  obtain ⟨guard, taken⟩ := next
  rw [Node.evaluate, Node.evaluate]
  refine bind_congr fun value => ?_
  split
  · rfl
  · rw [Branch.evaluateFirst, bind_assoc]
    refine bind_congr fun value => ?_
    split
    · simp only [bind_assoc, pure_bind, bind_pure]
    · rfl

/-- Conditionals in each other evaluate what the conditional with all of their branches does. -/
theorem Node.evaluate_nested (first : Branch) (others : List Branch) (otherwise : List Node) :
    (Node.nested first others otherwise).evaluate setting dot =
      (Node.conditional first others otherwise).evaluate setting dot := by
  induction others generalizing first with
  | nil => rfl
  | cons next others ih =>
    obtain ⟨condition, body⟩ := first
    have last : Node.evaluateAll setting dot [Node.nested next others otherwise] =
        (Node.conditional next others otherwise).evaluate setting dot := by
      rw [Node.evaluateAll, ih next]
      simp only [Node.evaluateAll, pure_bind, String.append_empty, bind_pure]
    rw [Node.evaluate_conditional_cons, Node.nested, Node.evaluate]
    refine bind_congr fun value => ?_
    split
    · rfl
    · rw [Branch.evaluateFirst, pure_bind, last]

/-- The derivation of conditionals in each other describes such conditionals. -/
theorem node_nestedItem (first : DerivedChoice) (others : List DerivedChoice) (items : List Item) :
    (nestedItem first others items).node =
      Node.nested (.of first.chain.tree (Item.nodeAll first.items))
        (Arm.treeAll (others.map fun choice => .of choice.chain choice.items))
        (Item.nodeAll items) := by
  induction others generalizing first with
  | nil => rfl
  | cons next others ih =>
    rw [nestedItem, Item.node, Otherwise.nodes, Item.nodeAll, ih]
    rfl

end Evaluation

section Parsing

variable {first : Choice} {others : List Choice} {otherwise name : String}

/-- A list of choices of pipelines and templates that parse has derivations. -/
theorem exists_derivedChoices {choices : List Choice}
    (conditions : ∀ choice ∈ choices, IsPipeline choice.condition)
    (bodies : ∀ choice ∈ choices, ∃ template, parse name choice.body = .ok template) :
    ∃ derived : List DerivedChoice, derived.map (·.toChoice) = choices := by
  induction choices with
  | nil => exact ⟨[], rfl⟩
  | cons choice choices ih =>
    obtain ⟨condition, laterConditions⟩ := List.forall_mem_cons.1 conditions
    obtain ⟨body, laterBodies⟩ := List.forall_mem_cons.1 bodies
    obtain ⟨here, same⟩ := exists_derivedChoice condition body
    obtain ⟨later, others⟩ := ih laterConditions laterBodies
    exact ⟨here :: later, by rw [List.map_cons, same, others]⟩

/-- A template whose links are not separate is rejected. -/
theorem exists_parse_error {source : String} {links : List Link}
    (written : Link.writeAll links = source.toList) (joined : ¬ Link.Separate [] links) :
    ∃ failure, parse name source = .error failure := by
  obtain ⟨fault, unread⟩ := Link.exists_writeAll_error readSegments_nil joined
  rw [List.nil_append, written] at unread
  rw [parse_eq, nodesOf, Template.segments, unread]
  exact ⟨_, rfl⟩

/-- A template whose links are separate and have the segments of a derivation has the nodes that the
derivation describes. -/
theorem parse_of_writeAll (name : String) {source : String} {links : List Link} {items : List Item}
    (written : Link.writeAll links = source.toList) (separate : Link.Separate [] links)
    (derived : links.flatMap Link.segments = Item.segmentsAll items) :
    parse name source = .ok ⟨name, Item.nodeAll items⟩ := by
  have read := Link.readSegments_writeAll readSegments_nil separate
  rw [List.nil_append, List.nil_append, written, derived] at read
  exact parse_of_readSegments read (Item.ofSegments_segmentsAll items) name

/-- A chain of conditions and conditionals in each other are both accepted, and then evaluate the
same, or both rejected: accepted just where no template in front of an action ends with an opening
brace. -/
theorem chain_nests (conditions : ∀ choice ∈ first :: others, IsPipeline choice.condition)
    (bodies : ∀ choice ∈ first :: others, ∃ template, parse name choice.body = .ok template)
    (last : ∃ template, parse name otherwise = .ok template) :
    (Braceless first others otherwise → ∃ chained nested : Template,
      parse name (chainedSource first others otherwise) = .ok chained ∧
      parse name (nestedSource first others otherwise) = .ok nested ∧
      ∀ {σ : Type} (data : Value) (host : Host σ),
        chained.execute data host = nested.execute data host) ∧
    (¬ Braceless first others otherwise →
      (∃ failure, parse name (chainedSource first others otherwise) = .error failure) ∧
        ∃ failure, parse name (nestedSource first others otherwise) = .error failure) := by
  obtain ⟨condition, laterConditions⟩ := List.forall_mem_cons.1 conditions
  obtain ⟨body, laterBodies⟩ := List.forall_mem_cons.1 bodies
  obtain ⟨first, rfl⟩ := exists_derivedChoice condition body
  obtain ⟨others, rfl⟩ := exists_derivedChoices laterConditions laterBodies
  obtain ⟨items, reads⟩ := exists_items_of_parse last
  have chainedWritten := writeAll_chained first others reads
  have nestedWritten := writeAll_nested first others reads
  have chainedSeparate := separate_chained first others reads
  have nestedSeparate := separate_nested first others reads
  rw [String.ofList_toList] at chainedWritten nestedWritten chainedSeparate nestedSeparate
  constructor
  · intro braceless
    have chainedParses := parse_of_writeAll name chainedWritten
      (chainedSeparate.2 braceless) (segments_chained first others reads)
    have nestedParses := parse_of_writeAll name nestedWritten
      (nestedSeparate.2 braceless) (segments_nested first others reads)
    refine ⟨_, _, chainedParses, nestedParses, fun data host => ?_⟩
    have same : (chainedItem first others items).node.evaluate ⟨name, data, host⟩ data =
        (nestedItem first others items).node.evaluate ⟨name, data, host⟩ data := by
      rw [node_nestedItem, Node.evaluate_nested]
      rfl
    simp only [execute, Item.nodeAll, Node.evaluateAll, same]
  · intro braced
    exact ⟨exists_parse_error chainedWritten (mt chainedSeparate.1 braced),
      exists_parse_error nestedWritten (mt nestedSeparate.1 braced)⟩

/-- What a note says of its first step. -/
def stepChoice : Choice := ⟨"eq .step \"\x7d\x7d\"", "\x7b\x7b- .step -\x7d\x7d "⟩

/-- What it says of other steps: blocks, and marks beside the seams. -/
def laterChoices : List Choice :=
  [⟨".steps | len",
    " \x7b\x7b- range .steps\x7d\x7d\x7b\x7b.\x7d\x7d \x7b\x7bend -\x7d\x7d"⟩,
    ⟨"not .done", "\x7b\x7bif .next -\x7d\x7d > \x7b\x7belse\x7d\x7d.\x7b\x7bend\x7d\x7d\x7d"⟩]

/-- The note is the same with a chain and with conditionals in each other. -/
theorem chain_nests_steps :
    ∃ chained nested : Template,
      parse "steps" (chainedSource stepChoice laterChoices " \x7b\x7b- /* none */ -\x7d\x7d ") =
        .ok chained ∧
      parse "steps" (nestedSource stepChoice laterChoices " \x7b\x7b- /* none */ -\x7d\x7d ") =
        .ok nested ∧
      chained.execute (.map [("steps", .list [.int 1, .int 2])]) (Host.none : Host Unit) =
        nested.execute (.map [("steps", .list [.int 1, .int 2])]) Host.none := by
  have conditions : ∀ choice ∈ stepChoice :: laterChoices, IsPipeline choice.condition := by
    simp only [laterChoices, List.forall_mem_cons]
    exact ⟨⟨_, _, by cbv, by cbv⟩, ⟨_, _, by cbv, by cbv⟩, ⟨_, _, by cbv, by cbv⟩,
      List.forall_mem_nil _⟩
  have bodies : ∀ choice ∈ stepChoice :: laterChoices,
      ∃ template, parse "steps" choice.body = .ok template := by
    simp only [laterChoices, List.forall_mem_cons]
    exact ⟨⟨_, by cbv⟩, ⟨_, by cbv⟩, ⟨_, by cbv⟩, List.forall_mem_nil _⟩
  obtain ⟨accepted, -⟩ := chain_nests conditions bodies
    ⟨_, show parse "steps" " \x7b\x7b- /* none */ -\x7d\x7d " = .ok _ by cbv⟩
  obtain ⟨chained, nested, chains, nests, same⟩ := accepted (by decide)
  exact ⟨chained, nested, chains, nests, same _ _⟩

end Parsing

end ComponentPages.Template
