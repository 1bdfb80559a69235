import ComponentPages.Proofs.Template.Affixes
import ComponentPages.Proofs.Template.Writing
import Mathlib

/-!
# Texts that have tokens

What it tells of a text that it has tokens, besides the tokens. A token is read off a stretch of
the text that the search for the end of an action passes (`exists_of_readToken`), and is read again
whatever follows that does not go on with it (`readToken_append`). So the tokens of texts put
together are those of each (`readTokens_append`), blanks around a text make no difference
(`tokenize_trim`), and an action with such a text ends right behind it, has no mark to trim and is
no comment (`Body`, `Body.of_tokenize`).
-/
namespace ComponentPages.Template

open Text

/-- A character that can go on with a name or a path. -/
def isPathChar (c : Char) : Bool := isNameChar c || c == '.'

/-- No token goes on at the front of the text. -/
def Unjoined (rest : List Char) : Prop := ∀ c ∈ rest.head?, isPathChar c = false

section Characters

variable {c : Char}

/-- The characters of names and paths are characters of tokens, and no dashes. -/
theorem isTokenChar_of_isPathChar (joins : isPathChar c = true) :
    isTokenChar c = true ∧ c ≠ '-' := by
  constructor
  · rcases Bool.or_eq_true_iff.1 joins with named | point
    · simp [isTokenChar, named]
    · simp [isTokenChar, eq_of_beq point]
  · rintro rfl
    exact absurd joins (by decide)

/-- A character of a number goes on with a name or a path. -/
theorem isPathChar_of_numeric (numeric : (c.isDigit || c == '.') = true) :
    isPathChar c = true := by
  rcases Bool.or_eq_true_iff.1 numeric with digit | point
  · rw [isPathChar, isNameChar_of_isDigit digit, Bool.true_or]
  · rw [isPathChar, point, Bool.or_true]

/-- A blank goes on with no token. -/
theorem isPathChar_of_isBlank (blank : isBlank c = true) : isPathChar c = false := by
  refine Bool.eq_false_iff.2 fun joins => ?_
  have filled := isBlank_of_isTokenChar (isTokenChar_of_isPathChar joins).1
  rw [blank] at filled
  cases filled

/-- A blank neither closes an action nor quotes. -/
theorem ne_of_isBlank (blank : isBlank c = true) :
    c ≠ '\x7d' ∧ c ≠ '"' ∧ c ≠ rawQuote := by
  refine ⟨?_, ?_, ?_⟩ <;> (rintro rfl; exact absurd blank (by decide))

end Characters

section Seams

variable {rest more : List Char}

/-- Nothing goes on with no token. -/
theorem unjoined_nil : Unjoined [] := by
  intro c member
  cases member

/-- A text goes on with no token if its first character does not. -/
theorem unjoined_cons {c : Char} (apart : isPathChar c = false) (rest : List Char) :
    Unjoined (c :: rest) := by
  intro first member
  obtain rfl := Option.some.inj member
  exact apart

/-- Blanks go on with no token. -/
theorem unjoined_of_isBlank (blank : ∀ c ∈ rest, isBlank c = true) : Unjoined rest :=
  fun c member => isPathChar_of_isBlank (blank c (List.mem_of_head? member))

/-- Only characters of names and paths can be cut off across a seam. -/
theorem cutFront_append_unjoined {test : Char → Bool} (text : List Char) (apart : Unjoined more)
    (joins : ∀ c, test c = true → isPathChar c = true) :
    (text ++ more).takeWhile test = text.takeWhile test ∧
      (text ++ more).dropWhile test = text.dropWhile test ++ more := by
  induction text with
  | nil =>
    have stops : ∀ c ∈ more.head?, test c = false := by
      intro c member
      refine Bool.eq_false_iff.2 fun found => ?_
      have wrong := joins c found
      rw [apart c member] at wrong
      cases wrong
    have cuts : cutFront test ([] ++ more) = ([], more) := cutFront_append nofun stops
    exact Prod.mk.inj cuts
  | cons c text ih =>
    by_cases found : test c = true
    · simp [found, ih]
    · simp [found]

/-- The first digit of a text is not one behind a seam. -/
theorem startsWithDigit_append (text : List Char) (apart : Unjoined more) :
    startsWithDigit (text ++ more) = startsWithDigit text := by
  cases text with
  | cons c text => rfl
  | nil =>
    cases more with
    | nil => rfl
    | cons c more =>
      show c.isDigit = false
      refine Bool.eq_false_iff.2 fun digit => ?_
      have joins : isPathChar c = true := isPathChar_of_numeric (by rw [digit, Bool.true_or])
      rw [apart c rfl] at joins
      cases joins

/-- A path ends where it does if what follows does not go on with it. -/
theorem readPath_append (text : List Char) (apart : Unjoined more) :
    readPath (text ++ more) = ((readPath text).1, (readPath text).2 ++ more) := by
  have joins (c : Char) (named : isNameChar c = true) : isPathChar c = true := by
    rw [isPathChar, named, Bool.true_or]
  fun_induction readPath text with
  | case1 c rest named path after found ih =>
    obtain ⟨taken, dropped⟩ := cutFront_append_unjoined rest apart joins
    rw [List.cons_append, List.cons_append, readPath, if_pos named, taken, dropped, ih, found]
  | case2 c rest unnamed =>
    rw [List.cons_append, List.cons_append, readPath, if_neg unnamed]
  | case3 text undotted =>
    by_cases dot : text = ['.']
    · -- The point is the last character, and no name follows it.
      subst dot
      cases more with
      | nil => exact readPath.eq_2 _ undotted
      | cons c more =>
        have unnamed : ¬ isNameChar c = true := fun named =>
          absurd (joins c named) (by rw [apart c rfl]; decide)
        rw [List.cons_append, List.nil_append, readPath, if_neg unnamed]
    · refine readPath.eq_2 _ fun c others same => ?_
      rcases text with _ | ⟨first, _ | ⟨next, text⟩⟩
      · obtain rfl : more = '.' :: c :: others := same
        exact absurd (apart '.' rfl) (by decide)
      · exact dot (by rw [(List.cons.inj same).1])
      · exact undotted next text (by rw [(List.cons.inj same).1])

/-- A path after a dot ends where it does if what follows does not go on with it. -/
theorem readField_append (text : List Char) (apart : Unjoined more) :
    readField (text ++ more) = ((readField text).1, (readField text).2 ++ more) := by
  cases text with
  | nil =>
    cases more with
    | nil => rfl
    | cons c more =>
      have unnamed : isNameChar c = false := (Bool.or_eq_false_iff.1 (apart c rfl)).1
      have nothing : readPath [] = ([], []) := readPath.eq_2 [] fun _ _ same => by cases same
      have path := readPath_append [] apart
      rw [nothing] at path
      rw [List.nil_append, readField, unnamed, if_neg Bool.false_ne_true]
      exact path
  | cons c text =>
    rw [List.cons_append, readField, readField]
    split
    · exact readPath_append ('.' :: c :: text) apart
    · exact readPath_append (c :: text) apart

/-- A number ends where it does if what follows does not go on with it. -/
theorem readNumber_append (c : Char) (text : List Char) (apart : Unjoined more) :
    readNumber c (text ++ more) =
      (readNumber c text).map fun found => (found.1, found.2 ++ more) := by
  obtain ⟨taken, dropped⟩ := cutFront_append_unjoined text apart fun _ => isPathChar_of_numeric
  simp only [readNumber, taken, dropped]
  generalize (if (c == '-') = true then number? true _ else _) = number
  cases number <;> rfl

end Seams

section Quoted

variable {action : String} {text content after : List Char}

/-- A character that escapes nothing and is not the last one is no backslash. -/
theorem ne_escape {c : Char} {rest : List Char} (unended : c = '\\' → rest = [] → False)
    (unescaped : ∀ letter others, c = '\\' → rest = letter :: others → False) : c ≠ '\\' := by
  intro escape
  cases rest with
  | nil => exact unended escape rfl
  | cons letter rest => exact unescaped letter rest escape rfl

/-- A character that neither quotes nor escapes stands for itself between double quotes. -/
theorem readText_cons {c : Char} (noQuote : c ≠ '"') (noEscape : c ≠ '\\') (action : String)
    (rest : List Char) : readText action (c :: rest) =
      (readText action rest).map fun found => (c :: found.1, found.2) :=
  readText.eq_5 action c rest noQuote (fun escape => absurd escape noEscape)
    (fun _ _ escape => absurd escape noEscape)

/-- A text between double quotes is read in the same way whatever follows it. -/
theorem readText_append (read : readText action text = .ok (content, after)) (other : String)
    (more : List Char) : readText other (text ++ more) = .ok (content, after ++ more) := by
  fun_induction readText action text generalizing content with
  | case1 => cases read
  | case2 rest =>
    obtain ⟨rfl, rfl⟩ := Prod.mk.inj (Except.ok.inj read)
    rw [List.cons_append, readText]
  | case3 => cases read
  | case4 letter rest ih =>
    obtain ⟨⟨found, tail⟩, later, same⟩ := exists_of_map_ok read
    obtain ⟨rfl, rfl⟩ := Prod.mk.inj same
    rw [List.cons_append, List.cons_append, readText, ih later]
    rfl
  | case5 c rest noQuote unended unescaped ih =>
    obtain ⟨⟨found, tail⟩, later, same⟩ := exists_of_map_ok read
    obtain ⟨rfl, rfl⟩ := Prod.mk.inj same
    rw [List.cons_append, readText_cons noQuote (ne_escape unended unescaped), ih later]
    rfl

/-- A text that can stand between double quotes: each double quote in it is escaped. -/
inductive Quoted : List Char → Prop where
  | nil : Quoted []
  | plain {c : Char} {content : List Char} (noQuote : c ≠ '"') (noEscape : c ≠ '\\')
      (later : Quoted content) : Quoted (c :: content)
  | escaped {letter : Char} {content : List Char} (later : Quoted content) :
      Quoted ('\\' :: letter :: content)

/-- A text between double quotes is read off a quoted text and its closing quote. -/
theorem exists_of_readText (read : readText action text = .ok (content, after)) :
    ∃ taken, text = taken ++ '"' :: after ∧ Quoted taken := by
  fun_induction readText action text generalizing content with
  | case1 => cases read
  | case2 rest =>
    obtain ⟨rfl, rfl⟩ := Prod.mk.inj (Except.ok.inj read)
    exact ⟨[], rfl, .nil⟩
  | case3 => cases read
  | case4 letter rest ih =>
    obtain ⟨⟨found, tail⟩, later, same⟩ := exists_of_map_ok read
    obtain ⟨rfl, rfl⟩ := Prod.mk.inj same
    obtain ⟨taken, rfl, quoted⟩ := ih later
    exact ⟨'\\' :: letter :: taken, rfl, .escaped quoted⟩
  | case5 c rest noQuote unended unescaped ih =>
    obtain ⟨⟨found, tail⟩, later, same⟩ := exists_of_map_ok read
    obtain ⟨rfl, rfl⟩ := Prod.mk.inj same
    obtain ⟨taken, rfl, quoted⟩ := ih later
    exact ⟨c :: taken, rfl, .plain noQuote (ne_escape unended unescaped) quoted⟩

/-- Between double quotes, a character that neither quotes nor escapes is passed. -/
theorem cutAction_quoted_cons {c : Char} (noQuote : c ≠ '"') (noEscape : c ≠ '\\')
    (rest : List Char) : cutAction (some '"') (c :: rest) =
      (cutAction (some '"') rest).map fun found => (c :: found.1, found.2) := by
  have other : (c == '"') = false := Bool.eq_false_iff.2 fun same => noQuote (eq_of_beq same)
  rw [cutAction.eq_3 '"' c rest fun _ _ _ escape => absurd escape noEscape, other,
    if_neg Bool.false_ne_true]

/-- A quoted text ends for the search for the end of an action at its closing quote. -/
theorem Quoted.cutAction_append (quoted : Quoted content) (rest : List Char) :
    cutAction (some '"') (content ++ '"' :: rest) =
      (cutAction none rest).map fun found => (content ++ '"' :: found.1, found.2) := by
  induction quoted with
  | nil => simp [cutAction]
  | plain noQuote noEscape later ih =>
    rw [List.cons_append, cutAction_quoted_cons noQuote noEscape, ih, Option.map_map]
    rfl
  | escaped later ih =>
    rw [List.cons_append, List.cons_append, cutAction, ih, Option.map_map]
    rfl

/-- A text between double quotes ends in front of blanks. -/
theorem exists_readText_of_isBlank {more : List Char} {found : List Char × List Char}
    (blank : ∀ c ∈ more, isBlank c = true) (read : readText action (text ++ more) = .ok found) :
    ∃ found, readText action text = .ok found := by
  have unread (more : List Char) (blank : ∀ c ∈ more, isBlank c = true) :
      ∀ found, readText action more ≠ .ok found := by
    intro found read
    obtain ⟨taken, rfl, -⟩ := exists_of_readText read
    exact absurd (blank '"' (by simp)) (by decide)
  fun_induction readText action text generalizing found with
  | case1 => exact absurd read (unread more blank found)
  | case2 rest => exact ⟨_, rfl⟩
  | case3 =>
    cases more with
    | nil => cases read
    | cons letter more =>
      have later := (List.forall_mem_cons.1 blank).2
      change (readText action more).map _ = .ok found at read
      obtain ⟨inner, inside, -⟩ := exists_of_map_ok read
      exact absurd inside (unread more later inner)
  | case4 letter rest ih =>
    obtain ⟨inner, later, -⟩ := exists_of_map_ok read
    obtain ⟨alone, inside⟩ := ih later
    rw [inside]
    exact ⟨_, rfl⟩
  | case5 c rest noQuote unended unescaped ih =>
    rw [List.cons_append, readText_cons noQuote (ne_escape unended unescaped)] at read
    obtain ⟨inner, later, -⟩ := exists_of_map_ok read
    obtain ⟨alone, inside⟩ := ih later
    rw [inside]
    exact ⟨_, rfl⟩

/-- A raw text ends in front of blanks. -/
theorem exists_readRawText_of_isBlank {more : List Char} {found : List Char × List Char}
    (blank : ∀ c ∈ more, isBlank c = true)
    (read : readRawText action (text ++ more) = .ok found) :
    ∃ found, readRawText action text = .ok found := by
  have quoted : rawQuote ∈ text := by
    unfold readRawText at read
    split at read
    · rename_i cuts
      have whole := eq_append_of_cut cuts
      have member : rawQuote ∈ text ++ more := by
        rw [whole]
        simp
      refine (List.mem_append.1 member).resolve_right fun last => ?_
      exact absurd (blank rawQuote last) (by decide)
    · cases read
  obtain ⟨front, back, rfl⟩ := List.append_of_mem quoted
  have some_letter : [rawQuote] ≠ [] := List.cons_ne_nil _ _
  obtain ⟨parts, cuts⟩ := exists_cut some_letter front back
  rw [List.append_assoc, List.singleton_append] at cuts
  exact ⟨parts, by rw [readRawText, cuts]⟩

/-- A raw text ends for the search for the end of an action at its closing quote. -/
theorem cutAction_rawText (unquoted : rawQuote ∉ content) (rest : List Char) :
    cutAction (some rawQuote) (content ++ rawQuote :: rest) =
      (cutAction none rest).map fun found => (content ++ rawQuote :: found.1, found.2) := by
  have single (c : Char) (text : List Char) : cutAction (some rawQuote) (c :: text) =
      (cutAction (if c == rawQuote then none else some rawQuote) text).map
        fun found => (c :: found.1, found.2) :=
    cutAction.eq_3 rawQuote c text fun _ _ double => absurd double (by decide)
  induction content with
  | nil =>
    rw [List.nil_append, single]
    rfl
  | cons c content ih =>
    obtain ⟨other, later⟩ := not_or.1 (mt List.mem_cons.2 unquoted)
    have different : (c == rawQuote) = false :=
      Bool.eq_false_iff.2 fun same => other (eq_of_beq same).symm
    rw [List.cons_append, single, different, if_neg Bool.false_ne_true, ih later, Option.map_map]
    rfl

/-- A quote in an action opens a quoted text. -/
theorem cutAction_quote {quote : Char} (quotes : quote = '"' ∨ quote = rawQuote)
    (text : List Char) : cutAction none (quote :: text) =
      (cutAction (some quote) text).map fun found => (quote :: found.1, found.2) := by
  have noBrace : quote ≠ '\x7d' := by rcases quotes with rfl | rfl <;> decide
  have quoting : (quote == '"' || quote == rawQuote) = true := by simpa using quotes
  rw [cutAction.eq_5 _ _ (fun _ brace => absurd brace noBrace), quoting, if_pos rfl]

/-- A quote and what it quotes are passed if the search for the end of an action goes on behind
the closing quote. -/
theorem passes_quoted {quote : Char} (quotes : quote = '"' ∨ quote = rawQuote)
    {taken : List Char} (cuts : ∀ rest, cutAction (some quote) (taken ++ rest) =
      (cutAction none rest).map fun found => (taken ++ found.1, found.2)) :
    Passes (quote :: taken) := by
  intro rest
  rw [List.cons_append, cutAction_quote quotes, cuts, Option.map_map]
  rfl

/-- A quoted text between its quotes is passed. -/
theorem Quoted.passes (quoted : Quoted content) : Passes ('"' :: (content ++ ['"'])) :=
  passes_quoted (.inl rfl) fun rest => by simpa using quoted.cutAction_append rest

/-- A raw text between its quotes is passed. -/
theorem passes_rawQuoted (unquoted : rawQuote ∉ content) :
    Passes (rawQuote :: (content ++ [rawQuote])) :=
  passes_quoted (.inr rfl) fun rest => by simpa using cutAction_rawText unquoted rest

end Quoted

section Stretches

variable {c : Char} {text rest after : List Char}

/-- The characters of a name go on with names and paths. -/
theorem isPathChar_of_isNameChar (named : isNameChar c = true) : isPathChar c = true := by
  rw [isPathChar, named, Bool.true_or]

/-- A name and what goes on with its path are read off characters of names and paths. -/
theorem exists_of_name {taken : List Char} (named : isNameChar c = true)
    (whole : text.dropWhile isNameChar = taken ++ after)
    (joins : ∀ c ∈ taken, isPathChar c = true) :
    ∃ stretch, c :: text = stretch ++ after ∧ ∀ c ∈ stretch, isPathChar c = true := by
  refine ⟨c :: (text.takeWhile isNameChar ++ taken), ?_, ?_⟩
  · rw [List.cons_append, List.append_assoc, ← whole, List.takeWhile_append_dropWhile]
  · intro letter member
    rcases List.mem_cons.1 member with rfl | member
    · exact isPathChar_of_isNameChar named
    rcases List.mem_append.1 member with front | later
    · exact isPathChar_of_isNameChar (List.all_eq_true.1 List.all_takeWhile letter front)
    · exact joins letter later

/-- A path is read off characters of names and paths. -/
theorem exists_of_readPath (text : List Char) :
    ∃ taken, text = taken ++ (readPath text).2 ∧ ∀ c ∈ taken, isPathChar c = true := by
  fun_induction readPath text with
  | case1 c rest named path after found ih =>
    obtain ⟨taken, whole, joins⟩ := ih
    rw [found] at whole
    obtain ⟨stretch, same, all⟩ := exists_of_name named whole joins
    exact ⟨'.' :: stretch, congrArg ('.' :: ·) same, List.forall_mem_cons.2 ⟨by decide, all⟩⟩
  | case2 => exact ⟨[], rfl, fun c member => by cases member⟩
  | case3 => exact ⟨[], rfl, fun c member => by cases member⟩

/-- A path after a dot is read off characters of names and paths. -/
theorem exists_of_readField (text : List Char) :
    ∃ taken, text = taken ++ (readField text).2 ∧ ∀ c ∈ taken, isPathChar c = true := by
  cases text with
  | nil => exact ⟨[], rfl, fun c member => by cases member⟩
  | cons c text =>
    rw [readField]
    split
    · rename_i named
      obtain ⟨taken, whole, joins⟩ := exists_of_readPath (text.dropWhile isNameChar)
      rw [readPath, if_pos named]
      exact exists_of_name named whole joins
    · exact exists_of_readPath (c :: text)

/-- A stretch of a text that is a token: the search for the end of an action passes it, and it
does not end with a dash. -/
structure Stretch (text : List Char) : Prop where
  passes : Passes text
  undashed : text.getLast? ≠ some '-'

/-- A character followed by characters of names and paths is a stretch, a dash alone apart. -/
theorem stretch_of_isPathChar (part : isTokenChar c = true) {taken : List Char}
    (joins : ∀ c ∈ taken, isPathChar c = true) (dash : c = '-' → taken ≠ []) :
    Stretch (c :: taken) := by
  constructor
  · apply passes_of_forall
    intro letter member
    rcases List.mem_cons.1 member with rfl | later
    · exact ne_of_isTokenChar part
    · exact ne_of_isTokenChar (isTokenChar_of_isPathChar (joins letter later)).1
  · intro last
    rw [List.getLast?_cons] at last
    cases ends : taken.getLast? with
    | none =>
      rw [ends] at last
      exact dash (Option.some.inj last) (List.getLast?_eq_none_iff.1 ends)
    | some letter =>
      rw [ends] at last
      obtain rfl : letter = '-' := Option.some.inj last
      exact absurd (joins '-' (List.mem_of_getLast? ends)) (by decide)

/-- A number is read off characters of numbers. -/
theorem exists_of_readNumber {token : Token} (read : readNumber c rest = .ok (token, after)) :
    rest.takeWhile (fun c => c.isDigit || c == '.') ++ after = rest := by
  unfold readNumber at read
  simp only at read
  split at read
  · obtain ⟨-, rfl⟩ := Prod.mk.inj (Except.ok.inj read)
    exact List.takeWhile_append_dropWhile
  · cases read

/-- A token is read off a stretch of the text. -/
theorem exists_of_readToken {action : String} {token : Token}
    (read : readToken action c rest = .ok (token, after)) :
    ∃ taken, rest = taken ++ after ∧ Stretch (c :: taken) := by
  unfold readToken at read
  split_ifs at read with opening closing pipe quote raw dot root number named
  · obtain ⟨-, rfl⟩ := Prod.mk.inj (Except.ok.inj read)
    obtain rfl := eq_of_beq opening
    exact ⟨[], rfl, stretch_of_isPathChar (by decide) nofun nofun⟩
  · obtain ⟨-, rfl⟩ := Prod.mk.inj (Except.ok.inj read)
    obtain rfl := eq_of_beq closing
    exact ⟨[], rfl, stretch_of_isPathChar (by decide) nofun nofun⟩
  · obtain ⟨-, rfl⟩ := Prod.mk.inj (Except.ok.inj read)
    obtain rfl := eq_of_beq pipe
    exact ⟨[], rfl, stretch_of_isPathChar (by decide) nofun nofun⟩
  · obtain ⟨⟨content, tail⟩, found, same⟩ := exists_of_map_ok read
    obtain ⟨-, rfl⟩ := Prod.mk.inj same
    obtain rfl := eq_of_beq quote
    obtain ⟨taken, rfl, quoted⟩ := exists_of_readText found
    refine ⟨taken ++ ['"'], by simp, quoted.passes, ?_⟩
    rw [← List.cons_append, List.getLast?_concat]
    decide
  · obtain ⟨⟨content, tail⟩, found, same⟩ := exists_of_map_ok read
    obtain ⟨-, rfl⟩ := Prod.mk.inj same
    obtain rfl := eq_of_beq raw
    unfold readRawText at found
    split at found
    · rename_i cuts
      obtain rfl := Except.ok.inj found
      refine ⟨content ++ [rawQuote], eq_append_of_cut cuts,
        passes_rawQuoted (not_mem_of_cut cuts), ?_⟩
      rw [← List.cons_append, List.getLast?_concat]
      decide
    · cases found
  · obtain ⟨-, rfl⟩ := Prod.mk.inj (Except.ok.inj read)
    obtain rfl := eq_of_beq dot
    obtain ⟨taken, whole, joins⟩ := exists_of_readField rest
    exact ⟨taken, whole, stretch_of_isPathChar (by decide) joins nofun⟩
  · obtain ⟨-, rfl⟩ := Prod.mk.inj (Except.ok.inj read)
    obtain rfl := eq_of_beq root
    obtain ⟨taken, whole, joins⟩ := exists_of_readPath rest
    exact ⟨taken, whole, stretch_of_isPathChar (by decide) joins nofun⟩
  · refine ⟨_, (exists_of_readNumber read).symm, stretch_of_isPathChar ?_ ?_ ?_⟩
    · rcases Bool.or_eq_true_iff.1 number with digit | negative
      · exact (isTokenChar_of_isPathChar (isPathChar_of_numeric (by rw [digit, Bool.true_or]))).1
      · obtain rfl := eq_of_beq (Bool.and_eq_true_iff.1 negative).1
        decide
    · intro letter member
      exact isPathChar_of_numeric (List.all_eq_true.1 List.all_takeWhile letter member)
    · -- A dash starts a number only in front of a digit.
      rintro rfl none
      cases rest with
      | nil => exact absurd number (by decide)
      | cons first rest =>
        have digit : first.isDigit = true := number
        simp [digit] at none
  · obtain ⟨-, rfl⟩ := Prod.mk.inj (Except.ok.inj read)
    refine ⟨_, List.takeWhile_append_dropWhile.symm, stretch_of_isPathChar ?_ ?_ ?_⟩
    · exact (isTokenChar_of_isPathChar (isPathChar_of_isNameChar named)).1
    · intro letter member
      exact isPathChar_of_isNameChar (List.all_eq_true.1 List.all_takeWhile letter member)
    · rintro rfl
      exact absurd named (by decide)

end Stretches

section Tokens

variable {action : String} {c : Char} {text rest more after : List Char} {token : Token}
  {tokens : List Token}

/-- A token is read in the same way whatever follows it, if that does not go on with it. -/
theorem readToken_append (read : readToken action c rest = .ok (token, after)) (other : String)
    (apart : Unjoined more) : readToken other c (rest ++ more) = .ok (token, after ++ more) := by
  have joins (c : Char) (named : isNameChar c = true) : isPathChar c = true := by
    rw [isPathChar, named, Bool.true_or]
  obtain ⟨taken, dropped⟩ := cutFront_append_unjoined rest apart joins
  simp only [readToken, startsWithDigit_append rest apart, readField_append rest apart,
    readPath_append rest apart, readNumber_append c rest apart, taken, dropped] at read ⊢
  split_ifs at read ⊢ with opening closing pipe quote raw dot root number named
  · obtain ⟨rfl, rfl⟩ := Prod.mk.inj (Except.ok.inj read)
    rfl
  · obtain ⟨rfl, rfl⟩ := Prod.mk.inj (Except.ok.inj read)
    rfl
  · obtain ⟨rfl, rfl⟩ := Prod.mk.inj (Except.ok.inj read)
    rfl
  · obtain ⟨⟨content, tail⟩, found, same⟩ := exists_of_map_ok read
    obtain ⟨rfl, rfl⟩ := Prod.mk.inj same
    rw [readText_append found other more]
    rfl
  · obtain ⟨⟨content, tail⟩, found, same⟩ := exists_of_map_ok read
    obtain ⟨rfl, rfl⟩ := Prod.mk.inj same
    unfold readRawText at found ⊢
    split at found
    · rename_i cuts
      obtain rfl := Except.ok.inj found
      rw [cut_append_right (by simp) cuts]
      rfl
    · cases found
  · obtain ⟨rfl, rfl⟩ := Prod.mk.inj (Except.ok.inj read)
    rfl
  · obtain ⟨rfl, rfl⟩ := Prod.mk.inj (Except.ok.inj read)
    rfl
  · rw [read]
    rfl
  · obtain ⟨rfl, rfl⟩ := Prod.mk.inj (Except.ok.inj read)
    rfl

/-- A token in front of blanks is read without them. -/
theorem exists_readToken_of_isBlank {found : Token × List Char}
    (blank : ∀ c ∈ more, isBlank c = true)
    (read : readToken action c (rest ++ more) = .ok found) :
    ∃ found, readToken action c rest = .ok found := by
  have apart := unjoined_of_isBlank blank
  simp only [readToken, startsWithDigit_append rest apart,
    readNumber_append c rest apart] at read ⊢
  split_ifs at read ⊢ with opening closing pipe quote raw dot root number named
  · exact ⟨_, rfl⟩
  · exact ⟨_, rfl⟩
  · exact ⟨_, rfl⟩
  · obtain ⟨⟨content, tail⟩, inside, -⟩ := exists_of_map_ok read
    obtain ⟨⟨content, tail⟩, inside⟩ := exists_readText_of_isBlank blank inside
    rw [inside]
    exact ⟨_, rfl⟩
  · obtain ⟨⟨content, tail⟩, inside, -⟩ := exists_of_map_ok read
    obtain ⟨⟨content, tail⟩, inside⟩ := exists_readRawText_of_isBlank blank inside
    rw [inside]
    exact ⟨_, rfl⟩
  · exact ⟨_, rfl⟩
  · exact ⟨_, rfl⟩
  · obtain ⟨found, inside, -⟩ := exists_of_map_ok read
    exact ⟨found, inside⟩
  · exact ⟨_, rfl⟩

/-- Blanks in front of a text make no difference to its tokens. -/
theorem readTokens_blanks {blanks : List Char} (blank : ∀ c ∈ blanks, isBlank c = true)
    (text : List Char) : readTokens action (blanks ++ text) = readTokens action text := by
  induction blanks with
  | nil => rfl
  | cons c blanks ih =>
    obtain ⟨here, later⟩ := List.forall_mem_cons.1 blank
    rw [List.cons_append, readTokens, if_pos here, ih later]

/-- The tokens of a text that does not start with a blank are its first token and those of the
text after it. -/
theorem readTokens_cons (filled : isBlank c = false)
    (read : readToken action c rest = .ok (token, after)) :
    readTokens action (c :: rest) = (readTokens action after).map (token :: ·) := by
  obtain ⟨taken, rfl, -⟩ := exists_of_readToken read
  have shorter : after.length ≤ (taken ++ after).length := by simp
  rw [readTokens, filled, if_neg Bool.false_ne_true, read]
  simp only [shorter, ↓reduceIte]

/-- A text that has tokens is empty, starts with a blank, or starts with a token. -/
theorem exists_of_readTokens_cons (filled : isBlank c = false)
    (read : readTokens action (c :: rest) = .ok tokens) :
    ∃ token after others, readToken action c rest = .ok (token, after) ∧
      readTokens action after = .ok others ∧ tokens = token :: others := by
  cases first : readToken action c rest with
  | error fault =>
    rw [readTokens, filled, if_neg Bool.false_ne_true, first] at read
    cases read
  | ok found =>
    rw [readTokens_cons filled first] at read
    obtain ⟨others, later, rfl⟩ := exists_of_map_ok read
    exact ⟨found.1, found.2, others, rfl, later, rfl⟩

/-- What holds of the empty text, and of a text with a blank or a token in front if it holds of
the text after it, holds of every text that has tokens. -/
theorem readTokens_induction {motive : List Char → List Token → Prop} (nil : motive [] [])
    (blank : ∀ c rest tokens, isBlank c = true → motive rest tokens → motive (c :: rest) tokens)
    (token : ∀ c rest token after tokens, isBlank c = false →
      readToken action c rest = .ok (token, after) → motive after tokens →
        motive (c :: rest) (token :: tokens))
    (read : readTokens action text = .ok tokens) : motive text tokens := by
  fun_induction readTokens action text generalizing tokens with
  | case1 =>
    obtain rfl := Except.ok.inj read
    exact nil
  | case2 c rest here ih => exact blank c rest tokens here (ih read)
  | case3 => cases read
  | case4 c rest filled first after found shorter ih =>
    obtain ⟨others, later, rfl⟩ := exists_of_map_ok read
    exact token c rest first after others (Bool.eq_false_iff.2 filled) found (ih later)
  | case5 c rest filled first after found longer =>
    obtain ⟨taken, rfl, -⟩ := exists_of_readToken found
    exact absurd (by simp) longer

/-- The tokens of a text are read before those of a text after it, if that does not go on with
the last of them. -/
theorem readTokens_append (read : readTokens action text = .ok tokens) (other : String)
    (apart : Unjoined more) :
    readTokens other (text ++ more) = (readTokens other more).map (tokens ++ ·) := by
  refine readTokens_induction (motive := fun text tokens =>
    readTokens other (text ++ more) = (readTokens other more).map (tokens ++ ·)) ?_ ?_ ?_ read
  · rw [List.nil_append]
    cases readTokens other more <;> rfl
  · intro c rest tokens blank ih
    rw [List.cons_append, readTokens, if_pos blank, ih]
  · intro c rest token after tokens filled found ih
    rw [List.cons_append, readTokens_cons filled (readToken_append found other apart), ih]
    cases readTokens other more <;> rfl

/-- The tokens of a text do not depend on the action that messages show. -/
theorem readTokens_eq (read : readTokens action text = .ok tokens) (other : String) :
    readTokens other text = .ok tokens := by
  have alone := readTokens_append read other unjoined_nil
  rw [List.append_nil, readTokens] at alone
  rw [alone]
  exact congrArg Except.ok (List.append_nil tokens)

/-- The tokens of a text in front of blanks are those of the text. -/
theorem readTokens_of_isBlank (blank : ∀ c ∈ more, isBlank c = true)
    (read : readTokens action (text ++ more) = .ok tokens) :
    readTokens action text = .ok tokens := by
  have none : readTokens action more = .ok [] := by
    have skipped : readTokens action (more ++ []) = readTokens action [] :=
      readTokens_blanks blank []
    rwa [List.append_nil, readTokens] at skipped
  have reads : ∃ found, readTokens action text = .ok found := by
    fun_induction readTokens action text generalizing tokens with
    | case1 => exact ⟨[], rfl⟩
    | case2 c rest here ih =>
      rw [List.cons_append, readTokens, if_pos here] at read
      exact ih read
    | case3 c rest filled fault failed =>
      obtain ⟨token, after, others, first, -⟩ :=
        exists_of_readTokens_cons (Bool.eq_false_iff.2 filled) read
      obtain ⟨found, inside⟩ := exists_readToken_of_isBlank blank first
      rw [failed] at inside
      cases inside
    | case4 c rest filled token after found shorter ih =>
      have first := readToken_append found action (unjoined_of_isBlank blank)
      rw [List.cons_append, readTokens_cons (Bool.eq_false_iff.2 filled) first] at read
      obtain ⟨others, later, -⟩ := exists_of_map_ok read
      obtain ⟨inner, inside⟩ := ih later
      rw [inside]
      exact ⟨_, rfl⟩
    | case5 => exact ⟨_, rfl⟩
  obtain ⟨found, alone⟩ := reads
  have whole := readTokens_append alone action (unjoined_of_isBlank blank)
  rw [none, read] at whole
  rw [alone, Except.ok.inj whole]
  exact congrArg Except.ok (List.append_nil found).symm

/-- The search for the end of an action passes a text that has tokens. -/
theorem passes_of_readTokens (read : readTokens action text = .ok tokens) : Passes text := by
  refine readTokens_induction (motive := fun text _ => Passes text) passes_nil ?_ ?_ read
  · intro c rest _ blank passes
    obtain ⟨noBrace, noQuote, noRawQuote⟩ := ne_of_isBlank blank
    exact (passes_singleton noBrace noQuote noRawQuote).append passes
  · intro c rest token after _ _ found passes
    obtain ⟨taken, rfl, stretch⟩ := exists_of_readToken found
    exact stretch.passes.append passes

/-- A text that has tokens does not end with a dash. -/
theorem getLast?_of_readTokens (read : readTokens action text = .ok tokens) :
    text.getLast? ≠ some '-' := by
  refine readTokens_induction (motive := fun text _ => text.getLast? ≠ some '-') nofun ?_ ?_ read
  · intro c rest _ blank undashed last
    rw [← List.singleton_append, List.getLast?_append, Option.or_eq_some_iff] at last
    rcases last with later | ⟨-, here⟩
    · exact undashed later
    · obtain rfl : c = '-' := Option.some.inj here
      exact absurd blank (by decide)
  · intro c rest token after _ _ found undashed last
    obtain ⟨taken, rfl, stretch⟩ := exists_of_readToken found
    rw [← List.cons_append, List.getLast?_append, Option.or_eq_some_iff] at last
    rcases last with later | ⟨-, here⟩
    · exact undashed later
    · exact stretch.undashed here

end Tokens

section Composition

variable {text more : List Char} {tokens others : List Token}

/-- The text has the tokens, whatever action it is a part of. -/
def Reads (text : List Char) (tokens : List Token) : Prop :=
  ∀ action, readTokens action text = .ok tokens

/-- The text of an action has its tokens as a part of another action as well. -/
theorem reads_of_tokenize (read : tokenize text = .ok tokens) : Reads text tokens :=
  readTokens_eq read

/-- Its tokens are those of an action with this text. -/
theorem Reads.tokenize_eq (reads : Reads text tokens) : tokenize text = .ok tokens :=
  reads (String.ofList text)

/-- No text has no tokens. -/
theorem reads_nil : Reads [] [] := by
  intro action
  rw [readTokens]

/-- A blank in front of a text makes no difference to its tokens. -/
theorem Reads.blank_cons {c : Char} (blank : isBlank c = true) (reads : Reads text tokens) :
    Reads (c :: text) tokens := by
  intro action
  rw [readTokens, if_pos blank, reads]

/-- A pipe or a parenthesis in front of a text is a token by itself. -/
theorem Reads.mark_cons {c : Char} {mark : Token}
    (marks : (c, mark) ∈ [('|', Token.pipe), ('(', .opening), (')', .closing)])
    (reads : Reads text tokens) : Reads (c :: text) (mark :: tokens) := by
  intro action
  simp only [List.mem_cons, List.not_mem_nil, or_false, Prod.mk.injEq] at marks
  obtain ⟨rfl, rfl⟩ | ⟨rfl, rfl⟩ | ⟨rfl, rfl⟩ := marks
  all_goals
    rw [readTokens_cons (by decide) rfl, reads]
    rfl

/-- A word is a token. -/
theorem reads_word {name : String} (word : IsWordName name) : Reads name.toList [.word name] := by
  intro action
  have written : (Token.word name).Written := word
  have alone := written.readTokens_write (show Separated [] by simp [Separated]) action
  rw [List.append_nil, readTokens] at alone
  exact alone

/-- Texts put together have the tokens of each, if no token goes on across the seam. -/
theorem Reads.append (reads : Reads text tokens) (apart : Unjoined more)
    (later : Reads more others) : Reads (text ++ more) (tokens ++ others) := by
  intro action
  rw [readTokens_append (reads action) action apart, later action]
  rfl

end Composition

section Bodies

variable {text : List Char} {tokens : List Token}

/-- The tokens of an action are those of its text without the blanks around it. -/
theorem tokenize_trim (read : tokenize text = .ok tokens) :
    tokenize (trim text) = .ok tokens := by
  have started : readTokens (String.ofList text) (trimStart text) = .ok tokens := by
    have blank : ∀ c ∈ text.takeWhile isBlank, isBlank c = true :=
      List.all_eq_true.1 List.all_takeWhile
    rwa [tokenize, ← List.takeWhile_append_dropWhile (p := isBlank) (l := text),
      readTokens_blanks blank, List.takeWhile_append_dropWhile] at read
  obtain ⟨blanks, whole, blank⟩ := eq_trimEnd_append (trimStart text)
  rw [whole] at started
  exact readTokens_eq (readTokens_of_isBlank blank started) _

/-- A text that has tokens is no comment. -/
theorem isComment_of_tokenize (read : tokenize text = .ok tokens) : isComment text = false := by
  cases text with
  | nil => rfl
  | cons c text =>
    have noSlash : c ≠ '/' := by
      rintro rfl
      obtain ⟨token, after, others, first, -⟩ := exists_of_readTokens_cons (by decide) read
      obtain ⟨taken, -, stretch⟩ := exists_of_readToken first
      have unread : readToken (String.ofList ('/' :: text)) '/' text =
          .error (.unexpectedCharacter '/' (String.ofList ('/' :: text))) := by
        simp [readToken, rawQuote, show isNameChar '/' = false by decide,
          show '/'.isDigit = false by decide]
      rw [unread] at first
      cases first
    rw [isComment]
    simp [List.isPrefixOf, noSlash.symm]

/-- An action whose text has tokens is the segment with these tokens. -/
theorem actionSegment_of_tokenize (read : tokenize text = .ok tokens) :
    actionSegment (trim text) = .ok [.action tokens] := by
  have trimmed := tokenize_trim read
  rw [actionSegment, isComment_of_tokenize trimmed, trimmed]
  rfl

/-- The text of an action that ends where it is written to end, and has no mark of its own. -/
structure Body (text : List Char) : Prop where
  filled : text ≠ []
  passes : Passes text
  /-- It has no mark for the text before the action, whatever is written behind it. -/
  unfronted : ∀ more, trimsBefore (text ++ more) = false
  undashed : text.getLast? ≠ some '-'

/-- A text that starts with no dash has no mark for the text before the action. -/
theorem trimsBefore_cons {c : Char} (undashed : c ≠ '-') (rest : List Char) :
    trimsBefore (c :: rest) = false := by
  simp [trimsBefore, List.isPrefixOf, undashed, undashed.symm]

/-- A text has a mark for the text after the action only if it ends with a dash. -/
theorem trimsAfter_of_getLast? (undashed : text.getLast? ≠ some '-') :
    trimsAfter text = false := by
  refine Bool.eq_false_iff.2 fun marked => undashed ?_
  rcases Bool.or_eq_true_iff.1 marked with space | line
  · obtain ⟨front, rfl⟩ := List.isSuffixOf_iff_suffix.1 space
    rw [List.getLast?_append]
    rfl
  · obtain ⟨front, rfl⟩ := List.isSuffixOf_iff_suffix.1 line
    rw [List.getLast?_append]
    rfl

/-- A text that has tokens is the text of an action. -/
theorem Body.of_tokenize (read : tokenize text = .ok tokens) (some_token : tokens ≠ []) :
    Body text where
  filled := by
    rintro rfl
    rw [tokenize, readTokens] at read
    exact some_token (Except.ok.inj read).symm
  passes := passes_of_readTokens read
  undashed := getLast?_of_readTokens read
  unfronted := by
    intro more
    cases text with
    | nil =>
      rw [tokenize, readTokens] at read
      exact absurd (Except.ok.inj read).symm some_token
    | cons c text =>
      by_cases dash : c = '-'
      · -- A dash starts a token only in front of a digit.
        subst dash
        obtain ⟨token, after, others, first, -⟩ := exists_of_readTokens_cons (by decide) read
        cases text with
        | nil => exact absurd rfl (getLast?_of_readTokens read)
        | cons letter text =>
          have digit : letter.isDigit = true := by
            refine Bool.eq_true_of_not_eq_false fun other => ?_
            simp [readToken, rawQuote, startsWithDigit, other,
              show isNameChar '-' = false by decide] at first
          have noSpace : ' ' ≠ letter := by rintro rfl; exact absurd digit (by decide)
          have noLine : '\n' ≠ letter := by rintro rfl; exact absurd digit (by decide)
          simp [trimsBefore, List.isPrefixOf, noSpace, noLine]
      · exact trimsBefore_cons dash (text ++ more)

/-- A text of an action with the marks that ask to trim the texts around it. -/
def marked (before after : Bool) (text : List Char) : List Char :=
  (if before then ['-', ' '] else []) ++ text ++ (if after then [' ', '-'] else [])

/-- What is kept of the text between two actions. -/
def keptBetween (trimming before : Bool) (text : List Char) : List Char :=
  if before then trimEnd (keptAfter trimming text) else keptAfter trimming text

namespace Body

variable (body : Body text) (before after : Bool)
include body

/-- An action with marks ends behind them. -/
theorem cutAction_marked (rest : List Char) :
    cutAction none (marked before after text ++ '\x7d' :: '\x7d' :: rest) =
      some (marked before after text, rest) := by
  have front : Passes (if before then ['-', ' '] else []) := by
    apply passes_of_forall
    cases before <;> simp [rawQuote]
  have back : Passes (if after then [' ', '-'] else []) := by
    apply passes_of_forall
    cases after <;> simp [rawQuote]
  have ends : cutAction none ('\x7d' :: '\x7d' :: rest) = some ([], rest) := by rw [cutAction]
  have cuts := ((front.append body.passes).append back) ('\x7d' :: '\x7d' :: rest)
  rw [ends, Option.map_some, List.append_nil] at cuts
  exact cuts

/-- An action has the mark for the text before it that it is written with. -/
theorem trimsBefore_marked : trimsBefore (marked before after text) = before := by
  cases before with
  | true => simp [marked, trimsBefore, List.isPrefixOf]
  | false => exact body.unfronted _

/-- Without the mark for the text before it, a blank is left in its place. -/
theorem withoutFrontMark_marked :
    withoutFrontMark (marked before after text) =
      (if before then [' '] else []) ++ text ++ (if after then [' ', '-'] else []) := by
  rw [withoutFrontMark, body.trimsBefore_marked]
  cases before <;> rfl

/-- An action has the mark for the text after it that it is written with. -/
theorem trimsAfter_marked :
    trimsAfter (withoutFrontMark (marked before after text)) = after := by
  rw [body.withoutFrontMark_marked]
  cases after with
  | true =>
    rw [trimsAfter, Bool.or_eq_true_iff]
    refine .inl (List.isSuffixOf_iff_suffix.2 (List.suffix_append _ _))
  | false =>
    apply trimsAfter_of_getLast?
    rw [if_neg Bool.false_ne_true, List.append_nil, List.getLast?_append_of_ne_nil _ body.filled]
    exact body.undashed

/-- Without the marks and the blanks around it, the text of an action is the one it is written
with. -/
theorem trim_marked : trim (withoutMarks (marked before after text)) = trim text := by
  have blank (here : Bool) : ∀ c ∈ (if here then [' '] else []), isBlank c = true := by
    cases here with
    | true => exact List.forall_mem_singleton.2 (by decide)
    | false => exact nofun
  have unmarked : withoutMarks (marked before after text) =
      (if before then [' '] else []) ++ text ++ (if after then [' '] else []) := by
    have back := body.trimsAfter_marked before after
    show (if trimsAfter (withoutFrontMark (marked before after text)) then
      (withoutFrontMark (marked before after text)).dropLast
        else withoutFrontMark (marked before after text)) = _
    rw [back, body.withoutFrontMark_marked]
    cases after with
    | true => rw [if_pos rfl, if_pos rfl, if_pos rfl, List.dropLast_append_of_ne_nil (by simp)]; rfl
    | false => rfl
  rw [unmarked, trim_append_of_forall (blank before) (blank after)]

/-- The segments of an action with marks and of what follows it. -/
theorem segmentsFrom_marked (rest : List Char) :
    segmentsFrom (marked before after text) rest = (do
      let here ← actionSegment (trim text)
      let others ← readSegments after rest
      .ok (here ++ others)) := by
  rw [segmentsFrom, body.trim_marked, body.trimsAfter_marked]

/-- The segments of a template are those of the text before its first action, of the action, and
of what follows it, where the marks of the action trim the texts around it. -/
theorem readSegments_marked {front : List Char} (free : ¬ ['{', '{'] <:+: front)
    (apart : front.getLast? ≠ some '{') (trimming : Bool) (rest : List Char) :
    readSegments trimming
        (front ++ '{' :: '{' :: (marked before after text ++ '\x7d' :: '\x7d' :: rest)) = (do
      let here ← actionSegment (trim text)
      let others ← readSegments after rest
      .ok (textSegment (keptBetween trimming before front) ++ (here ++ others))) := by
  rw [readSegments_eq, cut_doubled free apart]
  simp only [body.cutAction_marked, body.segmentsFrom_marked, keptBefore, body.trimsBefore_marked]
  cases actionSegment (trim text) with
  | error fault => rfl
  | ok here =>
    cases readSegments after rest with
    | error fault => rfl
    | ok others => rfl

end Body

section Outputs

/-- The text of an action that writes the value of a pipeline. -/
def Outputs (text : List Char) (pipeline : Pipeline) : Prop :=
  ∃ tokens, tokenize text = .ok tokens ∧ Action.ofTokens tokens = .ok (.output pipeline)

variable {pipeline : Pipeline}

/-- Such a text ends where it is written to end, and has no mark of its own. -/
theorem Outputs.body (outputs : Outputs text pipeline) : Body text := by
  obtain ⟨tokens, read, said⟩ := outputs
  refine Body.of_tokenize read ?_
  rintro rfl
  change (Pipeline.ofTokens []).map Action.output = _ at said
  rw [Pipeline.ofTokens, readPipeline.eq_def] at said
  cases said

/-- The nodes of segments behind an output are those of the segments behind the output. -/
theorem ofSegments_output {tokens : List Token}
    (said : Action.ofTokens tokens = .ok (.output pipeline)) (others : List Segment) :
    Node.ofSegments (.action tokens :: others) =
      (Node.ofSegments others).map (.output pipeline :: ·) := by
  have single : Node.ofSegments [.action tokens] = .ok [.output pipeline] := by
    rw [Node.ofSegments, List.foldlM_cons, Reading.step, said]
    rfl
  exact ofSegments_append single others

/-- A template that is one action with a pipeline is the output of the pipeline. -/
theorem Outputs.parse_eq {text : String} (outputs : Outputs text.toList pipeline) (name : String) :
    parse name ("\x7b\x7b" ++ text ++ "\x7d\x7d") = .ok ⟨name, [.output pipeline]⟩ := by
  have body := outputs.body
  obtain ⟨tokens, read, said⟩ := outputs
  have nothing : ¬ ['{', '{'] <:+: [] := mt List.infix_nil.1 (List.cons_ne_nil _ _)
  have whole : ("\x7b\x7b" ++ text ++ "\x7d\x7d").toList =
      '{' :: '{' :: (marked false false text.toList ++ '\x7d' :: '\x7d' :: []) := by
    simp [marked]
  have lexes : readSegments false ("\x7b\x7b" ++ text ++ "\x7d\x7d").toList =
      .ok [.action tokens] := by
    have parts := body.readSegments_marked false false nothing nofun false []
    rw [whole]
    refine parts.trans ?_
    rw [actionSegment_of_tokenize read, readSegments_text nothing]
    rfl
  exact parse_of_readSegments lexes (ofSegments_output said []) name

end Outputs

end Bodies

end ComponentPages.Template
