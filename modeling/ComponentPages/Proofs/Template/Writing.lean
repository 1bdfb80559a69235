import ComponentPages.Template
import ComponentPages.Value.Write
import ComponentPages.Proofs.Text.Cut
import Mathlib

/-!
# The canonical text of segments

Tokens written one after the other with single spaces between them, texts in double quotes with
a backslash before a quote and a backslash, and actions between `{{ ` and ` }}`. Reading inverts
writing: a token that can be written is read back where a space or the end follows
(`Token.Written.readToken_write`), the tokens of an action are (`tokenize_writeTokens`), and so
are the segments of a template (`readSegments_writeAll`), whatever the texts in the actions hold.
-/
namespace ComponentPages.Template

open Text

/-- A character of a text between double quotes. -/
def escapeQuote (c : Char) : List Char := if c = '"' ∨ c = '\\' then ['\\', c] else [c]

/-- The canonical text of an integer. -/
def writeInt (number : Int64) : List Char :=
  if number.toInt < 0 then '-' :: digits number.toInt.natAbs else digits number.toInt.natAbs

/-- The names of a path, each after a dot. -/
def writePath (path : List String) : List Char := path.flatMap fun name => '.' :: name.toList

/-- The canonical text of a token. -/
def Token.write : Token → List Char
  | .text content => '"' :: content.toList.flatMap escapeQuote ++ ['"']
  | .int number => writeInt number
  | .float number => (Value.text (.float number)).toList
  | .word name => name.toList
  | .dot [] => ['.']
  | .dot (name :: path) => writePath (name :: path)
  | .root path => '$' :: writePath path
  | .opening => ['(']
  | .closing => [')']
  | .pipe => ['|']

/-- The canonical text of tokens. -/
def writeTokens (tokens : List Token) : List Char :=
  [' '].intercalate (tokens.map Token.write)

/-- The canonical text of a segment. -/
def Segment.write : Segment → List Char
  | .text content => content.toList
  | .action tokens => "\x7b\x7b ".toList ++ writeTokens tokens ++ " \x7d\x7d".toList

/-- The canonical text of segments. -/
def Segment.writeAll (segments : List Segment) : List Char := segments.flatMap Segment.write

/-- A name in a path. -/
def IsPathName (name : String) : Prop := name ≠ "" ∧ ∀ c ∈ name.toList, isNameChar c = true

/-- A name that is read as a word: it does not start with a digit. -/
structure IsWordName (name : String) : Prop where
  pathName : IsPathName name
  noDigit : ∀ c ∈ name.toList.head?, c.isDigit = false

/-- Names in a path can be told. -/
instance (name : String) : Decidable (IsPathName name) :=
  have : Decidable (∀ c ∈ name.toList, isNameChar c = true) := List.decidableBAll _ _
  inferInstanceAs (Decidable (name ≠ "" ∧ ∀ c ∈ name.toList, isNameChar c = true))

/-- Names that are read as words can be told. -/
instance (name : String) : Decidable (IsWordName name) :=
  have : Decidable (∀ c ∈ name.toList.head?, c.isDigit = false) := Option.decidableForallMem _
  decidable_of_iff (IsPathName name ∧ ∀ c ∈ name.toList.head?, c.isDigit = false)
    ⟨fun both => ⟨both.1, both.2⟩, fun word => ⟨word.pathName, word.noDigit⟩⟩

/-- A token that its canonical text stands for. -/
def Token.Written : Token → Prop
  | .float _ => False
  | .word name => IsWordName name
  | .dot path => ∀ name ∈ path, IsPathName name
  | .root path => ∀ name ∈ path, IsPathName name
  | .text _ | .int _ | .opening | .closing | .pipe => True

section Characters

variable {c : Char}

/-- The characters of names are no blanks. -/
theorem isBlank_of_isNameChar (named : isNameChar c = true) : isBlank c = false := by
  refine Bool.eq_false_iff.2 fun blank => ?_
  obtain ⟨range, member, least, greatest⟩ := inRanges_iff.1 blank
  have apart : ∀ range ∈ blanks, range.2 < 48 ∨ 122 < range.1 := by decide
  have := apart range member
  simp only [isNameChar, isLetterOrNumber, Bool.or_eq_true, beq_iff_eq] at named
  rcases named with letter | rfl
  · split at letter
    · have := bounds_of_isAlphanum letter
      omega
    · simp only [Bool.or_eq_true] at letter
      rw [inRanges_eq_false blank (by decide +kernel), inRanges_eq_false blank (by decide +kernel),
        inRanges_eq_false blank (by decide +kernel)] at letter
      simp at letter
  · exact absurd blank (by decide)

/-- Digits are characters of names. -/
theorem isNameChar_of_isDigit (digit : c.isDigit = true) : isNameChar c = true := by
  have bounds : 48 ≤ c.toNat ∧ c.toNat ≤ 57 := Char.isDigit_iff_toNat.1 digit
  have low : c.toNat < 128 := by omega
  simp [isNameChar, isLetterOrNumber, low, Char.isAlphanum, digit]

/-- The decimal digits of a natural are digits. -/
theorem isDigit_of_mem_digits {number : Nat} (member : c ∈ digits number) : c.isDigit = true :=
  Nat.isDigit_of_mem_toDigits (by decide) (by decide) member

/-- A natural has a decimal digit. -/
theorem digits_ne_nil (number : Nat) : digits number ≠ [] := Nat.toDigits_ne_nil

/-- A character that a token other than a text is written with. -/
def isTokenChar (c : Char) : Bool := isNameChar c || ['(', ')', '|', '.', '$', '-'].contains c

/-- Such a character is no blank. -/
theorem isBlank_of_isTokenChar (part : isTokenChar c = true) : isBlank c = false := by
  simp only [isTokenChar, Bool.or_eq_true, List.contains_iff_mem] at part
  rcases part with named | mark
  · exact isBlank_of_isNameChar named
  · have marks : (['(', ')', '|', '.', '$', '-'].all fun c => !isBlank c) = true := by decide
    simpa using List.all_eq_true.1 marks c mark

/-- Such a character neither closes an action nor quotes. -/
theorem ne_of_isTokenChar (part : isTokenChar c = true) :
    c ≠ '\x7d' ∧ c ≠ '"' ∧ c ≠ rawQuote := by
  refine ⟨?_, ?_, ?_⟩ <;> (rintro rfl; exact absurd part (by decide))

/-- The characters of a name in a path are such characters. -/
theorem isTokenChar_of_mem_writePath {path : List String}
    (names : ∀ name ∈ path, IsPathName name) (member : c ∈ writePath path) :
    isTokenChar c = true := by
  obtain ⟨name, listed, inside⟩ := List.mem_flatMap.1 member
  rcases List.mem_cons.1 inside with rfl | later
  · decide
  · rw [isTokenChar, (names name listed).2 c later, Bool.true_or]

/-- The characters of an integer are such characters. -/
theorem isTokenChar_of_mem_writeInt {number : Int64} (member : c ∈ writeInt number) :
    isTokenChar c = true := by
  have digit (member : c ∈ digits number.toInt.natAbs) : isTokenChar c = true := by
    rw [isTokenChar, isNameChar_of_isDigit (isDigit_of_mem_digits member), Bool.true_or]
  unfold writeInt at member
  split at member
  · rcases List.mem_cons.1 member with rfl | later
    · decide
    · exact digit later
  · exact digit member

/-- A token other than a text is written with such characters. -/
theorem Token.Written.isTokenChar_of_mem {token : Token} (written : token.Written)
    (noText : ∀ content, token ≠ .text content) (member : c ∈ token.write) :
    isTokenChar c = true := by
  cases token with
  | text content => exact absurd rfl (noText content)
  | int number => exact isTokenChar_of_mem_writeInt member
  | float number => exact written.elim
  | word name => rw [isTokenChar, written.pathName.2 c member, Bool.true_or]
  | dot path =>
    cases path with
    | nil =>
      obtain rfl := List.mem_singleton.1 member
      decide
    | cons name path => exact isTokenChar_of_mem_writePath written member
  | root path =>
    rcases List.mem_cons.1 member with rfl | later
    · decide
    · exact isTokenChar_of_mem_writePath written later
  | opening | closing | pipe =>
    obtain rfl := List.mem_singleton.1 member
    decide

/-- A token is written with some character. -/
theorem Token.Written.write_ne_nil {token : Token} (written : token.Written) :
    token.write ≠ [] := by
  cases token with
  | int number =>
    rw [Token.write, writeInt]
    split
    · simp
    · exact digits_ne_nil _
  | float number => exact written.elim
  | word name => exact fun empty => written.pathName.1 (String.toList_eq_nil_iff.1 empty)
  | dot path => cases path <;> simp [Token.write, writePath]
  | _ => simp [Token.write]

end Characters

section Tokens

variable {rest : List Char}

/-- The text does not go on with what the token before it could take. -/
def Separated (rest : List Char) : Prop := ∀ c ∈ rest.head?, c = ' '

/-- A text between double quotes is read back. -/
theorem readText_escapeQuote (action : String) (content rest : List Char) :
    readText action (content.flatMap escapeQuote ++ '"' :: rest) = .ok (content, rest) := by
  induction content with
  | nil => rw [List.flatMap_nil, List.nil_append, readText]
  | cons c content ih =>
    rw [List.flatMap_cons, escapeQuote]
    split
    · rename_i special
      have same : unescape c = c := by rcases special with rfl | rfl <;> decide
      simp only [List.cons_append, List.nil_append, readText, ih, Except.map, same]
    · rename_i plain
      obtain ⟨noQuote, noEscape⟩ := not_or.1 plain
      rw [List.cons_append, List.nil_append, List.cons_append, readText.eq_5 action c _
        (fun same => noQuote same) (fun same _ => noEscape same)
        (fun _ _ same _ => noEscape same), ih]
      rfl

/-- No character of a name follows where a token is separated from the next. -/
theorem Separated.ends_name (apart : Separated rest) :
    ∀ c ∈ rest.head?, isNameChar c = false := by
  intro c first
  rw [apart c first]
  decide

/-- A path ends a name, and so does what separates the path from the next token. -/
theorem isNameChar_writePath (path : List String) (apart : Separated rest) :
    ∀ c ∈ (writePath path ++ rest).head?, isNameChar c = false := by
  cases path with
  | nil => exact apart.ends_name
  | cons name path =>
    rintro c ⟨⟩
    decide

/-- A name is its first character and the characters after it. -/
theorem IsPathName.exists_cons {name : String} (named : IsPathName name) :
    ∃ c letters, name.toList = c :: letters ∧ isNameChar c = true ∧
      ∀ letter ∈ letters, isNameChar letter = true := by
  obtain ⟨filled, all⟩ := named
  obtain ⟨c, letters, same⟩ := List.exists_cons_of_ne_nil (mt String.toList_eq_nil_iff.1 filled)
  rw [same] at all
  exact ⟨c, letters, same, List.forall_mem_cons.1 all⟩

/-- The names of a path are read back. -/
theorem readPath_writePath {path : List String} (names : ∀ name ∈ path, IsPathName name)
    (apart : Separated rest) : readPath (writePath path ++ rest) = (path, rest) := by
  induction path with
  | nil =>
    have undotted : ∀ c others, rest = '.' :: c :: others → False := by
      rintro c others rfl
      exact absurd (apart '.' rfl) (by decide)
    rw [writePath, List.flatMap_nil, List.nil_append, readPath.eq_2 _ undotted]
  | cons name path ih =>
    obtain ⟨here, later⟩ := List.forall_mem_cons.1 names
    obtain ⟨c, letters, same, first, all⟩ := here.exists_cons
    have cuts := cutFront_append all (isNameChar_writePath path apart)
    have taken : List.takeWhile isNameChar (letters ++ (writePath path ++ rest)) = letters :=
      congrArg Prod.fst cuts
    have dropped : List.dropWhile isNameChar (letters ++ (writePath path ++ rest)) =
        writePath path ++ rest := congrArg Prod.snd cuts
    have whole : writePath (name :: path) ++ rest =
        '.' :: c :: (letters ++ (writePath path ++ rest)) := by
      simp [writePath, same]
    rw [whole, readPath.eq_1, if_pos first, taken, dropped, ih later, ← same, String.ofList_toList]

/-- A path after a dot is read back. -/
theorem exists_readField {path : List String} (names : ∀ name ∈ path, IsPathName name)
    (apart : Separated rest) :
    ∃ text, (Token.dot path).write = '.' :: text ∧ readField (text ++ rest) = (path, rest) := by
  cases path with
  | nil =>
    refine ⟨[], rfl, ?_⟩
    cases rest with
    | nil => rfl
    | cons c rest =>
      rw [List.nil_append, readField, apart.ends_name c rfl]
      exact readPath_writePath names apart
  | cons name path =>
    obtain ⟨c, letters, same, first, all⟩ := (names name List.mem_cons_self).exists_cons
    have written : writePath (name :: path) = '.' :: c :: (letters ++ writePath path) := by
      simp [writePath, same]
    refine ⟨_, written, ?_⟩
    rw [List.cons_append, readField, if_pos first]
    have read := readPath_writePath names apart
    rwa [written] at read

/-- The digits of an integer are read back as the integer. -/
theorem number?_digits (number : Int64) :
    number? (decide (number.toInt < 0)) (digits number.toInt.natAbs) = some (.int number) := by
  have noPoint : ∀ c ∈ digits number.toInt.natAbs, (c == '.') = false := by
    intro c member
    refine Bool.eq_false_iff.2 fun point => ?_
    have digit := isDigit_of_mem_digits member
    rw [eq_of_beq point] at digit
    exact absurd digit (by decide)
  have value : (if decide (number.toInt < 0) = true then -(number.toInt.natAbs : Int)
      else number.toInt.natAbs) = number.toInt := by
    split
    · rename_i negative
      have := of_decide_eq_true negative
      omega
    · rename_i positive
      have := of_decide_eq_false (Bool.eq_false_iff.2 positive)
      omega
  have fits : Number.word? number.toInt = some number := by
    have low := number.le_toInt
    have high := number.toInt_lt
    rw [Number.word?, if_pos (by omega), Int64.ofInt_toInt]
  rw [number?, splitWhere_of_forall noPoint]
  simp only [natural?_digits, Option.bind_eq_bind, Option.bind_some, value, fits, Option.map_some]

/-- An integer is read back. -/
theorem exists_readNumber (number : Int64) (apart : Separated rest) :
    ∃ c text, writeInt number = c :: text ∧
      (c.isDigit || (c == '-' && startsWithDigit (text ++ rest))) = true ∧
      readNumber c (text ++ rest) = .ok (.int number, rest) := by
  have read := number?_digits number
  have decimal : ∀ c ∈ digits number.toInt.natAbs, c.isDigit = true :=
    fun c member => isDigit_of_mem_digits member
  have stops : ∀ c ∈ rest.head?, (c.isDigit || c == '.') = false := by
    intro c first
    rw [apart c first]
    decide
  obtain ⟨first, others, same⟩ :=
    List.exists_cons_of_ne_nil (digits_ne_nil number.toInt.natAbs)
  rw [same] at decimal
  have numeric : ∀ c ∈ first :: others, (c.isDigit || c == '.') = true := fun c member => by
    rw [decimal c member, Bool.true_or]
  by_cases negative : number.toInt < 0
  · refine ⟨'-', first :: others, by rw [writeInt, if_pos negative, same], ?_, ?_⟩
    · simp [startsWithDigit, decimal first List.mem_cons_self]
    · have cuts := cutFront_append numeric stops
      rw [decide_eq_true negative, same] at read
      rw [readNumber, (Prod.mk.inj cuts).1, (Prod.mk.inj cuts).2]
      simp [read]
  · have digit : first.isDigit = true := decimal first List.mem_cons_self
    have noDash : (first == '-') = false := by
      refine Bool.eq_false_iff.2 fun dash => ?_
      rw [eq_of_beq dash] at digit
      exact absurd digit (by decide)
    refine ⟨first, others, by rw [writeInt, if_neg negative, same], ?_, ?_⟩
    · rw [digit, Bool.true_or]
    · have cuts := cutFront_append (fun c member => numeric c (List.mem_cons_of_mem _ member)) stops
      rw [decide_eq_false negative, same] at read
      rw [readNumber, (Prod.mk.inj cuts).1, (Prod.mk.inj cuts).2]
      simp [read, noDash]

/-- A character of a name is no character that names do not have. -/
theorem beq_eq_false_of_isNameChar {c other : Char} (named : isNameChar c = true)
    (mark : isNameChar other = false) : (c == other) = false := by
  refine Bool.eq_false_iff.2 fun same => ?_
  rw [eq_of_beq same, mark] at named
  exact Bool.false_ne_true named

/-- A word is read back. -/
theorem readToken_word {name : String} (written : IsWordName name) (apart : Separated rest)
    (action : String) :
    ∃ c text, name.toList = c :: text ∧
      readToken action c (text ++ rest) = .ok (.word name, rest) := by
  obtain ⟨c, letters, same, first, all⟩ := written.pathName.exists_cons
  have cuts := cutFront_append all apart.ends_name
  have noDigit : c.isDigit = false := written.noDigit c (by rw [same]; rfl)
  have other (mark : Char) (outside : isNameChar mark = false) : (c == mark) = false :=
    beq_eq_false_of_isNameChar first outside
  refine ⟨c, letters, same, ?_⟩
  rw [readToken, other '(' (by decide), other ')' (by decide),
    other '|' (by decide), other '"' (by decide),
    other rawQuote (by decide), other '.' (by decide),
    other '$' (by decide), other '-' (by decide), noDigit]
  rw [(Prod.mk.inj cuts).1, (Prod.mk.inj cuts).2, ← same, String.ofList_toList]
  simp [first]

/-- An integer starts with a character that only numbers start with. -/
theorem readToken_number {c : Char} {rest : List Char} (action : String)
    (starts : (c.isDigit || (c == '-' && startsWithDigit rest)) = true) :
    readToken action c rest = readNumber c rest := by
  have other (mark : Char) (noDigit : mark.isDigit = false) (noDash : mark ≠ '-') :
      (c == mark) = false := by
    refine Bool.eq_false_iff.2 fun same => ?_
    rw [eq_of_beq same, noDigit, Bool.false_or, Bool.and_eq_true] at starts
    exact noDash (eq_of_beq starts.1)
  rw [readToken, other '(' (by decide) (by decide),
    other ')' (by decide) (by decide), other '|' (by decide) (by decide),
    other '"' (by decide) (by decide),
    other rawQuote (by decide) (by decide),
    other '.' (by decide) (by decide), other '$' (by decide) (by decide),
    starts]
  rfl

/-- A token is read back where a space or the end follows. -/
theorem Token.Written.readToken_write {token : Token} (written : token.Written)
    (apart : Separated rest) (action : String) :
    ∃ c text, token.write = c :: text ∧
      readToken action c (text ++ rest) = .ok (token, rest) := by
  cases token with
  | text content =>
    refine ⟨'"', content.toList.flatMap escapeQuote ++ ['"'], rfl, ?_⟩
    rw [List.append_assoc]
    show (readText action (content.toList.flatMap escapeQuote ++ '"' :: rest)).map _ = _
    rw [readText_escapeQuote]
    exact congrArg (fun text => Except.ok (Token.text text, rest)) String.ofList_toList
  | int number =>
    obtain ⟨c, text, same, starts, read⟩ := exists_readNumber number apart
    exact ⟨c, text, same, (readToken_number action starts).trans read⟩
  | float number => exact written.elim
  | word name => exact readToken_word written apart action
  | dot path =>
    obtain ⟨text, same, read⟩ := exists_readField written apart
    refine ⟨'.', text, same, ?_⟩
    exact congrArg (fun found => Except.ok (Token.dot found.1, found.2)) read
  | root path =>
    have read := readPath_writePath written apart
    refine ⟨'$', writePath path, rfl, ?_⟩
    exact congrArg (fun found => Except.ok (Token.root found.1, found.2)) read
  | opening => exact ⟨'(', [], rfl, rfl⟩
  | closing => exact ⟨')', [], rfl, rfl⟩
  | pipe => exact ⟨'|', [], rfl, rfl⟩

/-- A token is read before the others of an action. -/
theorem Token.Written.readTokens_write {token : Token} (written : token.Written)
    (apart : Separated rest) (action : String) :
    readTokens action (token.write ++ rest) = (readTokens action rest).map (token :: ·) := by
  obtain ⟨c, text, same, read⟩ := written.readToken_write apart action
  have solid : isBlank c = false := by
    cases token with
    | text content =>
      obtain rfl := (List.cons.inj same).1
      decide
    | _ =>
      have part : isTokenChar c = true :=
        written.isTokenChar_of_mem (by simp) (by rw [same]; exact List.mem_cons_self)
      exact isBlank_of_isTokenChar part
  have shorter : rest.length ≤ (text ++ rest).length := by simp
  rw [same, List.cons_append, readTokens, solid, read]
  simp only [Bool.false_eq_true, ↓reduceIte, shorter]

/-- The canonical text of tokens starts with a token, and a space stands before each other. -/
theorem writeTokens_cons (token : Token) (tokens : List Token) :
    writeTokens (token :: tokens) =
      token.write ++ tokens.flatMap fun other => ' ' :: other.write := by
  induction tokens generalizing token with
  | nil => simp [writeTokens]
  | cons next tokens ih =>
    have later := ih next
    simp only [writeTokens, List.map_cons, List.intercalate_cons_cons, List.flatMap_cons] at later ⊢
    rw [later]
    simp

/-- Further tokens are separated from the one before. -/
theorem separated_flatMap (tokens : List Token) :
    Separated (tokens.flatMap fun other => ' ' :: other.write) := by
  cases tokens with
  | nil => simp [Separated]
  | cons token tokens => simp [Separated]

/-- Further tokens of an action are read back. -/
theorem readTokens_flatMap {tokens : List Token} (written : ∀ token ∈ tokens, token.Written)
    (action : String) :
    readTokens action (tokens.flatMap fun other => ' ' :: other.write) = .ok tokens := by
  induction tokens with
  | nil => rw [List.flatMap_nil, readTokens]
  | cons token tokens ih =>
    obtain ⟨here, later⟩ := List.forall_mem_cons.1 written
    rw [List.flatMap_cons, List.cons_append, readTokens, if_pos (by decide),
      here.readTokens_write (separated_flatMap tokens), ih later]
    rfl

/-- The tokens of an action are read back. -/
theorem tokenize_writeTokens {tokens : List Token} (written : ∀ token ∈ tokens, token.Written) :
    tokenize (writeTokens tokens) = .ok tokens := by
  unfold tokenize
  cases tokens with
  | nil => exact readTokens_flatMap written _
  | cons token tokens =>
    obtain ⟨here, later⟩ := List.forall_mem_cons.1 written
    rw [writeTokens_cons, here.readTokens_write (separated_flatMap tokens),
      readTokens_flatMap later]
    rfl

end Tokens

section Actions

/-- The end of an action is looked for after the text. -/
def Passes (text : List Char) : Prop :=
  ∀ rest, cutAction none (text ++ rest) =
    (cutAction none rest).map fun found => (text ++ found.1, found.2)

/-- No text is passed. -/
theorem passes_nil : Passes [] := by
  intro rest
  simp

/-- A text after a text that is passed is passed if it is by itself. -/
theorem Passes.append {text others : List Char} (passes : Passes text) (more : Passes others) :
    Passes (text ++ others) := by
  intro rest
  rw [List.append_assoc, passes, more, Option.map_map]
  simp only [Function.comp_def, List.append_assoc]

/-- A character that neither closes an action nor quotes is passed. -/
theorem passes_singleton {c : Char} (open' : c ≠ '\x7d') (noQuote : c ≠ '"')
    (noRawQuote : c ≠ rawQuote) : Passes [c] := by
  intro rest
  rw [List.singleton_append, cutAction.eq_5 c rest (fun _ same => absurd same open')]
  simp [noQuote, noRawQuote]

/-- Characters that neither close an action nor quote are passed. -/
theorem passes_of_forall {text : List Char}
    (all : ∀ c ∈ text, c ≠ '\x7d' ∧ c ≠ '"' ∧ c ≠ rawQuote) : Passes text := by
  induction text with
  | nil => exact passes_nil
  | cons c text ih =>
    obtain ⟨⟨noBrace, noQuote, noRawQuote⟩, later⟩ := List.forall_mem_cons.1 all
    exact (passes_singleton noBrace noQuote noRawQuote).append (ih later)

/-- Between double quotes, an escaped text and its closing quote are passed. -/
theorem cutAction_escapeQuote (content rest : List Char) :
    cutAction (some '"') (content.flatMap escapeQuote ++ '"' :: rest) =
      (cutAction none rest).map fun found =>
        (content.flatMap escapeQuote ++ '"' :: found.1, found.2) := by
  induction content with
  | nil => simp [cutAction]
  | cons c content ih =>
    rw [List.flatMap_cons, escapeQuote]
    split
    · simp only [List.cons_append, List.nil_append, cutAction, ih, Option.map_map,
        Function.comp_def]
    · rename_i plain
      obtain ⟨noQuote, noEscape⟩ := not_or.1 plain
      rw [List.cons_append, List.nil_append, List.cons_append,
        cutAction.eq_3 '"' c _ (fun _ _ _ same => absurd same noEscape)]
      simp [noQuote, ih, Function.comp_def]

/-- A token is passed. -/
theorem Token.Written.passes {token : Token} (written : token.Written) : Passes token.write := by
  cases token with
  | text content =>
    intro rest
    have opens : cutAction none ('"' :: (content.toList.flatMap escapeQuote ++ '"' :: rest)) =
        (cutAction (some '"') (content.toList.flatMap escapeQuote ++ '"' :: rest)).map
          fun found => ('"' :: found.1, found.2) := by
      rw [cutAction.eq_5 '"' _ (fun _ same => absurd same (by decide))]
      rfl
    rw [Token.write, List.cons_append, List.cons_append, List.append_assoc,
      List.singleton_append, opens, cutAction_escapeQuote, Option.map_map]
    simp [Function.comp_def]
  | _ =>
    exact passes_of_forall fun c member =>
      ne_of_isTokenChar (written.isTokenChar_of_mem (by simp) member)

/-- The tokens of an action are passed. -/
theorem passes_writeTokens {tokens : List Token} (written : ∀ token ∈ tokens, token.Written) :
    Passes (writeTokens tokens) := by
  have space : Passes [' '] := passes_singleton (by decide) (by decide) (by decide)
  have further {tokens : List Token} (written : ∀ token ∈ tokens, token.Written) :
      Passes (tokens.flatMap fun other => ' ' :: other.write) := by
    induction tokens with
    | nil => exact passes_nil
    | cons token tokens ih =>
      obtain ⟨here, later⟩ := List.forall_mem_cons.1 written
      exact (space.append here.passes).append (ih later)
  cases tokens with
  | nil => exact passes_nil
  | cons token tokens =>
    obtain ⟨here, later⟩ := List.forall_mem_cons.1 written
    rw [writeTokens_cons]
    exact here.passes.append (further later)

/-- An action ends after its tokens. -/
theorem cutAction_writeTokens {tokens : List Token} (written : ∀ token ∈ tokens, token.Written)
    (after : List Char) :
    cutAction none (' ' :: writeTokens tokens ++ [' '] ++ '\x7d' :: '\x7d' :: after) =
      some (' ' :: writeTokens tokens ++ [' '], after) := by
  have space : Passes [' '] := passes_singleton (by decide) (by decide) (by decide)
  have passes := (space.append (passes_writeTokens written)).append space
  have ends : cutAction none ('\x7d' :: '\x7d' :: after) = some ([], after) := by rw [cutAction]
  have cuts := passes ('\x7d' :: '\x7d' :: after)
  rw [ends, Option.map_some, List.append_nil] at cuts
  exact cuts

/-- A token is written without blanks at its ends. -/
theorem Token.Written.trimmed {token : Token} (written : token.Written) :
    Trimmed token.write := by
  cases token with
  | text content =>
    constructor
    · rintro c ⟨⟩
      decide
    · intro c member
      rw [Token.write, List.getLast?_append] at member
      obtain rfl := Option.some.inj member
      decide
  | _ =>
    have solid {c : Char} (member : c ∈ Token.write _) : isBlank c = false :=
      isBlank_of_isTokenChar (written.isTokenChar_of_mem (by simp) member)
    exact ⟨fun c first => solid (List.mem_of_head? first),
      fun c last => solid (List.mem_of_getLast? last)⟩

/-- Further tokens of an action do not end with a blank. -/
theorem isBlank_getLast?_flatMap {tokens : List Token}
    (written : ∀ token ∈ tokens, token.Written) :
    ∀ c ∈ (tokens.flatMap fun other => ' ' :: other.write).getLast?, isBlank c = false := by
  induction tokens with
  | nil => simp
  | cons token tokens ih =>
    obtain ⟨here, later⟩ := List.forall_mem_cons.1 written
    intro c member
    rw [List.flatMap_cons, List.getLast?_append, Option.mem_def, Option.or_eq_some_iff] at member
    rcases member with last | ⟨-, last⟩
    · exact ih later c last
    · rw [List.getLast?_cons_of_ne_nil here.write_ne_nil] at last
      exact here.trimmed.last c last

/-- The tokens of an action are written without blanks at the ends. -/
theorem trimmed_writeTokens {tokens : List Token} (written : ∀ token ∈ tokens, token.Written) :
    Trimmed (writeTokens tokens) := by
  cases tokens with
  | nil => constructor <;> simp [writeTokens]
  | cons token tokens =>
    obtain ⟨here, later⟩ := List.forall_mem_cons.1 written
    rw [writeTokens_cons]
    constructor
    · intro c member
      obtain ⟨first, text, same⟩ := List.exists_cons_of_ne_nil here.write_ne_nil
      rw [same] at member
      exact here.trimmed.first c (by rw [same]; exact member)
    · intro c member
      rw [List.getLast?_append, Option.mem_def, Option.or_eq_some_iff] at member
      rcases member with last | ⟨-, last⟩
      · exact isBlank_getLast?_flatMap later c last
      · exact here.trimmed.last c last

/-- The tokens of an action are not taken for a comment. -/
theorem isComment_writeTokens {tokens : List Token} (written : ∀ token ∈ tokens, token.Written) :
    isComment (writeTokens tokens) = false := by
  cases tokens with
  | nil => rfl
  | cons token tokens =>
    obtain ⟨here, -⟩ := List.forall_mem_cons.1 written
    obtain ⟨c, text, same⟩ := List.exists_cons_of_ne_nil here.write_ne_nil
    have noSlash : c ≠ '/' := by
      rintro rfl
      cases token with
      | text content => exact absurd (List.cons.inj same).1 (by decide)
      | _ =>
        have part : isTokenChar '/' = true :=
          here.isTokenChar_of_mem (by simp) (by rw [same]; exact List.mem_cons_self)
        exact absurd part (by decide)
    rw [writeTokens_cons, same, isComment]
    simp [List.isPrefixOf, noSlash.symm]

/-- An action is read back as its tokens, wherever it stands. -/
theorem actionSegment_writeTokens {tokens : List Token}
    (written : ∀ token ∈ tokens, token.Written) :
    actionSegment (trim (' ' :: writeTokens tokens ++ [' '])) = .ok [.action tokens] := by
  have blank : ∀ c ∈ [' '], isBlank c = true := List.forall_mem_singleton.2 (by decide)
  have trims : trim ([' '] ++ writeTokens tokens ++ [' ']) = writeTokens tokens :=
    (trimmed_writeTokens written).trim_append blank blank
  rw [← List.singleton_append, trims, actionSegment, isComment_writeTokens written,
    tokenize_writeTokens written]
  rfl

end Actions

section Segments

/-- A segment that its canonical text stands for. -/
def Segment.Written : Segment → Prop
  | .text content => content ≠ "" ∧ ¬ ['{', '{'] <:+: content.toList
  | .action tokens => ∀ token ∈ tokens, token.Written

/-- A segment may be followed by another: a text by an action alone, and then it does not end
with a brace that the action would start from. -/
def Segment.Follows : Segment → Segment → Prop
  | .text _, .text _ => False
  | .text content, .action _ => content.toList.getLast? ≠ some '{'
  | .action _, _ => True

/-- A source with a canonical action is read from after the action. -/
theorem readSegments_action {source before after : List Char} {tokens : List Token}
    (cuts : cut ['{', '{'] source =
      some (before, ' ' :: writeTokens tokens ++ [' '] ++ '\x7d' :: '\x7d' :: after))
    (written : ∀ token ∈ tokens, token.Written) :
    readSegments false source =
      (readSegments false after).map fun others =>
        textSegment before ++ [.action tokens] ++ others := by
  have closes := cutAction_writeTokens written after
  have noFront : trimsBefore (' ' :: writeTokens tokens ++ [' ']) = false := by
    simp [trimsBefore, List.isPrefixOf]
  have noBack : trimsAfter (' ' :: writeTokens tokens ++ [' ']) = false := by
    simp [trimsAfter, List.isSuffixOf, List.isPrefixOf]
  rw [readSegments]
  split
  · rename_i unopened
    exact absurd (cuts.symm.trans unopened) (Option.some_ne_none _)
  · rename_i opened
    obtain ⟨rfl, rfl⟩ := Prod.mk.inj (Option.some.inj (cuts.symm.trans opened))
    split
    · rename_i unclosed
      exact absurd (closes.symm.trans unclosed) (Option.some_ne_none _)
    · rename_i closed
      obtain ⟨rfl, rfl⟩ := Prod.mk.inj (Option.some.inj (closes.symm.trans closed))
      simp only [noFront, noBack, Bool.false_eq_true, ↓reduceIte, actionSegment_writeTokens written]
      cases readSegments false after <;> rfl

/-- A source without the start of an action is a text. -/
theorem readSegments_text {source : List Char} (free : ¬ ['{', '{'] <:+: source) :
    readSegments false source = .ok (textSegment source) := by
  rw [readSegments]
  split
  · rfl
  · rename_i opened
    exact absurd (opened.symm.trans (cut_eq_none free)) (Option.some_ne_none _)

/-- A content that is not empty is a text. -/
theorem textSegment_toList {content : String} (filled : content ≠ "") :
    textSegment content.toList = [.text content] := by
  have letters : content.toList.isEmpty = false :=
    List.isEmpty_eq_false_iff.2 (mt String.toList_eq_nil_iff.1 filled)
  rw [textSegment, letters, if_neg (by decide), String.ofList_toList]

/-- Segments are read back from their canonical text. -/
theorem readSegments_writeAll {parts : List Segment} (written : ∀ part ∈ parts, part.Written)
    (spaced : parts.IsChain Segment.Follows) :
    readSegments false (Segment.writeAll parts) = .ok parts := by
  match parts with
  | [] => exact readSegments_text (mt List.infix_nil.1 (by simp))
  | .action tokens :: parts =>
    obtain ⟨here, later⟩ := List.forall_mem_cons.1 written
    have whole : Segment.writeAll (.action tokens :: parts) = ['{', '{'] ++
        (' ' :: writeTokens tokens ++ [' '] ++ '\x7d' :: '\x7d' :: Segment.writeAll parts) := by
      simp [Segment.writeAll, Segment.write]
    have cuts := cut_append (by simp : ['{', '{'] ≠ [])
      (' ' :: writeTokens tokens ++ [' '] ++ '\x7d' :: '\x7d' :: Segment.writeAll parts)
    rw [whole, readSegments_action cuts here, readSegments_writeAll later spaced.tail]
    rfl
  | [.text content] =>
    obtain ⟨⟨filled, free⟩, -⟩ := List.forall_mem_cons.1 written
    have whole : Segment.writeAll [.text content] = content.toList := by
      simp [Segment.writeAll, Segment.write]
    rw [whole, readSegments_text free, textSegment_toList filled]
  | .text content :: .action tokens :: parts =>
    obtain ⟨⟨filled, free⟩, others⟩ := List.forall_mem_cons.1 written
    obtain ⟨here, later⟩ := List.forall_mem_cons.1 others
    obtain ⟨apart, rest⟩ := List.isChain_cons_cons.1 spaced
    have whole : Segment.writeAll (.text content :: .action tokens :: parts) =
        content.toList ++ '{' :: '{' ::
          (' ' :: writeTokens tokens ++ [' '] ++ '\x7d' :: '\x7d' :: Segment.writeAll parts) := by
      simp [Segment.writeAll, Segment.write]
    have cuts := cut_doubled free apart
      (' ' :: writeTokens tokens ++ [' '] ++ '\x7d' :: '\x7d' :: Segment.writeAll parts)
    rw [whole, readSegments_action cuts here, readSegments_writeAll later rest.tail,
      textSegment_toList filled]
    rfl
  | .text content :: .text other :: parts =>
    exact (List.isChain_cons_cons.1 spaced).1.elim

end Segments

end ComponentPages.Template
