import ComponentPages.Proofs.Markup.ScopeClass

/-!
# The opening tag of markup

The tag that markup starts with, looked for among its pieces: blanks aside, it goes from a `<` to
the first `>` outside of quotes and expressions (`openingTag?`). Masking does not change where it
is (`cutTag_maskPieces`), so the injection of a class finds this tag or gives up, and what it
makes of markup is the pieces of that tag with the class on them, and all other pieces as they
were (`exists_injectClass`). The tag with the class on it is again the tag that the markup
starts with (`exists_injects`).
-/
namespace ComponentPages.Markup

open Text

/-- The quote of the value that a place is in, if it is in one, after a character. -/
def quoteAfter : Option Char → Char → Option Char
  | some quote, c => if c == quote then none else some quote
  | none, c => if c == '"' || c == '\'' then some c else none

/-- The pieces before the end of the tag that pieces start with, and the pieces after the end. The
first argument is the quote of the value that the place is in, if it is in one. -/
def cutTagPieces : Option Char → List Piece → Option (List Piece × List Piece)
  | _, [] => none
  | quote, .inr expression :: pieces =>
    (cutTagPieces quote pieces).map fun (tag, rest) => (.inr expression :: tag, rest)
  | quote, .inl c :: pieces =>
    if quote.isNone && c == '>' then some ([], pieces)
    else (cutTagPieces (quoteAfter quote c) pieces).map fun (tag, rest) => (.inl c :: tag, rest)

/-- Whether a piece is a blank. -/
def isBlankPiece : Piece → Bool := Sum.elim isBlank fun _ => false

/-- The blanks that pieces start with, the pieces of the tag after them, without its last `>`,
and the pieces after the tag. -/
def openingPieces? (pieces : List Piece) : Option (List Piece × List Piece × List Piece) :=
  match pieces.dropWhile isBlankPiece with
  | .inl '<' :: more => (cutTagPieces none (.inl '<' :: more)).map fun (tag, rest) =>
      (pieces.takeWhile isBlankPiece, tag, rest)
  | _ => none

/-- The tag that markup starts with. -/
structure OpeningTag where
  /-- The blanks in front of the tag. -/
  blanks : List Char
  /-- The tag, from its `<` to its `>`. -/
  tag : List Char
  /-- The markup behind the tag. -/
  rest : List Char
  deriving DecidableEq

/-- The tag that markup starts with, if it starts with one that ends. -/
def openingTag? (markup : List Char) : Option OpeningTag :=
  (openingPieces? (readExpression.pieces markup)).map fun (blanks, tag, rest) =>
    ⟨written blanks, written tag ++ ['>'], written rest⟩

/-- What the injection of a class makes of markup that starts with a tag: the pieces of the tag
are edited, those in front of the class stay as they are, and so does the markup around the tag. -/
structure Injects (body scope : String) (opening : OpeningTag) (before tag edited : List Piece) :
    Prop where
  pieces : readExpression.pieces opening.tag = tag ++ [.inl '>']
  head : before.head? = some (.inl '<')
  front : maskPieces 0 before = classFront (maskPieces 0 tag)
  classed : Classed scope.toList before (tag ++ [.inl '>']) edited
  reread : readExpression.pieces (written edited) = edited
  made : injectClass body scope =
    some (String.ofList (opening.blanks ++ written edited ++ opening.rest))
  opens : openingTag? (opening.blanks ++ written edited ++ opening.rest) =
    some ⟨opening.blanks, written edited, opening.rest⟩

/-- What a place in a tag can be in: nothing, or a value with one of the two quotes. -/
def IsQuote (quote : Option Char) : Prop := ∀ c ∈ quote, c = '"' ∨ c = '\''

/-- The quote after pieces of a tag, if the tag does not end among them. -/
def quoteBehind : Option Char → List Piece → Option (Option Char)
  | quote, [] => some quote
  | quote, .inr _ :: pieces => quoteBehind quote pieces
  | quote, .inl c :: pieces =>
    if quote.isNone && c == '>' then none else quoteBehind (quoteAfter quote c) pieces

section Quotes

variable {pieces others tag rest : List Piece} {quote : Option Char} {c : Char} {text : List Char}

/-- A tag ends at the first `>` that is outside of quotes. -/
theorem cutTagPieces_eq_some_iff : cutTagPieces quote pieces = some (tag, rest) ↔
    pieces = tag ++ .inl '>' :: rest ∧ quoteBehind quote tag = some none := by
  fun_induction cutTagPieces quote pieces generalizing tag with
  | case1 quote =>
    refine ⟨nofun, fun parts => ?_⟩
    exact absurd parts.1.symm (by simp)
  | case2 quote expression pieces ih =>
    cases tag with
    | nil => simp
    | cons piece tag =>
      simp only [Option.map_eq_some_iff, Prod.exists, Prod.mk.injEq, List.cons.injEq,
        List.cons_append]
      constructor
      · rintro ⟨_, _, found, ⟨rfl, rfl⟩, rfl⟩
        exact ⟨⟨rfl, (ih.1 found).1⟩, (ih.1 found).2⟩
      · rintro ⟨⟨rfl, same⟩, behind⟩
        exact ⟨tag, rest, ih.2 ⟨same, behind⟩, ⟨rfl, rfl⟩, rfl⟩
  | case3 quote c pieces ends =>
    obtain ⟨outside, bracket⟩ := Bool.and_eq_true_iff.1 ends
    obtain rfl := Option.isNone_iff_eq_none.1 outside
    obtain rfl := eq_of_beq bracket
    cases tag with
    | nil => simp [quoteBehind, eq_comm]
    | cons piece tag =>
      refine ⟨nofun, fun parts => ?_⟩
      obtain ⟨rfl, -⟩ := List.cons.inj parts.1
      exact nomatch parts.2
  | case4 quote c pieces other ih =>
    cases tag with
    | nil =>
      refine ⟨by simp, fun parts => ?_⟩
      obtain ⟨same, -⟩ := List.cons.inj parts.1
      obtain rfl := Sum.inl.inj same
      obtain rfl : quote = none := Option.some.inj parts.2
      exact absurd rfl other
    | cons piece tag =>
      simp only [Option.map_eq_some_iff, Prod.exists, Prod.mk.injEq, List.cons.injEq,
        List.cons_append]
      constructor
      · rintro ⟨_, _, found, ⟨rfl, rfl⟩, rfl⟩
        refine ⟨⟨rfl, (ih.1 found).1⟩, ?_⟩
        rw [quoteBehind, if_neg other, (ih.1 found).2]
      · rintro ⟨⟨rfl, same⟩, behind⟩
        rw [quoteBehind, if_neg other] at behind
        exact ⟨tag, rest, ih.2 ⟨same, behind⟩, ⟨rfl, rfl⟩, rfl⟩

/-- Pieces one after the other are passed one after the other. -/
theorem quoteBehind_append : quoteBehind quote (pieces ++ others) =
    (quoteBehind quote pieces).bind fun quote => quoteBehind quote others := by
  fun_induction quoteBehind quote pieces with
  | case1 quote => rfl
  | case2 quote expression pieces ih => exact ih
  | case3 quote c pieces ends => simp [quoteBehind, ends]
  | case4 quote c pieces other ih => simpa [quoteBehind, other] using ih

/-- After a character of a tag the place is in nothing or in a value with one of the quotes. -/
theorem IsQuote.after (isQuote : IsQuote quote) (c : Char) : IsQuote (quoteAfter quote c) := by
  unfold quoteAfter
  split
  · split
    · exact nofun
    · exact isQuote
  · split
    · rename_i opens
      intro d same
      obtain rfl := Option.some.inj same
      simpa using opens
    · exact nofun

/-- Behind pieces of a tag the place is in nothing or in a value with one of the quotes. -/
theorem IsQuote.behind (isQuote : IsQuote quote) {last : Option Char}
    (passes : quoteBehind quote pieces = some last) : IsQuote last := by
  fun_induction quoteBehind quote pieces with
  | case1 quote => exact Option.some.inj passes ▸ isQuote
  | case2 quote expression pieces ih => exact ih isQuote passes
  | case3 quote c pieces ends => exact nomatch passes
  | case4 quote c pieces other ih => exact ih (isQuote.after c) passes

/-- Characters that are neither quotes nor the end of a tag change nothing. -/
theorem quoteBehind_of_forall (isQuote : IsQuote quote)
    (others : ∀ c, .inl c ∈ pieces → c ∉ ['"', '\'', '>']) :
    quoteBehind quote pieces = some quote := by
  induction pieces with
  | nil => rfl
  | cons piece pieces ih =>
    have later := ih fun c member => others c (List.mem_cons_of_mem _ member)
    cases piece with
    | inr expression => exact later
    | inl c =>
      have other := others c List.mem_cons_self
      simp only [List.mem_cons, List.not_mem_nil, or_false, not_or] at other
      obtain ⟨double, single, bracket⟩ := other
      have same : quoteAfter quote c = quote := by
        cases quote with
        | none => simp [quoteAfter, double, single]
        | some quote =>
          rcases isQuote quote rfl with rfl | rfl
          · simp [quoteAfter, double]
          · simp [quoteAfter, single]
      rw [quoteBehind, same, if_neg (by simp [bracket]), later]

/-- A quote does not end a tag. -/
theorem quoteBehind_quote (quotes : c = '"' ∨ c = '\'') :
    quoteBehind quote [.inl c] = some (quoteAfter quote c) := by
  have other : c ≠ '>' := by rcases quotes with rfl | rfl <;> decide
  rw [quoteBehind, if_neg (by simp [other])]
  rfl

/-- Two quotes of one kind leave the place in what it was in. -/
theorem quoteAfter_twice (isQuote : IsQuote quote) (quotes : c = '"' ∨ c = '\'') :
    quoteAfter (quoteAfter quote c) c = quote := by
  cases quote with
  | none => simp [quoteAfter, quotes]
  | some quote =>
    rcases isQuote quote rfl with rfl | rfl <;> rcases quotes with rfl | rfl <;> rfl

/-- A neutral text changes nothing. -/
theorem quoteBehind_plain (isQuote : IsQuote quote) (neutral : Neutral text) :
    quoteBehind quote (plain text) = some quote := by
  refine quoteBehind_of_forall isQuote fun c member => ?_
  obtain ⟨letter, listed, same⟩ := List.mem_map.1 member
  obtain rfl := Sum.inl.inj same
  have other := neutral letter listed
  simp only [List.mem_cons, List.not_mem_nil, or_false, not_or] at other ⊢
  exact ⟨other.1, other.2.1, other.2.2.2.1⟩

/-- A quote between neutral texts changes the place as it does alone. -/
theorem quoteBehind_between {front back : List Char} (isQuote : IsQuote quote)
    (quotes : c = '"' ∨ c = '\'') (before : Neutral front) (after : Neutral back) :
    quoteBehind quote (plain (front ++ c :: back)) = some (quoteAfter quote c) := by
  have shape : plain (front ++ c :: back) = plain front ++ ([.inl c] ++ plain back) := by
    simp [plain]
  rw [shape, quoteBehind_append, quoteBehind_plain isQuote before, Option.bind_some,
    quoteBehind_append, quoteBehind_quote quotes, Option.bind_some,
    quoteBehind_plain (isQuote.after c) after]

/-- A neutral text between two quotes of one kind leaves the place in what it was in. -/
theorem quoteBehind_enclosed {front inner : List Char} (isQuote : IsQuote quote)
    (quotes : c = '"' ∨ c = '\'') (before : Neutral front) (neutral : Neutral inner) :
    quoteBehind quote (plain (front ++ c :: inner ++ [c])) = some quote := by
  have shape : plain (front ++ c :: inner ++ [c]) = plain (front ++ c :: inner) ++ [.inl c] := by
    simp [plain]
  rw [shape, quoteBehind_append, quoteBehind_between isQuote quotes before neutral,
    Option.bind_some, quoteBehind_quote quotes, quoteAfter_twice isQuote quotes]

end Quotes

section Masked

variable {pieces : List Piece} {quote : Option Char} {text : List Char}

/-- What a character of a tag does to the place. -/
theorem cutTag_cons (quote : Option Char) (c : Char) (text : List Char) :
    cutTag quote (c :: text) =
      if quote.isNone && c == '>' then some ([], text)
      else (cutTag (quoteAfter quote c) text).map fun (tag, rest) => (c :: tag, rest) := by
  cases quote with
  | none => rfl
  | some quote => rfl

/-- A text without quotes and the end of a tag is passed over. -/
theorem cutTag_append (isQuote : IsQuote quote) (others : ∀ c ∈ text, c ∉ ['"', '\'', '>'])
    (rest : List Char) : cutTag quote (text ++ rest) =
      (cutTag quote rest).map fun (tag, after) => (text ++ tag, after) := by
  induction text with
  | nil => exact (congrFun Option.map_id (cutTag quote rest)).symm
  | cons c text ih =>
    obtain ⟨here, later⟩ := List.forall_mem_cons.1 others
    have piece : quoteBehind quote [.inl c] = some quote := by
      refine quoteBehind_of_forall isQuote fun d member => ?_
      obtain rfl := Sum.inl.inj (List.mem_singleton.1 member)
      exact here
    rw [quoteBehind] at piece
    split at piece
    · exact nomatch piece
    · rename_i other
      have same : quoteAfter quote c = quote := Option.some.inj piece
      rw [List.cons_append, cutTag_cons, if_neg other, same, ih later, Option.map_map]
      rfl

/-- Masked markup has the end of its tag where the markup has it. -/
theorem cutTag_maskPieces (isQuote : IsQuote quote) (number : Nat) :
    cutTag quote (maskPieces number pieces) = (cutTagPieces quote pieces).map fun (tag, rest) =>
      (maskPieces number tag, maskPieces (number + (expressionsOf tag).length) rest) := by
  fun_induction cutTagPieces quote pieces generalizing number with
  | case1 quote => cases quote <;> rfl
  | case2 quote expression pieces ih =>
    have signs : ∀ c ∈ ['"', '\'', '>'], isPlaceholderChar c = false :=
      List.all_iff_forall_prop.1 (by decide)
    have others : ∀ c ∈ placeholder number, c ∉ ['"', '\'', '>'] := fun c member listed =>
      Bool.false_ne_true ((signs c listed).symm.trans (isPlaceholderChar_of_mem member))
    rw [maskPieces, cutTag_append isQuote others, ih isQuote, Option.map_map, Option.map_map]
    congr 1
    funext parts
    obtain ⟨tag, rest⟩ := parts
    show (_, maskPieces (number + 1 + (expressionsOf tag).length) rest) =
      (_, maskPieces (number + ((expressionsOf tag).length + 1)) rest)
    rw [Nat.add_right_comm, Nat.add_assoc]
    rfl
  | case3 quote c pieces ends =>
    rw [maskPieces, cutTag_cons, if_pos ends]
    rfl
  | case4 quote c pieces other ih =>
    rw [maskPieces, cutTag_cons, if_neg other, ih (isQuote.after c), Option.map_map,
      Option.map_map]
    rfl

end Masked

section Class

variable {pieces edited before tag : List Piece} {scope : List Char}

/-- A character among the pieces of a text is one of the text. -/
theorem mem_plain {text : List Char} {c : Char} : .inl c ∈ plain text ↔ c ∈ text := by
  simp [plain]

/-- Pieces that neither begin nor end a tag. -/
def WithinTag (pieces : List Piece) : Prop := ∀ c, .inl c ∈ pieces → c ∉ ['<', '>', '/']

/-- Pieces one after the other are within a tag if each are. -/
theorem WithinTag.append {others : List Piece} (first : WithinTag pieces)
    (second : WithinTag others) : WithinTag (pieces ++ others) := fun c member =>
  (List.mem_append.1 member).elim (first c) (second c)

/-- A neutral text is within a tag. -/
theorem Neutral.withinTag {text : List Char} (neutral : Neutral text) :
    WithinTag (plain text) := by
  intro c member listed
  have signs : ∀ c ∈ ['<', '>', '/'], c ∈ ['"', '\'', '<', '>', '/', '_'] :=
    List.all_iff_forall_prop.1 (by decide)
  exact neutral c (mem_plain.1 member) (signs c listed)

/-- Pieces in a tag that others take the place of, and what follows them: both start with a blank,
if there are any, are within the tag, and leave the place in the same quotes. -/
structure Swaps (old new after : List Piece) : Prop where
  startsOld : (∃ piece ∈ old.head?, isBlankPiece piece = true) ∨
    old = [] ∧ (after = plain ['>'] ∨ after = plain ['/', '>'])
  startsNew : ∃ piece ∈ new.head?, isBlankPiece piece = true
  filled : ∃ c, .inl c ∈ new ∧ isBlank c = false
  withinOld : WithinTag old
  withinNew : WithinTag new
  quotes : ∀ quote, IsQuote quote → quoteBehind quote new = quoteBehind quote old

/-- A blank and a neutral text are neutral. -/
theorem Neutral.spaced {c : Char} {name : List Char} (named : Neutral name)
    (blank : isBlank c = true) : Neutral (c :: name) :=
  (@neutral_of_isBlank [c] (by simpa using blank)).append named

/-- A quote is within a tag. -/
theorem withinTag_quote {quote : Char} (quotes : quote = '"' ∨ quote = '\'') :
    WithinTag [.inl quote] := by
  intro c member
  obtain rfl := Sum.inl.inj (List.mem_singleton.1 member)
  rcases quotes with rfl | rfl <;> decide

/-- A class attribute up to the class in its value takes the place of pieces that start with a
blank, if what follows closes its quote. -/
theorem Neutral.swaps {c quote : Char} (neutral : Neutral scope) (blank : isBlank c = true)
    (quotes : quote = '"' ∨ quote = '\'') {old more after : List Piece}
    (startsOld : (∃ piece ∈ old.head?, isBlankPiece piece = true) ∨
      old = [] ∧ (after = plain ['>'] ∨ after = plain ['/', '>']))
    (withinOld : WithinTag old) (withinMore : WithinTag more)
    (closes : ∀ place, IsQuote place →
      quoteBehind (quoteAfter place quote) more = quoteBehind place old) :
    Swaps old (plain (c :: "class=".toList ++ quote :: scope) ++ more) after := by
  have word : Neutral "class=".toList := by simp [Neutral]
  refine ⟨startsOld, ⟨.inl c, rfl, blank⟩, ⟨'c', by simp [plain], by decide⟩, withinOld, ?_,
    fun place isQuote => ?_⟩
  · have front := ((word.spaced blank).withinTag.append (withinTag_quote quotes)).append
      neutral.withinTag
    refine WithinTag.append ?_ withinMore
    simpa [plain] using front
  · rw [quoteBehind_append, quoteBehind_between isQuote quotes (word.spaced blank) neutral,
      Option.bind_some, closes place isQuote]

/-- A class is put on a tag by replacing pieces in it by others. -/
theorem Classed.region (classed : Classed scope before pieces edited)
    (neutral : Neutral scope) : ∃ old new after, pieces = before ++ old ++ after ∧
      edited = before ++ new ++ after ∧ Swaps old new after := by
  have starts {c : Char} {name : List Char} {more after : List Piece} (blank : isBlank c = true) :
      (∃ piece ∈ (plain (c :: name) ++ more).head?, isBlankPiece piece = true) ∨
        plain (c :: name) ++ more = [] ∧ (after = plain ['>'] ∨ after = plain ['/', '>']) :=
    .inl ⟨.inl c, rfl, blank⟩
  have passes {place : Option Char} {text : List Char} {more : List Piece}
      (isQuote : IsQuote place) (neutral : Neutral text) :
      quoteBehind place (plain text ++ more) = quoteBehind place more := by
    rw [quoteBehind_append, quoteBehind_plain isQuote neutral, Option.bind_some]
  have blank : Neutral [' '] := by simp [Neutral]
  cases classed with
  | @value c quote name value last blankC named quotes absent =>
    refine ⟨plain (c :: name) ++ [.inl quote], _ ++ plain [' '], value ++ .inl quote :: last,
      by simp [plain], ?_, neutral.swaps blankC quotes (starts blankC)
        ((named.spaced blankC).withinTag.append (withinTag_quote quotes)) blank.withinTag
        fun place isQuote => ?_⟩
    · simp [plain]
    · rw [passes isQuote (named.spaced blankC), quoteBehind_quote quotes,
        quoteBehind_plain (isQuote.after quote) blank]
  | @blanks c quote name blanks last blankC named quotes allBlank =>
    have enclosed : WithinTag (plain ([] ++ quote :: blanks ++ [quote])) := by
      have whole := (withinTag_quote quotes).append
        ((neutral_of_isBlank allBlank).withinTag.append (withinTag_quote quotes))
      simpa [plain] using whole
    refine ⟨plain (c :: name) ++ plain ([] ++ quote :: blanks ++ [quote]), _ ++ [.inl quote], last,
      by simp [plain], ?_, neutral.swaps blankC quotes (starts blankC)
        ((named.spaced blankC).withinTag.append enclosed) (withinTag_quote quotes)
        fun place isQuote => ?_⟩
    · simp [plain]
    · rw [passes isQuote (named.spaced blankC), quoteBehind_quote quotes,
        quoteAfter_twice isQuote quotes, quoteBehind_enclosed isQuote quotes
          (List.forall_mem_nil _) (neutral_of_isBlank allBlank)]
  | @bare c name value last blankC named unquoted =>
    have apart {signs : List Char} (separate : ∀ c ∈ signs, separates c = true) :
        ∀ c, .inl c ∈ value → c ∉ signs := fun c member listed =>
      Bool.false_ne_true ((unquoted c member).symm.trans (separate c listed))
    have within : WithinTag value := apart (List.all_iff_forall_prop.1 (by decide))
    have others : ∀ c, .inl c ∈ value → c ∉ ['"', '\'', '>'] :=
      apart (List.all_iff_forall_prop.1 (by decide))
    have double : '"' = '"' ∨ '"' = '\'' := .inl rfl
    refine ⟨plain (c :: name) ++ value, _ ++ (plain [' '] ++ (value ++ [.inl '"'])), last,
      by simp, ?_, neutral.swaps blankC double (starts blankC)
        ((named.spaced blankC).withinTag.append within)
        (blank.withinTag.append (within.append (withinTag_quote double)))
        fun place isQuote => ?_⟩
    · simp [plain]
    · rw [passes isQuote (named.spaced blankC), passes (isQuote.after _) blank,
        quoteBehind_append, quoteBehind_of_forall (isQuote.after _) others, Option.bind_some,
        quoteBehind_quote double, quoteAfter_twice isQuote double,
        quoteBehind_of_forall isQuote others]
  | @added blanks tail allBlank ends =>
    have double : '"' = '"' ∨ '"' = '\'' := .inl rfl
    refine ⟨plain blanks, _ ++ [.inl '"'], plain tail, rfl, ?_, @Neutral.swaps _ ' ' _ neutral
      (by decide) double _ _ _ ?_ (neutral_of_isBlank allBlank).withinTag (withinTag_quote double)
        fun place isQuote => ?_⟩
    · simp [plain]
    · cases blanks with
      | nil => exact .inr ⟨rfl, ends.imp (congrArg plain) (congrArg plain)⟩
      | cons c blanks => exact .inl ⟨.inl c, rfl, allBlank c List.mem_cons_self⟩
    · rw [quoteBehind_quote double, quoteAfter_twice isQuote double,
        quoteBehind_plain isQuote (neutral_of_isBlank allBlank)]

/-- The end of a tag is behind the pieces that others take the place of. -/
theorem Swaps.exists_after {old new after : List Piece} (swaps : Swaps old new after)
    (same : tag ++ [.inl '>'] = before ++ old ++ after) :
    ∃ rest, after = rest ++ [.inl '>'] ∧ tag = before ++ old ++ rest := by
  rcases List.eq_nil_or_concat after with rfl | ⟨rest, last, rfl⟩
  · have member : .inl '>' ∈ old := by
      rcases List.eq_nil_or_concat old with rfl | ⟨front, last, rfl⟩
      · rcases swaps.startsOld with ⟨piece, none, -⟩ | ⟨-, none | none⟩
        · exact nomatch none
        · exact nomatch none
        · exact nomatch none
      · rw [List.concat_eq_append, List.append_nil, ← List.append_assoc] at same
        obtain rfl := List.cons.inj (List.append_inj' same rfl).2 |>.1
        simp
    exact absurd (by decide) (swaps.withinOld '>' member)
  · rw [List.concat_eq_append, ← List.append_assoc] at same
    obtain ⟨rfl, ends⟩ := List.append_inj' same rfl
    exact ⟨rest, by rw [List.concat_eq_append, ends], rfl⟩

/-- A tag with a class on it ends where it ended before. -/
theorem Classed.exists_tag (classed : Classed scope before (tag ++ [.inl '>']) edited)
    (neutral : Neutral scope) (passes : quoteBehind none tag = some none) :
    ∃ shown, edited = shown ++ [.inl '>'] ∧ quoteBehind none shown = some none := by
  obtain ⟨old, new, after, same, rfl, swaps⟩ := classed.region neutral
  obtain ⟨rest, rfl, rfl⟩ := swaps.exists_after same
  refine ⟨before ++ new ++ rest, by simp, ?_⟩
  rw [quoteBehind_append, quoteBehind_append] at passes ⊢
  have outside : IsQuote none := nofun
  cases front : quoteBehind none before with
  | none =>
    rw [front] at passes
    exact nomatch passes
  | some quote =>
    rw [front, Option.bind_some] at passes
    rw [Option.bind_some, swaps.quotes quote (outside.behind front)]
    exact passes

/-- A class is put behind the start of a tag. -/
theorem Classed.head (classed : Classed scope before pieces edited)
    (head : pieces.head? = some (.inl '<')) : before.head? = some (.inl '<') := by
  have bracket : isBlank '<' = false := by decide
  have other {c : Char} (blank : isBlank c = true) : c ≠ '<' := by
    rintro rfl
    exact nomatch blank.symm.trans bracket
  cases before with
  | cons piece before => cases classed <;> exact head
  | nil =>
    cases classed with
    | value last blank | blanks last blank | bare last blank =>
      exact absurd (by simpa [plain] using head) (other blank)
    | @added blanks tail allBlank ends =>
      cases blanks with
      | nil => rcases ends with rfl | rfl <;> exact absurd head (by simp [plain])
      | cons c blanks =>
        exact absurd (by simpa [plain] using head) (other (allBlank c List.mem_cons_self))

/-- What is in front of a class is there before and after. -/
theorem Classed.exists_append (classed : Classed scope before pieces edited) :
    ∃ rest, edited = before ++ rest := by
  cases classed <;> exact ⟨_, by rw [List.append_assoc]⟩

end Class

section Opening

variable {pieces blanks tag rest edited before : List Piece} {number : Nat}

/-- Blank pieces are a text. -/
theorem eq_plain_of_isBlankPiece (blank : ∀ piece ∈ blanks, isBlankPiece piece = true) :
    blanks = plain (written blanks) := by
  induction blanks with
  | nil => rfl
  | cons piece blanks ih =>
    obtain ⟨here, later⟩ := List.forall_mem_cons.1 blank
    cases piece with
    | inl c => exact congrArg (.inl c :: ·) (ih later)
    | inr expression => exact nomatch here

/-- Masking keeps the blanks that markup starts with. -/
theorem takeWhile_maskPieces (pieces : List Piece) (number : Nat) :
    (maskPieces number pieces).takeWhile isBlank = written (pieces.takeWhile isBlankPiece) := by
  induction pieces with
  | nil => rfl
  | cons piece pieces ih =>
    cases piece with
    | inl c =>
      by_cases blank : isBlank c = true
      · simp [maskPieces, isBlankPiece, blank, ih, written]
      · simp [maskPieces, isBlankPiece, blank, written]
    | inr expression => rfl

/-- Masking commutes with taking off the blanks that markup starts with. -/
theorem trimStart_maskPieces (pieces : List Piece) (number : Nat) :
    trimStart (maskPieces number pieces) = maskPieces number (pieces.dropWhile isBlankPiece) := by
  induction pieces with
  | nil => rfl
  | cons piece pieces ih =>
    cases piece with
    | inl c =>
      by_cases blank : isBlank c = true
      · simpa [maskPieces, isBlankPiece, blank, trimStart] using ih
      · simp [maskPieces, isBlankPiece, blank, trimStart]
    | inr expression => rfl

/-- The injection of a class in terms of the pieces of the markup: the class is put on the masked
tag that the markup starts with. -/
theorem injectClass_eq (body scope : String) :
    injectClass body scope = (openingPieces? (readExpression.pieces body.toList)).map
      fun (blanks, tag, rest) => String.ofList (unmask (written blanks ++
        classTag scope.toList (maskPieces 0 tag) ++ maskPieces (expressionsOf tag).length rest)
          (expressions body.toList)) := by
  have outside : IsQuote none := nofun
  simp only [injectClass, openingPieces?]
  rw [mask, trimStart_maskPieces, takeWhile_maskPieces]
  generalize (readExpression.pieces body.toList).dropWhile isBlankPiece = behind
  cases behind with
  | nil => rfl
  | cons piece more =>
    cases piece with
    | inr expression => rfl
    | inl c =>
      by_cases bracket : c = '<'
      · subst bracket
        have cuts : cutTag none (maskPieces 0 (.inl '<' :: more)) = _ :=
          cutTag_maskPieces outside 0
        rw [maskPieces] at cuts
        simp only [maskPieces, cuts, Option.map_map, Nat.zero_add]
        rfl
      · simp [maskPieces, bracket]

/-- Pieces start with a tag just if they are blanks and then a `<` and the pieces up to the first
`>` outside of quotes. -/
theorem openingPieces?_eq_some_iff : openingPieces? pieces = some (blanks, tag, rest) ↔
    pieces = blanks ++ (tag ++ .inl '>' :: rest) ∧ (∀ piece ∈ blanks, isBlankPiece piece = true) ∧
      tag.head? = some (.inl '<') ∧ quoteBehind none tag = some none := by
  constructor
  · intro opens
    unfold openingPieces? at opens
    split at opens
    · rename_i more behind
      obtain ⟨⟨found, after⟩, cuts, same⟩ := Option.map_eq_some_iff.1 opens
      simp only [Prod.mk.injEq] at same
      obtain ⟨rfl, rfl, rfl⟩ := same
      obtain ⟨whole, passes⟩ := cutTagPieces_eq_some_iff.1 cuts
      refine ⟨?_, List.all_eq_true.1 List.all_takeWhile, ?_, passes⟩
      · rw [← whole, ← behind, List.takeWhile_append_dropWhile]
      · cases found with
        | nil => exact nomatch whole
        | cons first found =>
          obtain ⟨rfl, -⟩ := List.cons.inj whole
          rfl
    · exact nomatch opens
  · rintro ⟨rfl, blank, head, passes⟩
    obtain ⟨more, rfl⟩ : ∃ more, tag = .inl '<' :: more := List.head?_eq_some_iff.1 head
    have bracket : isBlankPiece (.inl '<') = false := by decide
    have cuts : cutTagPieces none (.inl '<' :: more ++ .inl '>' :: rest) = _ :=
      cutTagPieces_eq_some_iff.2 ⟨rfl, passes⟩
    have front : (blanks ++ (.inl '<' :: more ++ .inl '>' :: rest)).takeWhile isBlankPiece =
        blanks := by
      rw [List.takeWhile_append_of_pos blank, List.cons_append,
        List.takeWhile_cons_of_neg (by simp [bracket]), List.append_nil]
    have behind : (blanks ++ (.inl '<' :: more ++ .inl '>' :: rest)).dropWhile isBlankPiece =
        .inl '<' :: (more ++ .inl '>' :: rest) := by
      rw [List.dropWhile_append_of_pos blank, List.cons_append,
        List.dropWhile_cons_of_neg (by simp [bracket])]
    rw [List.cons_append] at cuts
    rw [openingPieces?, front, behind]
    simp only [cuts, Option.map_some]

/-- Without a tag to start with, markup gets no class. -/
theorem injectClass_eq_none_iff {body scope : String} :
    injectClass body scope = none ↔ openingTag? body.toList = none := by
  rw [injectClass_eq, openingTag?, Option.map_eq_none_iff, Option.map_eq_none_iff]

variable {body scope : String}

/-- Markup that starts with a tag gets a class on it, and its other pieces are left as they
are. -/
theorem exists_injectClass (tame : Tame scope.toList)
    (free : Unmarked (textsOf (readExpression.pieces body.toList)))
    (opens : openingPieces? (readExpression.pieces body.toList) = some (blanks, tag, rest))
    (legible : Legible (tag ++ [.inl '>'])) :
    ∃ before edited, maskPieces 0 before = classFront (maskPieces 0 tag) ∧
      Classed scope.toList before (tag ++ [.inl '>']) edited ∧
      Edits (readExpression.pieces body.toList) (blanks ++ edited ++ rest) ∧
      injectClass body scope = some (String.ofList (written (blanks ++ edited ++ rest))) := by
  obtain ⟨before, edited, put, front, classed⟩ :=
    @exists_classed _ _ scope.toList _ legible (rfl : maskPieces 0 tag = _)
  obtain ⟨whole, blank, -, -⟩ := openingPieces?_eq_some_iff.1 opens
  have shape : readExpression.pieces body.toList = blanks ++ (tag ++ [.inl '>']) ++ rest := by
    rw [whole]
    simp
  have edits : Edits (readExpression.pieces body.toList) (blanks ++ edited ++ rest) :=
    shape ▸ (classed.edits tame).between blanks rest
  have count : expressionsOf edited = expressionsOf tag := by
    rw [(classed.edits tame).keeps.expressions, expressionsOf_append]
    exact List.append_nil _
  have masked : written blanks ++ maskPieces 0 edited ++
      maskPieces (expressionsOf tag).length rest = maskPieces 0 (blanks ++ edited ++ rest) := by
    have text := eq_plain_of_isBlankPiece blank
    rw [text, maskPieces_append, maskPieces_append, maskPieces_plain, expressionsOf_append,
      expressionsOf_plain, count, written_plain, List.nil_append, List.length_nil, Nat.zero_add,
      Nat.zero_add]
  refine ⟨before, edited, front, classed, edits, ?_⟩
  have listed : (expressionsOf (readExpression.pieces body.toList)).drop 0 =
      expressionsOf (blanks ++ edited ++ rest) := edits.keeps.expressions.symm
  rw [injectClass_eq, opens]
  simp only [Option.map_some, put, masked, expressions_eq,
    unmask_maskPieces (edits.keeps.unmarked free) listed]

/-- The pieces of an opening tag are those that the markup has there. -/
theorem exists_openingPieces {markup : List Char} {opening : OpeningTag}
    (found : openingTag? markup = some opening) :
    ∃ blanks tag rest, openingPieces? (readExpression.pieces markup) = some (blanks, tag, rest) ∧
      opening = ⟨written blanks, written (tag ++ [.inl '>']), written rest⟩ ∧
      readExpression.pieces opening.tag = tag ++ [.inl '>'] := by
  obtain ⟨⟨blanks, tag, rest⟩, opens, rfl⟩ := Option.map_eq_some_iff.1 found
  obtain ⟨whole, -, -, -⟩ := openingPieces?_eq_some_iff.1 opens
  have told : Told (blanks ++ ((tag ++ [.inl '>']) ++ rest)) [] := by
    have shape : blanks ++ ((tag ++ [.inl '>']) ++ rest) = readExpression.pieces markup := by
      rw [whole]
      simp
    exact shape ▸ told_pieces markup
  have here : Told (tag ++ [.inl '>']) ([] ++ (written rest ++ [])) :=
    (told_append.1 (told_append.1 told).2).1
  have text : written tag ++ ['>'] = written (tag ++ [.inl '>']) :=
    (written_append tag [.inl '>']).symm
  refine ⟨blanks, tag, rest, opens, ?_, ?_⟩
  · simp only [text]
  · simpa only [text] using here.shorten.read

/-- Markup is what is in front of its opening tag, the tag and what is behind. -/
theorem eq_append_of_openingTag? {markup : List Char} {opening : OpeningTag}
    (found : openingTag? markup = some opening) :
    markup = opening.blanks ++ opening.tag ++ opening.rest := by
  obtain ⟨blanks, tag, rest, opens, rfl, -⟩ := exists_openingPieces found
  obtain ⟨whole, -, -, -⟩ := openingPieces?_eq_some_iff.1 opens
  rw [← written_append, ← written_append, ← written_pieces markup, whole]
  simp

/-- Markup that starts with a tag gets a class on it, and starts with that tag then. -/
theorem exists_injects {opening : OpeningTag} (plainClass : PlainClass scope.toList)
    (free : ¬ placeholderHead <:+: body.toList) (found : openingTag? body.toList = some opening)
    (legible : Legible (readExpression.pieces opening.tag)) :
    ∃ before tag edited, Injects body scope opening before tag edited := by
  obtain ⟨blanks, tag, rest, opens, rfl, read⟩ := exists_openingPieces found
  rw [read] at legible
  obtain ⟨whole, blank, head, passes⟩ := openingPieces?_eq_some_iff.1 opens
  have unmarked : Unmarked (textsOf (readExpression.pieces body.toList)) :=
    unmarked_textsOf (by rwa [written_pieces])
  obtain ⟨before, edited, front, classed, edits, made⟩ :=
    exists_injectClass plainClass.tame unmarked opens legible
  have toldTag : Told (tag ++ [.inl '>']) [] := read ▸ told_pieces _
  have toldEdited : Told edited [] := (classed.edits plainClass.tame).keeps.told [] toldTag
  have toldWhole : Told (blanks ++ edited ++ rest) [] := edits.keeps.told [] (told_pieces _)
  have text : written (blanks ++ edited ++ rest) =
      written blanks ++ written edited ++ written rest := by
    rw [written_append, written_append]
  -- The tag with the class on it starts and ends as the tag does.
  obtain ⟨shown, rfl, passesShown⟩ := classed.exists_tag plainClass.neutral passes
  have headBefore : before.head? = some (.inl '<') := by
    obtain ⟨more, rfl⟩ := List.head?_eq_some_iff.1 head
    exact classed.head rfl
  have headShown : shown.head? = some (.inl '<') := by
    obtain ⟨first, starts⟩ := List.head?_eq_some_iff.1 headBefore
    obtain ⟨behind, same⟩ := classed.exists_append
    rw [starts, List.cons_append] at same
    cases shown with
    | nil => exact nomatch same
    | cons piece shown =>
      obtain ⟨rfl, -⟩ := List.cons.inj same
      rfl
  have opensEdited : openingPieces? (blanks ++ (shown ++ [.inl '>']) ++ rest) =
      some (blanks, shown, rest) :=
    openingPieces?_eq_some_iff.2 ⟨by simp, blank, headShown, passesShown⟩
  refine ⟨before, tag, _, read, headBefore, front, classed, toldEdited.read, ?_, ?_⟩
  · rw [made, text]
  · have last : written (shown ++ [.inl '>']) = written shown ++ ['>'] :=
      written_append shown [.inl '>']
    rw [← text, openingTag?, toldWhole.read, opensEdited, last]
    rfl

/-- The expressions in the tag that markup starts with: as many of its first ones as there are
placeholders in the tag. -/
def openingExpressions (markup : List Char) : List (List Char) :=
  match cutTag none (trimStart (mask markup)) with
  | some (tag, _) => (expressions markup).take (readPlaceholder.all tag).length
  | none => []

/-- The expressions in the tag that markup starts with are those of its pieces. -/
theorem openingExpressions_eq {markup : List Char}
    (free : Unmarked (textsOf (readExpression.pieces markup)))
    (opens : openingPieces? (readExpression.pieces markup) = some (blanks, tag, rest)) :
    openingExpressions markup = expressionsOf tag := by
  have outside : IsQuote none := nofun
  obtain ⟨whole, blank, head, passes⟩ := openingPieces?_eq_some_iff.1 opens
  obtain ⟨more, rfl⟩ : ∃ more, tag = .inl '<' :: more := List.head?_eq_some_iff.1 head
  have bracket : isBlankPiece (.inl '<') = false := by decide
  have behind : (readExpression.pieces markup).dropWhile isBlankPiece =
      .inl '<' :: more ++ .inl '>' :: rest := by
    rw [whole, List.dropWhile_append_of_pos blank, List.cons_append,
      List.dropWhile_cons_of_neg (by simp [bracket])]
  have cuts := cutTagPieces_eq_some_iff.2 ⟨behind, passes⟩
  have unmarked : Unmarked (textsOf (.inl '<' :: more)) := by
    refine free.within ⟨textsOf blanks, textsOf (.inl '>' :: rest), ?_⟩
    rw [whole, textsOf_append, textsOf_append, List.append_assoc]
  rw [openingExpressions, mask, trimStart_maskPieces, cutTag_maskPieces outside, cuts]
  simp only [Option.map_some, length_all_maskPieces unmarked]
  rw [expressions_eq, whole, eq_plain_of_isBlankPiece blank, expressionsOf_append,
    expressionsOf_plain, List.nil_append, expressionsOf_append, List.take_left]

/-- A class is injected by edits of the pieces up to the end of the tag that the markup starts
with. -/
theorem injectClass_edits {markup : String} (tame : Tame scope.toList)
    (free : Unreserved (textsOf (readExpression.pieces body.toList)))
    (injected : injectClass body scope = some markup) :
    ∃ opening edited rest, readExpression.pieces body.toList = opening ++ rest ∧
      expressionsOf opening = openingExpressions body.toList ∧ Edits opening edited ∧
      markup.toList = written (edited ++ rest) := by
  cases opens : openingPieces? (readExpression.pieces body.toList) with
  | none =>
    rw [injectClass_eq, opens] at injected
    exact nomatch injected
  | some parts =>
    obtain ⟨blanks, tag, rest⟩ := parts
    obtain ⟨whole, blank, -, -⟩ := openingPieces?_eq_some_iff.1 opens
    have shape : readExpression.pieces body.toList = blanks ++ (tag ++ [.inl '>']) ++ rest := by
      rw [whole]
      simp
    have legible : Legible (tag ++ [.inl '>']) := (shape ▸ free.legible).within
    obtain ⟨before, edited, -, classed, -, made⟩ :=
      exists_injectClass tame free.unmarked opens legible
    refine ⟨blanks ++ (tag ++ [.inl '>']), blanks ++ edited, rest, shape, ?_, ?_, ?_⟩
    · rw [openingExpressions_eq free.unmarked opens, eq_plain_of_isBlankPiece blank,
        expressionsOf_append, expressionsOf_plain, expressionsOf_append]
      exact List.append_nil _
    · have edits := (classed.edits tame).between blanks []
      simpa only [List.append_nil] using edits
    · obtain rfl := Option.some.inj (injected.symm.trans made)
      rw [String.toList_ofList]

end Opening

end ComponentPages.Markup
