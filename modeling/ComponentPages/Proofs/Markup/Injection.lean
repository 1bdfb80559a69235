import ComponentPages.Proofs.Markup.Masking
import Mathlib.Logic.Relation

/-!
# Injection of a class

What a class on a tag changes of it. The class is put in front of the value of a class attribute,
or with an attribute of its own at the end of the tag (`Classed`): these are edits of the texts of
the tag, never of an expression, and what is put there starts with a character that keeps it apart
from the text in front (`Edit`). Edits keep the expressions and what tells the pieces from each
other (`Keeps`), so all of it is kept by putting a class on a tag (`exists_classed`,
`Classed.edits`).
-/
namespace ComponentPages.Markup

open Text

/-- No text among pieces starts like an expression, where the given text follows the pieces. -/
def Apart : List Piece → List Char → Prop
  | [], _ => True
  | .inl c :: pieces, rest => ¬ ['{', '{'] <+: c :: (written pieces ++ rest) ∧ Apart pieces rest
  | .inr _ :: pieces, rest => Apart pieces rest

/-- A text that is no part of an expression or of a placeholder. -/
structure Tame (text : List Char) : Prop where
  brace : '{' ∉ text
  closing : '}' ∉ text
  underscore : '_' ∉ text

/-- A text that can be put between any others: its first character keeps it apart from the text
in front. -/
structure Framed (text : List Char) : Prop extends Tame text where
  front : ∃ c rest, text = c :: rest ∧ separates c = true

/-- A text among pieces is replaced by a framed one. -/
inductive Edit : List Piece → List Piece → Prop where
  | replace (before after : List Piece) (old : List Char) {new : List Char}
    (framed : Framed new) : Edit (before ++ plain old ++ after) (before ++ plain new ++ after)

/-- Texts among pieces are replaced by framed ones, one after the other. -/
abbrev Edits : List Piece → List Piece → Prop := Relation.ReflTransGen Edit

/-- What edits of pieces keep: the expressions, that no text starts like a placeholder or like an
expression, and that the pieces are told from each other. -/
structure Keeps (pieces edited : List Piece) : Prop where
  expressions : expressionsOf edited = expressionsOf pieces
  unmarked : Unmarked (textsOf pieces) → Unmarked (textsOf edited)
  apart : ∀ rest, Apart pieces rest → Apart edited rest
  told : ∀ rest, Told pieces rest → Told edited rest

section Edits

variable {pieces others edited before after : List Piece} {text rest other left old new : List Char}

/-- Pieces that follow each other are apart if each are from what follows them. -/
theorem apart_append : Apart (pieces ++ others) rest ↔
    Apart pieces (written others ++ rest) ∧ Apart others rest := by
  induction pieces with
  | nil => exact ⟨fun apart => ⟨trivial, apart⟩, And.right⟩
  | cons piece pieces ih =>
    cases piece with
    | inl c =>
      show (¬ ['{', '{'] <+: c :: (written (pieces ++ others) ++ rest) ∧
          Apart (pieces ++ others) rest) ↔
        (¬ ['{', '{'] <+: c :: (written pieces ++ (written others ++ rest)) ∧ _) ∧ _
      rw [ih, written_append, List.append_assoc, and_assoc]
    | inr expression => exact ih

/-- Pieces are as much apart from a text as from one that starts without a brace. -/
theorem Apart.of_head (apart : Apart pieces rest) (head : other.head? ≠ some '{') :
    Apart pieces other := by
  induction pieces with
  | nil => trivial
  | cons piece pieces ih =>
    cases piece with
    | inl c =>
      refine ⟨?_, ih apart.2⟩
      rintro ⟨after, starts⟩
      obtain ⟨rfl, second⟩ := List.cons.inj starts
      cases next : written pieces with
      | nil =>
        rw [next] at second
        change '{' :: after = other at second
        exact head (second ▸ rfl)
      | cons first later =>
        rw [next] at second
        obtain ⟨rfl, -⟩ := List.cons.inj second
        exact apart.1 ⟨later ++ rest, by rw [next]; rfl⟩
    | inr expression => exact ih apart

/-- A text without an opening brace is apart from everything. -/
theorem apart_plain (free : '{' ∉ text) : Apart (plain text) rest := by
  induction text with
  | nil => trivial
  | cons c text ih =>
    obtain ⟨here, later⟩ := not_or.1 (mt List.mem_cons.2 free)
    refine ⟨?_, ih later⟩
    rintro ⟨after, starts⟩
    exact here (List.cons.inj starts).1

/-- Where nothing is read as an expression, nothing is after a framed text takes the place of
another. -/
theorem Framed.unread {c : Char} (framed : Framed new)
    (unread : readExpression (c :: (left ++ (old ++ rest))) = none) :
    readExpression (c :: (left ++ (new ++ rest))) = none := by
  obtain ⟨first, tail, rfl, -⟩ := framed.front
  obtain ⟨opening, -⟩ := not_or.1 (mt List.mem_cons.2 framed.brace)
  obtain ⟨closing, later⟩ := not_or.1 (mt List.mem_cons.2 framed.closing)
  refine readExpression_eq_none_iff.2 fun body same inside => ?_
  cases left with
  | nil =>
    obtain ⟨-, second⟩ := List.cons.inj same
    exact opening (List.cons.inj second).1.symm
  | cons second left =>
    obtain ⟨rfl, starts⟩ := List.cons.inj same
    obtain ⟨rfl, rfl⟩ := List.cons.inj starts
    refine readExpression_eq_none_iff.1 unread (left ++ (old ++ rest)) rfl ?_
    rcases infix_append_cons (by simpa using Ne.symm closing) inside with before | behind
    · exact before.trans (List.prefix_append _ _).isInfix
    · refine (infix_of_infix_append later behind).trans ?_
      rw [← List.append_assoc]
      exact (List.suffix_append _ _).isInfix

/-- Pieces are told from each other also after a framed text takes the place of the text that
follows them. -/
theorem Told.replace (told : Told pieces (old ++ rest)) (framed : Framed new) :
    Told pieces (new ++ rest) := by
  induction pieces with
  | nil => trivial
  | cons piece pieces ih =>
    cases piece with
    | inl c => exact ⟨framed.unread told.1, ih told.2⟩
    | inr expression => exact ⟨told.1, ih told.2⟩

/-- An edit has the same expressions. -/
theorem Edit.expressions (edit : Edit pieces edited) :
    expressionsOf edited = expressionsOf pieces := by
  obtain ⟨before, after, old, framed⟩ := edit
  simp only [expressionsOf_append, expressionsOf_plain]

/-- An edit adds no reserved text. -/
theorem Edit.unmarked (edit : Edit pieces edited) (free : Unmarked (textsOf pieces)) :
    Unmarked (textsOf edited) := by
  obtain ⟨before, after, old, framed⟩ := edit
  obtain ⟨c, tail, rfl, apart⟩ := framed.front
  simp only [textsOf_append, textsOf_plain] at free ⊢
  have front : Unmarked (textsOf before) := free.within ⟨[], old ++ textsOf after, by simp⟩
  have back : Unmarked (textsOf after) := free.within ⟨textsOf before ++ old, [], by simp⟩
  rw [List.append_assoc]
  exact front.append apart (not_or.1 (mt List.mem_cons.2 framed.underscore)).2 back

/-- An edit adds no start of an expression. -/
theorem Edit.apart (edit : Edit pieces edited) (apart : Apart pieces rest) :
    Apart edited rest := by
  obtain ⟨before, after, old, framed⟩ := edit
  rw [List.append_assoc] at apart ⊢
  obtain ⟨front, back⟩ := apart_append.1 apart
  obtain ⟨-, last⟩ := apart_append.1 back
  refine apart_append.2 ⟨front.of_head ?_, apart_append.2 ⟨apart_plain framed.brace, last⟩⟩
  obtain ⟨c, tail, rfl, -⟩ := framed.front
  rw [written_append, written_plain]
  intro brace
  obtain rfl := Option.some.inj brace
  exact framed.brace List.mem_cons_self

/-- An edit leaves the pieces told from each other. -/
theorem Edit.told (edit : Edit pieces edited) (told : Told pieces rest) : Told edited rest := by
  obtain ⟨before, after, old, framed⟩ := edit
  rw [List.append_assoc] at told ⊢
  obtain ⟨front, back⟩ := told_append.1 told
  obtain ⟨-, last⟩ := told_append.1 back
  refine told_append.2 ⟨?_, told_append.2 ⟨told_plain framed.brace, last⟩⟩
  rw [written_append, written_plain, List.append_assoc] at front ⊢
  exact front.replace framed

/-- An edit can be made between any other pieces. -/
theorem Edit.between (edit : Edit pieces edited) (before after : List Piece) :
    Edit (before ++ pieces ++ after) (before ++ edited ++ after) := by
  obtain ⟨front, back, old, framed⟩ := edit
  have inner (text : List Char) : before ++ (front ++ plain text ++ back) ++ after =
      before ++ front ++ plain text ++ (back ++ after) := by simp only [List.append_assoc]
  rw [inner, inner]
  exact .replace _ _ old framed

/-- Edits have the same expressions, add neither reserved text nor starts of expressions, and
leave the pieces told from each other. -/
theorem Edits.keeps (edits : Edits pieces edited) : Keeps pieces edited := by
  induction edits with
  | refl => exact ⟨rfl, id, fun _ => id, fun _ => id⟩
  | tail _ edit ih =>
    exact ⟨edit.expressions.trans ih.expressions, edit.unmarked ∘ ih.unmarked,
      fun rest => edit.apart ∘ ih.apart rest, fun rest => edit.told ∘ ih.told rest⟩

/-- Edits can be made between any other pieces. -/
theorem Edits.between (edits : Edits pieces edited) (before after : List Piece) :
    Edits (before ++ pieces ++ after) (before ++ edited ++ after) := by
  induction edits with
  | refl => exact .refl
  | tail _ edit ih => exact ih.tail (edit.between before after)

end Edits

/-- A text without the characters that begin or end something in a tag, or a placeholder. -/
def Neutral (text : List Char) : Prop := ∀ c ∈ text, c ∉ ['"', '\'', '<', '>', '/', '_']

section Reading

variable {text after : List Char}

/-- Neutral texts one after the other are neutral. -/
theorem Neutral.append {others : List Char} (first : Neutral text) (second : Neutral others) :
    Neutral (text ++ others) := List.forall_mem_append.2 ⟨first, second⟩

/-- Blanks are neutral. -/
theorem neutral_of_isBlank (blank : ∀ c ∈ text, isBlank c = true) : Neutral text := by
  have filled : ∀ c ∈ ['"', '\'', '<', '>', '/', '_'], isBlank c = false :=
    List.all_iff_forall_prop.1 (by decide)
  exact fun c member listed => nomatch (blank c member).symm.trans (filled c listed)

/-- A quoted value stands between two quotes of one kind, and does not have the quote. -/
theorem readQuoted_eq_some {quote : Char} {value : List Char}
    (read : readQuoted text = some ((quote, value), after)) :
    (quote = '"' ∨ quote = '\'') ∧ quote ∉ value ∧ text = quote :: value ++ quote :: after := by
  unfold readQuoted at read
  split at read
  · obtain ⟨⟨inner, tail⟩, found, same⟩ := Option.map_eq_some_iff.1 read
    simp only [Prod.mk.injEq] at same
    obtain ⟨⟨rfl, rfl⟩, rfl⟩ := same
    exact ⟨.inl rfl, not_mem_of_cut found, by rw [eq_append_of_cut found]; simp⟩
  · obtain ⟨⟨inner, tail⟩, found, same⟩ := Option.map_eq_some_iff.1 read
    simp only [Prod.mk.injEq] at same
    obtain ⟨⟨rfl, rfl⟩, rfl⟩ := same
    exact ⟨.inr rfl, not_mem_of_cut found, by rw [eq_append_of_cut found]; simp⟩
  · exact nomatch read

/-- What is trimmed off the front of a text is blank. -/
theorem eq_append_trimStart (text : List Char) :
    ∃ blanks, text = blanks ++ trimStart text ∧ ∀ c ∈ blanks, isBlank c = true :=
  ⟨text.takeWhile isBlank, List.takeWhile_append_dropWhile.symm,
    List.all_eq_true.1 List.all_takeWhile⟩

/-- A class attribute is a blank, a neutral text and a value. -/
theorem readSpacedClass_eq_some {α : Type} {value : Reader α} {c : Char} {item : α}
    (read : readSpacedClass value text = some ((c, item), after)) :
    ∃ name rest, text = c :: name ++ rest ∧ isBlank c = true ∧ Neutral name ∧
      value rest = some (item, after) := by
  cases text with
  | nil => cases read
  | cons first text =>
    simp only [readSpacedClass] at read
    split at read
    case isFalse => cases read
    case isTrue blank =>
      obtain ⟨⟨found, tail⟩, reads, same⟩ := Option.map_eq_some_iff.1 read
      simp only [Prod.mk.injEq] at same
      obtain ⟨⟨rfl, rfl⟩, rfl⟩ := same
      obtain ⟨rest, word, assigned⟩ := Option.bind_eq_some_iff.1 reads
      obtain ⟨letters, rfl, folds⟩ := eq_append_of_afterFolded word
      have lettered : Neutral letters := by
        intro c member listed
        obtain ⟨letter, among, same⟩ := folds c member
        have none : ∀ c ∈ ['"', '\'', '<', '>', '/', '_'],
            ("class".toList.all fun letter => !foldsTo letter c) = true :=
          List.all_iff_forall_prop.1 (by decide)
        have other := List.all_eq_true.1 (none c listed) letter among
        simp [same] at other
      obtain ⟨blanks, spaced, free⟩ := eq_append_trimStart rest
      split at assigned
      case h_2 => cases assigned
      case h_1 after equals =>
        obtain ⟨others, spacedThen, freeThen⟩ := eq_append_trimStart after
        rw [equals, spacedThen] at spaced
        have sign : Neutral ['='] := by simp [Neutral]
        refine ⟨letters ++ blanks ++ ['='] ++ others, trimStart after, ?_, blank, ?_, assigned⟩
        · rw [spaced]
          simp
        · exact ((lettered.append (neutral_of_isBlank free)).append sign).append
            (neutral_of_isBlank freeThen)

end Reading

/-- The part of a masked tag in front of the place where a class is put. -/
def classFront (tag : List Char) : List Char :=
  match (readSpacedClass readClassValue).first (tag ++ ['>']) with
  | some found => found.before
  | none => trimEnd (if tag.getLast? = some '/' then tag.dropLast else tag)

/-- The ways in which a class is put on the pieces of a tag behind the first ones. -/
inductive Classed (scope : List Char) (before : List Piece) : List Piece → List Piece → Prop where
  /-- The class is put in front of a quoted value. -/
  | value {c quote : Char} {name : List Char} {value : List Piece} (last : List Piece)
    (blank : isBlank c = true) (neutral : Neutral name) (quotes : quote = '"' ∨ quote = '\'')
    (absent : .inl quote ∉ value) :
    Classed scope before (before ++ plain (c :: name ++ [quote]) ++ (value ++ .inl quote :: last))
      (before ++ plain (c :: "class=".toList ++ quote :: scope ++ [' ']) ++
        (value ++ .inl quote :: last))
  /-- The class is put in place of a blank value. -/
  | blanks {c quote : Char} {name blanks : List Char} (last : List Piece)
    (blank : isBlank c = true) (neutral : Neutral name) (quotes : quote = '"' ∨ quote = '\'')
    (allBlank : ∀ c ∈ blanks, isBlank c = true) :
    Classed scope before (before ++ plain (c :: name ++ quote :: blanks ++ [quote]) ++ last)
      (before ++ plain (c :: "class=".toList ++ quote :: scope ++ [quote]) ++ last)
  /-- The class is put in front of a value without quotes, which gets them. -/
  | bare {c : Char} {name : List Char} {value : List Piece} (last : List Piece)
    (blank : isBlank c = true) (neutral : Neutral name)
    (unquoted : ∀ c, .inl c ∈ value → separates c = false) :
    Classed scope before (before ++ plain (c :: name) ++ (value ++ last))
      (before ++ plain (c :: "class=\"".toList ++ scope ++ [' ']) ++ (value ++ .inl '"' :: last))
  /-- The class is put at the end, in place of the blanks there. -/
  | added {blanks tail : List Char} (allBlank : ∀ c ∈ blanks, isBlank c = true)
    (ends : tail = ['>'] ∨ tail = ['/', '>']) :
    Classed scope before (before ++ plain blanks ++ plain tail)
      (before ++ plain (' ' :: "class=\"".toList ++ scope ++ ['"']) ++ plain tail)

section Class

variable {pieces edited before : List Piece} {number : Nat} {scope : List Char} {c quote : Char}

/-- Tame texts one after the other are tame. -/
theorem Tame.append {text other : List Char} (first : Tame text) (second : Tame other) :
    Tame (text ++ other) :=
  ⟨List.not_mem_append first.brace second.brace,
    List.not_mem_append first.closing second.closing,
    List.not_mem_append first.underscore second.underscore⟩

/-- A blank is tame. -/
theorem tame_of_isBlank (blank : isBlank c = true) : Tame [c] := by
  have filled : ∀ other ∈ ['{', '}', '_'], isBlank other = false :=
    List.all_iff_forall_prop.1 (by decide)
  have other (sign : Char) (listed : sign ∈ ['{', '}', '_']) : sign ∉ [c] := fun member =>
    nomatch ((List.mem_singleton.1 member) ▸ blank).symm.trans (filled sign listed)
  exact ⟨other _ (by simp), other _ (by simp), other _ (by simp)⟩

/-- A tame text that starts with a separator is framed. -/
theorem Tame.framed {text : List Char} (tame : Tame (c :: text)) (first : separates c = true) :
    Framed (c :: text) :=
  ⟨tame, ⟨c, text, rfl, first⟩⟩

/-- A blank with the name of a class attribute, a class and a last character is framed. -/
theorem framed_class (tame : Tame scope) (blank : isBlank c = true)
    (quotes : quote = '"' ∨ quote = '\'') {last : Char} (ends : last ∈ [' ', '"', '\'']) :
    Framed (c :: "class=".toList ++ quote :: scope ++ [last]) := by
  have name : Tame "class=".toList := ⟨by decide, by decide, by decide⟩
  have others : ∀ sign ∈ [' ', '"', '\''], sign ∉ ['{', '}', '_'] :=
    List.all_iff_forall_prop.1 (by decide)
  have tameSign {sign : Char} (listed : sign ∈ [' ', '"', '\'']) : Tame [sign] := by
    have other := others _ listed
    simp only [List.mem_cons, List.not_mem_nil, or_false, not_or] at other
    obtain ⟨first, second, third⟩ := other
    exact ⟨by simp [Ne.symm first], by simp [Ne.symm second], by simp [Ne.symm third]⟩
  have quoted : quote ∈ [' ', '"', '\''] := by rcases quotes with rfl | rfl <;> decide
  have whole := (tame_of_isBlank blank).append
    (name.append ((tameSign quoted).append (tame.append (tameSign ends))))
  have shape : c :: "class=".toList ++ quote :: scope ++ [last] =
      [c] ++ ("class=".toList ++ ([quote] ++ (scope ++ [last]))) := by simp
  rw [shape]
  exact whole.framed (separates_of_isBlank blank)

/-- A class is put on a tag by edits. -/
theorem Classed.edits (classed : Classed scope before pieces edited) (tame : Tame scope) :
    Edits pieces edited := by
  cases classed with
  | value last blank neutral quotes absent =>
    exact .single (.replace before _ _ (framed_class tame blank quotes (by simp)))
  | @blanks c quote name blanks last blank neutral quotes allBlank =>
    refine .single (.replace before last _ (framed_class tame blank quotes ?_))
    rcases quotes with rfl | rfl <;> simp
  | @bare c name value last blank neutral unquoted =>
    have opening : Framed (c :: "class=\"".toList ++ scope ++ [' ']) :=
      framed_class tame blank (.inl rfl) (by simp)
    have closing : Framed ['"'] :=
      ⟨⟨by decide, by decide, by decide⟩, ⟨_, [], rfl, by decide⟩⟩
    have first := Edit.replace before (value ++ last) (c :: name) opening
    have second := Edit.replace (before ++ plain (c :: "class=\"".toList ++ scope ++ [' ']) ++
      value) last [] closing
    exact .tail (.single first) (by simpa [plain] using second)
  | added allBlank ends =>
    exact .single (.replace before _ _
      (framed_class tame (by decide : isBlank ' ' = true) (.inl rfl) (by simp)))

/-- What is put on a tag holds the class. -/
theorem Classed.scope_infix (classed : Classed scope before pieces edited) :
    scope <:+: written edited := by
  cases classed with
  | @value c quote name value last blank neutral quotes absent =>
    exact ⟨written before ++ (c :: "class=".toList ++ [quote]),
      [' '] ++ written (value ++ .inl quote :: last), by
        simp only [written_append, written_plain]; simp⟩
  | @blanks c quote name blanks last blank neutral quotes allBlank =>
    exact ⟨written before ++ (c :: "class=".toList ++ [quote]), [quote] ++ written last, by
      simp only [written_append, written_plain]; simp⟩
  | @bare c name value last blank neutral unquoted =>
    exact ⟨written before ++ (c :: "class=\"".toList),
      [' '] ++ written (value ++ .inl '"' :: last), by
        simp only [written_append, written_plain]; simp⟩
  | @added blanks tail allBlank ends =>
    exact ⟨written before ++ (' ' :: "class=\"".toList), ['"'] ++ tail, by
      simp only [written_append, written_plain]; simp⟩

/-- Where masked markup has blanks at its end, the markup has them. -/
theorem exists_of_trimEnd {text : List Char} (masked : maskPieces number pieces = text) :
    ∃ front blanks, pieces = front ++ plain blanks ∧ (∀ c ∈ blanks, isBlank c = true) ∧
      maskPieces number front = trimEnd text := by
  obtain ⟨blanks, whole, blank⟩ := eq_trimEnd_append text
  rw [whole] at masked
  cases blanks with
  | nil =>
    rw [List.append_nil] at masked
    exact ⟨pieces, [], (List.append_nil pieces).symm, nofun, masked⟩
  | cons c blanks =>
    obtain ⟨here, later⟩ := List.forall_mem_cons.1 blank
    obtain ⟨front, back, rfl, before, after⟩ :=
      split_of_maskPieces (isPlaceholderChar_of_isBlank here) masked
    have free : '_' ∉ blanks := fun member => absurd (later _ member) (by decide)
    obtain rfl := eq_plain_of_maskPieces free after
    exact ⟨front, c :: blanks, rfl, blank, before⟩

/-- A class at the end of a text is put in place of the blanks there. -/
theorem exists_added {head tail : List Char} (ends : tail = ['>'] ∨ tail = ['/', '>'])
    (masked : maskPieces number pieces = head) :
    ∃ before edited, trimEnd head ++ " class=\"".toList ++ scope ++ '"' :: tail =
        maskPieces number edited ∧ maskPieces number before = trimEnd head ∧
      Classed scope before (pieces ++ plain tail) edited := by
  obtain ⟨front, blanks, rfl, blank, before⟩ := exists_of_trimEnd masked
  refine ⟨front, _, ?_, before, .added blank ends⟩
  rw [maskPieces_append_plain, before, maskPieces_plain]
  simp

/-- A class is put at the end of a tag. -/
theorem exists_classed_end {tag : List Char} (masked : maskPieces number pieces = tag) :
    ∃ before edited, appendClass scope tag = maskPieces number edited ∧
      maskPieces number before =
        trimEnd (if tag.getLast? = some '/' then tag.dropLast else tag) ∧
      Classed scope before (pieces ++ [.inl '>']) edited := by
  unfold appendClass
  by_cases closed : tag.getLast? = some '/'
  · obtain ⟨head, rfl⟩ := List.getLast?_eq_some_iff.1 closed
    obtain ⟨front, after, rfl, headed, rest⟩ := split_of_maskPieces (by decide) masked
    obtain rfl : after = plain [] := eq_plain_of_maskPieces (by simp) rest
    obtain ⟨before, edited, same, start, classed⟩ := @exists_added _ _ scope _ _ (.inr rfl) headed
    have shape : front ++ .inl '/' :: plain [] ++ [.inl '>'] = front ++ plain ['/', '>'] := by
      rw [List.append_assoc]
      rfl
    refine ⟨before, edited, ?_, ?_, shape ▸ classed⟩
    · rw [← same]
      simp
    · rw [start, if_pos closed, List.dropLast_concat]
  · obtain ⟨before, edited, same, start, classed⟩ := @exists_added _ _ scope _ _ (.inl rfl) masked
    refine ⟨before, edited, ?_, ?_, classed⟩
    · rw [← same]
      simp [closed]
    · rw [start, if_neg closed]

/-- A class is written in front of a quoted value. -/
theorem writeClass_quoted (scope : List Char) (quote : Char) (value : List Char) :
    writeClass scope (.quoted quote value) =
      "class=".toList ++ quote :: joinClass scope value ++ [quote] := by rfl

/-- A class is written in front of an expression, which gets quotes. -/
theorem writeClass_masked (scope placeholder : List Char) :
    writeClass scope (.masked placeholder) =
      "class=\"".toList ++ scope ++ ' ' :: placeholder ++ ['"'] := by rfl

/-- A class is put in front of a quoted value. -/
theorem exists_classed_quoted {name value after : List Char} (before : List Piece)
    (blank : isBlank c = true) (neutral : Neutral name) (quotes : quote = '"' ∨ quote = '\'')
    (absent : quote ∉ value)
    (masked : maskPieces number pieces = quote :: value ++ quote :: after) :
    ∃ edited, writeClass scope (.quoted quote value) ++ after = maskPieces number edited ∧
      Classed scope before (before ++ plain (c :: name) ++ pieces)
        (before ++ .inl c :: edited) := by
  have other : isPlaceholderChar quote = false ∧ quote ≠ '_' := by
    rcases quotes with rfl | rfl <;> decide
  obtain ⟨inside, rfl, rest⟩ := eq_plain_append_of_maskPieces
    (show '_' ∉ [quote] by simpa using Ne.symm other.2) (show _ = [quote] ++ _ from masked)
  obtain ⟨middle, last, rfl, inner, back⟩ := split_of_maskPieces other.1 rest
  by_cases empty : (trim value).isEmpty = true
  · have blanks : ∀ c ∈ value, isBlank c = true :=
      isBlank_of_trim_eq_nil (List.isEmpty_iff.1 empty)
    have free : '_' ∉ value := fun member => absurd (blanks _ member) (by decide)
    obtain rfl := eq_plain_of_maskPieces free inner
    rw [expressionsOf_plain] at back
    refine ⟨plain ("class=".toList ++ quote :: scope ++ [quote]) ++ last, ?_, ?_⟩
    · rw [maskPieces_append, maskPieces_plain, expressionsOf_plain, writeClass_quoted, joinClass,
        if_pos empty]
      exact congrArg (_ ++ ·) back.symm
    · have classed : Classed scope before _ _ := .blanks last blank neutral quotes blanks
      simpa [plain] using classed
  · have absentPiece : .inl quote ∉ middle := fun member => absent (inner ▸ mem_maskPieces member)
    refine ⟨plain ("class=".toList ++ quote :: scope ++ [' ']) ++
      (middle ++ .inl quote :: last), ?_, ?_⟩
    · rw [maskPieces_append, maskPieces_plain, expressionsOf_plain, maskPieces_append,
        writeClass_quoted, joinClass, if_neg empty]
      simp [maskPieces, inner, back]
    · have classed : Classed scope before _ _ := .value last blank neutral quotes absentPiece
      simpa [plain] using classed

/-- A value that is read as a placeholder is an expression or a text without separators. -/
theorem exists_value_of_readMasked {placeholder after : List Char} (legible : Legible pieces)
    (read : readMasked (maskPieces number pieces) = some (placeholder, after)) :
    ∃ value last, pieces = value ++ last ∧ maskPieces number value = placeholder ∧
      maskPieces (number + (expressionsOf value).length) last = after ∧
      ∀ c, .inl c ∈ value → separates c = false := by
  rcases readMasked_eq_some legible read with
    ⟨expression, last, rfl, rfl, rfl⟩ | ⟨last, rfl, rfl, letters⟩
  · exact ⟨[.inr expression], last, rfl, List.append_nil _, rfl, by simp⟩
  · refine ⟨plain placeholder, last, rfl, maskPieces_plain _ _, ?_, ?_⟩
    · rw [expressionsOf_plain]
      rfl
    · intro c member
      obtain ⟨letter, listed, same⟩ := List.mem_map.1 member
      exact Sum.inl.inj same ▸ letters letter listed

/-- A class is put in front of an expression, or of a text that reads like a placeholder. -/
theorem exists_classed_bare {name placeholder after : List Char} (before : List Piece)
    (blank : isBlank c = true) (neutral : Neutral name) (legible : Legible pieces)
    (read : readMasked (maskPieces number pieces) = some (placeholder, after)) :
    ∃ edited, writeClass scope (.masked placeholder) ++ after = maskPieces number edited ∧
      Classed scope before (before ++ plain (c :: name) ++ pieces)
        (before ++ .inl c :: edited) := by
  obtain ⟨value, last, rfl, shown, rest, unquoted⟩ := exists_value_of_readMasked legible read
  refine ⟨plain ("class=\"".toList ++ scope ++ [' ']) ++ (value ++ .inl '"' :: last), ?_, ?_⟩
  · rw [maskPieces_append, maskPieces_plain, expressionsOf_plain, writeClass_masked,
      maskPieces_append]
    simp [maskPieces, shown, rest]
  · have classed : Classed scope before _ _ := .bare last blank neutral unquoted
    simpa [plain] using classed

/-- A class is put on a tag in one of the ways. -/
theorem exists_classed {tag : List Char} (legible : Legible (pieces ++ [.inl '>']))
    (masked : maskPieces number pieces = tag) :
    ∃ before edited, classTag scope tag = maskPieces number edited ∧
      maskPieces number before = classFront tag ∧
      Classed scope before (pieces ++ [.inl '>']) edited := by
  unfold classTag classFront
  cases first : (readSpacedClass readClassValue).first (tag ++ ['>']) with
  | none => exact exists_classed_end masked
  | some found =>
    obtain ⟨front, ⟨c, value⟩, after⟩ := found
    obtain ⟨rest, whole, read⟩ := Reader.eq_append_of_first first
    obtain ⟨name, last, rfl, blank, neutral, reads⟩ := readSpacedClass_eq_some read
    have closed : maskPieces number (pieces ++ [.inl '>']) = front ++ c :: (name ++ last) := by
      rw [maskPieces_append, masked]
      exact whole
    generalize pieces ++ [.inl '>'] = opening at closed legible ⊢
    obtain ⟨before, behind, rfl, start, later⟩ :=
      split_of_maskPieces (isPlaceholderChar_of_isBlank blank) closed
    have plainName : '_' ∉ name := fun member => neutral _ member (by simp)
    obtain ⟨shown, rfl, valued⟩ := eq_plain_append_of_maskPieces plainName later
    have shape : before ++ .inl c :: (plain name ++ shown) =
        before ++ plain (c :: name) ++ shown := by simp [plain]
    rw [shape] at legible ⊢
    have put : ∃ edited, writeClass scope value ++ after =
        maskPieces (number + (expressionsOf before).length) edited ∧
          Classed scope before (before ++ plain (c :: name) ++ shown)
            (before ++ .inl c :: edited) := by
      unfold readClassValue at reads
      split at reads
      · rename_i quote inner tail quoted
        obtain ⟨rfl, rfl⟩ := Prod.mk.inj (Option.some.inj reads)
        obtain ⟨quotes, absent, text⟩ := readQuoted_eq_some quoted
        exact exists_classed_quoted before blank neutral quotes absent (valued.trans text)
      · obtain ⟨⟨placeholder, tail⟩, found, same⟩ := Option.map_eq_some_iff.1 reads
        obtain ⟨rfl, rfl⟩ := Prod.mk.inj same
        have rest : Legible (before ++ plain (c :: name) ++ shown ++ []) := by
          rwa [List.append_nil]
        exact exists_classed_bare before blank neutral rest.within (valued ▸ found)
    obtain ⟨edited, same, classed⟩ := put
    refine ⟨before, before ++ .inl c :: edited, ?_, start, classed⟩
    rw [maskPieces_append, start]
    show front ++ c :: writeClass scope value ++ after = front ++ c :: maskPieces _ edited
    rw [← same, List.append_assoc, List.cons_append]

end Class

end ComponentPages.Markup
