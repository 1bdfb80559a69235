import ComponentPages.Markup.Root
import ComponentPages.Markup.Scope
import ComponentPages.Proofs.Markup.Pieces
import Mathlib.Data.Bool.AllAny

/-!
# Masked markup

What masking does to markup and what brings it back. Masked markup shows where the expressions
are among the pieces of the markup by placeholders alone. So as long as no text of the markup
starts with the reserved text and a digit (`Unmarked`), reading a placeholder finds the
expressions and nothing else (`readPlaceholder_cons`), whatever texts are put between them, and
putting the expressions back gives the pieces as they are written (`unmask_maskPieces`). A
placeholder can also be read in any case. Then it can begin in a text and end in the placeholder
of an expression, unless no text in front of an expression looks like the start of one
(`Legible`, `readMasked_eq_some`).
-/
namespace ComponentPages.Markup

open Text

/-- The reserved text in front of the number of a placeholder, in lower case. -/
def reserved : List Char := placeholderHead.map Char.toLower

/-- Whether a text starts like a placeholder: with the reserved text in any case and a digit. -/
def startsReserved (text : List Char) : Bool :=
  match afterFolded reserved text with
  | some (c :: _) => isDecimalDigit c
  | _ => false

/-- No place of a text starts like a placeholder. -/
def Unreserved (text : List Char) : Prop := ∀ rest, rest <:+ text → startsReserved rest = false

/-- No place of a text starts with the reserved text, as placeholders have it, and a digit. -/
def Unmarked (text : List Char) : Prop :=
  ∀ digit, isDecimalDigit digit = true → ¬ placeholderHead ++ [digit] <:+: text

/-- A text that is a placeholder in any case up to one or both of the last underscores. -/
def Unfinished (text : List Char) : Prop :=
  ∃ head number tail, text = head ++ number ++ tail ∧ afterFolded reserved head = some [] ∧
    number ≠ [] ∧ (∀ c ∈ number, isDecimalDigit c = true) ∧ (tail = [] ∨ tail = ['_'])

/-- No text right in front of an expression is an unfinished placeholder. -/
def Legible (pieces : List Piece) : Prop :=
  ∀ before text expression after, pieces = before ++ plain text ++ .inr expression :: after →
    ¬ Unfinished text

/-- Whether a character is no part of what placeholders start with. -/
def separates (c : Char) : Bool :=
  (reserved.all fun letter => !foldsTo letter c) && !isDecimalDigit c

section Unreserved

variable {text left right word : List Char} {c : Char}

/-- A separator is no decimal digit, and no letter of the reserved text folds to it. -/
theorem separates_iff : separates c = true ↔
    (∀ letter ∈ reserved, foldsTo letter c = false) ∧ isDecimalDigit c = false := by
  rw [separates, Bool.and_eq_true, List.all_eq_true]
  simp only [Bool.not_eq_true']

/-- A part of a text is as unmarked as the whole. -/
theorem Unmarked.within (free : Unmarked text) (part : left <:+: text) : Unmarked left :=
  fun digit decimal inside => free digit decimal (inside.trans part)

/-- A text without the reserved text is unmarked. -/
theorem unmarked_of_not_infix (free : ¬ placeholderHead <:+: text) : Unmarked text :=
  fun _ _ inside => free ((List.prefix_append _ _).isInfix.trans inside)

/-- What starts with the reserved text, as placeholders have it, starts with it in any case. -/
theorem afterFolded_placeholderHead (rest : List Char) :
    afterFolded reserved (placeholderHead ++ rest) = some rest :=
  afterFolded_of_alike (by decide) (by decide) rest

/-- A text that does not start like a placeholder anywhere is unmarked. -/
theorem Unreserved.unmarked (free : Unreserved text) : Unmarked text := by
  rintro digit decimal ⟨front, back, rfl⟩
  refine Bool.eq_false_iff.1 (free (placeholderHead ++ (digit :: back)) ⟨front, by simp⟩) ?_
  rw [startsReserved, afterFolded_placeholderHead]
  exact decimal

/-- A word without a character is on one side of it. -/
theorem infix_append_cons (absent : c ∉ word) (inside : word <:+: left ++ c :: right) :
    word <:+: left ∨ word <:+: right := by
  obtain ⟨front, back, same⟩ := inside
  rcases List.append_eq_append_iff.1 same with ⟨middle, rfl, -⟩ | ⟨middle, joined, rest⟩
  · exact .inl ⟨front, middle, rfl⟩
  cases middle with
  | nil => exact .inl ⟨front, [], by rw [joined, List.append_nil, List.append_nil]⟩
  | cons first middle =>
    obtain ⟨rfl, rfl⟩ := List.cons.inj rest
    rcases List.append_eq_append_iff.1 joined with ⟨between, -, rfl⟩ | ⟨between, -, starts⟩
    · exact absurd (List.mem_append_right _ List.mem_cons_self) absent
    · cases between with
      | nil =>
        obtain rfl : c :: middle = word := starts
        exact absurd List.mem_cons_self absent
      | cons first between =>
        obtain ⟨-, rfl⟩ := List.cons.inj starts
        exact .inr ⟨between, back, rfl⟩

/-- A separator is no character of the reserved text, and no digit. -/
theorem not_mem_of_separates (apart : separates c = true) {digit : Char}
    (decimal : isDecimalDigit digit = true) : c ∉ placeholderHead ++ [digit] := by
  obtain ⟨unfolded, digitless⟩ := separates_iff.1 apart
  intro member
  rcases List.mem_append.1 member with head | last
  · have folds : foldsTo c.toLower c = true := by simp [foldsTo]
    exact Bool.false_ne_true ((unfolded _ (List.mem_map_of_mem head)).symm.trans folds)
  · obtain rfl := List.mem_singleton.1 last
    exact Bool.false_ne_true (digitless.symm.trans decimal)

/-- Unmarked texts on the two sides of a separator and a text without an underscore are
unmarked. -/
theorem Unmarked.append (before : Unmarked left) (apart : separates c = true)
    (free : '_' ∉ text) (after : Unmarked right) : Unmarked (left ++ c :: (text ++ right)) := by
  intro digit decimal inside
  rcases infix_append_cons (not_mem_of_separates apart decimal) inside with first | second
  · exact before digit decimal first
  · exact after digit decimal (infix_of_infix_append free second)

/-- The letters of the reserved text are small letters and underscores. -/
theorem mem_reserved {letter : Char} (listed : letter ∈ reserved) :
    95 ≤ letter.toNat ∧ letter.toNat ≤ 122 := by
  have all : (reserved.all fun letter => decide (95 ≤ letter.toNat ∧ letter.toNat ≤ 122)) =
      true := by decide
  exact of_decide_eq_true (List.all_eq_true.1 all letter listed)

/-- Only an underscore folds to an underscore. -/
theorem foldsTo_underscore (c : Char) : foldsTo '_' c = (c == '_') := by
  refine Bool.eq_iff_iff.2 ?_
  rw [beq_iff_eq]
  constructor
  · intro folds
    have lower : c.toLower = '_' := by
      simpa [foldsTo, show ('_' == 's') = false from rfl, show ('_' == 'k') = false from rfl]
        using folds
    have point : c.toLower.toNat = 95 := congrArg Char.toNat lower
    rw [toNat_toLower] at point
    refine Char.toNat_inj.1 ?_
    show c.toNat = 95
    split at point
    · omega
    · exact point
  · rintro rfl
    decide

/-- A text without an underscore is free of reserved text. -/
theorem unreserved_of_not_mem (free : '_' ∉ text) : Unreserved text := by
  intro rest suffix
  have head : reserved = '_' :: reserved.tail := by decide
  unfold startsReserved
  rw [head]
  cases rest with
  | nil => rfl
  | cons first rest =>
    have other : (first == '_') = false := by
      refine Bool.eq_false_iff.2 fun same => free ?_
      exact eq_of_beq same ▸ suffix.subset List.mem_cons_self
    simp only [afterFolded, foldsTo_underscore, other, Bool.false_eq_true, ↓reduceIte]

/-- Blanks separate. -/
theorem separates_of_isBlank (blank : isBlank c = true) : separates c = true := by
  refine separates_iff.2 ⟨?_, ?_⟩
  · intro letter listed
    obtain ⟨low, high⟩ := mem_reserved listed
    obtain ⟨range, member, least, greatest⟩ := inRanges_iff.1 blank
    have apart : ∀ range ∈ blanks, range.2 < 65 ∨ 122 < range.1 := by decide
    refine Bool.eq_false_iff.2 fun folds => ?_
    rcases toLower_of_foldsTo folds with lower | rfl | rfl
    · have point : c.toLower.toNat = letter.toNat := congrArg Char.toNat lower
      have := apart range member
      rw [toNat_toLower] at point
      split at point
      · omega
      · omega
    · exact absurd blank (by decide)
    · exact absurd blank (by decide)
  · unfold isDecimalDigit
    split
    · obtain ⟨range, member, least, greatest⟩ := inRanges_iff.1 blank
      have apart : ∀ range ∈ blanks, range.2 < 48 ∨ 57 < range.1 := by decide
      refine Bool.eq_false_iff.2 fun digit => ?_
      have low : 48 ≤ c.toNat := (Char.isDigit_iff_toNat.1 digit).1
      have := apart range member
      have high : c.toNat ≤ 57 := (Char.isDigit_iff_toNat.1 digit).2
      omega
    · rw [inRanges_eq_false blank (by decide), Bool.false_and]

end Unreserved

section Pieces

variable {pieces : List Piece} {number : Nat} {text : List Char}

/-- A text is its own mask. -/
theorem maskPieces_plain (number : Nat) (text : List Char) :
    maskPieces number (plain text) = text := by
  induction text with
  | nil => rfl
  | cons c text ih => exact congrArg (c :: ·) ih

/-- The numbers of placeholders go on from piece to piece. -/
theorem maskPieces_append (number : Nat) (pieces others : List Piece) :
    maskPieces number (pieces ++ others) =
      maskPieces number pieces ++
        maskPieces (number + (expressionsOf pieces).length) others := by
  induction pieces generalizing number with
  | nil => rfl
  | cons piece pieces ih =>
    cases piece with
    | inl c => exact congrArg (c :: ·) (ih number)
    | inr expression =>
      have count : number + 1 + (expressionsOf pieces).length =
          number + (expressionsOf (.inr expression :: pieces)).length := by
        show _ = number + ((expressionsOf pieces).length + 1)
        omega
      rw [List.cons_append, maskPieces, ih, count, maskPieces, List.append_assoc]

/-- A text between pieces takes no number. -/
theorem maskPieces_append_plain (number : Nat) (before after : List Piece) (text : List Char) :
    maskPieces number (before ++ plain text ++ after) =
      maskPieces number before ++ text ++
        maskPieces (number + (expressionsOf before).length) after := by
  rw [maskPieces_append, maskPieces_append, maskPieces_plain, expressionsOf_append,
    expressionsOf_plain, List.append_nil]

/-- The characters of markup outside of its expressions are in the masked markup. -/
theorem mem_maskPieces {c : Char} (member : .inl c ∈ pieces) : c ∈ maskPieces number pieces := by
  obtain ⟨before, after, rfl⟩ := List.append_of_mem member
  rw [maskPieces_append]
  exact List.mem_append_right _ List.mem_cons_self

/-- A character of a placeholder is an underscore, a capital letter or a digit. -/
def isPlaceholderChar (c : Char) : Bool := c == '_' || c.isUpper || c.isDigit

/-- Placeholders are made of such characters. -/
theorem isPlaceholderChar_of_mem {c : Char} (member : c ∈ placeholder number) :
    isPlaceholderChar c = true := by
  unfold placeholder at member
  rw [List.mem_append, List.mem_append] at member
  have head : placeholderHead.all isPlaceholderChar = true := by decide
  have tail : placeholderTail.all isPlaceholderChar = true := by decide
  rcases member with (inHead | digit) | inTail
  · exact List.all_eq_true.1 head c inHead
  · have decimal : c.isDigit = true := Nat.isDigit_of_mem_toDigits (by decide) (by decide) digit
    simp [isPlaceholderChar, decimal]
  · exact List.all_eq_true.1 tail c inTail

/-- A text that does not hold a character ends before its place. -/
theorem append_of_append_eq_cons {front rest left right : List Char} {c : Char}
    (free : c ∉ front) (same : front ++ rest = left ++ c :: right) :
    ∃ middle, left = front ++ middle ∧ rest = middle ++ c :: right := by
  rcases List.append_eq_append_iff.1 same with ⟨middle, rfl, rest⟩ | ⟨middle, rfl, later⟩
  · exact ⟨middle, rfl, rest⟩
  · cases middle with
    | nil => exact ⟨[], by simp, later.symm⟩
    | cons first middle =>
      obtain ⟨rfl, -⟩ := List.cons.inj later
      exact absurd (by simp) free

/-- Blanks are no such characters. -/
theorem isPlaceholderChar_of_isBlank {c : Char} (blank : isBlank c = true) :
    isPlaceholderChar c = false := by
  obtain ⟨range, member, least, greatest⟩ := inRanges_iff.1 blank
  have apart : ∀ range ∈ blanks, range.2 < 48 ∨ 95 < range.1 := by decide
  have := apart range member
  refine Bool.eq_false_iff.2 fun part => ?_
  simp only [isPlaceholderChar, Bool.or_eq_true, beq_iff_eq] at part
  rcases part with (rfl | capital) | digit
  · exact absurd blank (by decide)
  · have bounds : 65 ≤ c.toNat ∧ c.toNat ≤ 90 := of_decide_eq_true capital
    omega
  · have low : 48 ≤ c.toNat := (Char.isDigit_iff_toNat.1 digit).1
    have high : c.toNat ≤ 57 := (Char.isDigit_iff_toNat.1 digit).2
    omega

/-- Where masked markup has a character that no placeholder has, the pieces have it too. -/
theorem split_of_maskPieces {left right : List Char} {c : Char}
    (other : isPlaceholderChar c = false)
    (masked : maskPieces number pieces = left ++ c :: right) :
    ∃ before after, pieces = before ++ .inl c :: after ∧ maskPieces number before = left ∧
      maskPieces (number + (expressionsOf before).length) after = right := by
  induction pieces generalizing number left with
  | nil => simp [maskPieces] at masked
  | cons piece pieces ih =>
    cases piece with
    | inl first =>
      cases left with
      | nil =>
        obtain ⟨rfl, rest⟩ := List.cons.inj masked
        exact ⟨[], pieces, rfl, rfl, rest⟩
      | cons start left =>
        obtain ⟨rfl, rest⟩ := List.cons.inj masked
        obtain ⟨before, after, rfl, front, back⟩ := ih rest
        exact ⟨.inl first :: before, after, rfl, congrArg (first :: ·) front, back⟩
    | inr expression =>
      rw [maskPieces] at masked
      have free : c ∉ placeholder number := fun member =>
        absurd (isPlaceholderChar_of_mem member) (Bool.eq_false_iff.1 other)
      obtain ⟨middle, rfl, rest⟩ := append_of_append_eq_cons free masked
      obtain ⟨before, after, rfl, rfl, back⟩ := ih rest
      refine ⟨.inr expression :: before, after, rfl, rfl, ?_⟩
      rw [← back]
      show maskPieces (number + ((expressionsOf before).length + 1)) after = _
      rw [Nat.add_comm _ 1, Nat.add_assoc]

/-- What masked markup starts with is a text of the markup where it has no underscore. -/
theorem eq_plain_append_of_maskPieces {left right : List Char} (free : '_' ∉ left)
    (masked : maskPieces number pieces = left ++ right) :
    ∃ after, pieces = plain left ++ after ∧ maskPieces number after = right := by
  induction left generalizing pieces with
  | nil => exact ⟨pieces, rfl, masked⟩
  | cons c left ih =>
    obtain ⟨here, later⟩ := not_or.1 (mt List.mem_cons.2 free)
    cases pieces with
    | nil => exact nomatch masked
    | cons piece pieces =>
      cases piece with
      | inl first =>
        obtain ⟨rfl, rest⟩ := List.cons.inj masked
        obtain ⟨after, rfl, back⟩ := ih later rest
        exact ⟨after, rfl, back⟩
      | inr expression => exact absurd (List.cons.inj masked).1 here

/-- Masked markup without an underscore is the markup. -/
theorem eq_plain_of_maskPieces (free : '_' ∉ text) (masked : maskPieces number pieces = text) :
    pieces = plain text := by
  rw [← List.append_nil text] at masked
  obtain ⟨after, rfl, none⟩ := eq_plain_append_of_maskPieces free masked
  cases after with
  | nil => exact List.append_nil _
  | cons piece after =>
    cases piece with
    | inl c => exact nomatch none
    | inr expression => exact nomatch (List.append_eq_nil_iff.1 none).1

end Pieces

section Placeholders

variable {pieces : List Piece} {number : Nat}

/-- The digits and the tail of a placeholder are read as they are written. -/
theorem readNumberTail_digits (number : Nat) (rest : List Char) :
    readNumberTail (digits number ++ placeholderTail ++ rest) = some (digits number, rest) := by
  have decimal : ∀ c ∈ digits number, isDecimalDigit c = true := fun c member =>
    isDecimalDigit_of_isDigit (Nat.isDigit_of_mem_toDigits (by decide) (by decide) member)
  have tail : placeholderTail = ['_', '_'] := by decide
  have cuts : cutFront isDecimalDigit (digits number ++ placeholderTail ++ rest) =
      (digits number, placeholderTail ++ rest) := by
    rw [cutFront, List.append_assoc, List.takeWhile_append_of_pos decimal,
      List.dropWhile_append_of_pos decimal, tail]
    simp [show isDecimalDigit '_' = false by decide]
  unfold readNumberTail
  rw [cuts]
  split
  · rename_i empty
    exact absurd (Prod.mk.inj empty).1 Nat.toDigits_ne_nil
  · rename_i found _ same
    obtain ⟨rfl, rfl⟩ := Prod.mk.inj same
    rw [List.isPrefixOf?_eq_some_iff_append_eq.2 rfl]
    rfl

/-- A placeholder is read as it is written. -/
theorem readPlaceholder_placeholder (number : Nat) (rest : List Char) :
    readPlaceholder (placeholder number ++ rest) = some (digits number, rest) := by
  rw [readPlaceholder, placeholder, List.append_assoc, List.append_assoc,
    List.isPrefixOf?_eq_some_iff_append_eq.2 rfl, Option.bind_some, ← List.append_assoc]
  exact readNumberTail_digits number rest

/-- A placeholder is read as it is written, also in any case. -/
theorem readMasked_placeholder (number : Nat) (rest : List Char) :
    readMasked (placeholder number ++ rest) = some (placeholder number, rest) := by
  have head : afterFolded (placeholderHead.map Char.toLower) (placeholder number ++ rest) =
      some (digits number ++ placeholderTail ++ rest) := by
    rw [placeholder, List.append_assoc, List.append_assoc, List.append_assoc]
    exact afterFolded_placeholderHead _
  have front : (placeholder number ++ rest).take placeholderHead.length = placeholderHead := by
    rw [placeholder, List.append_assoc, List.append_assoc, List.take_left]
  simp only [readMasked, head, Option.bind_eq_bind, Option.bind_some, readNumberTail_digits,
    front]
  rfl

/-- A proper end of the reserved text is not followed by a digit in the reserved text. -/
theorem overlap (place : Nat) (proper : place < reserved.length) :
    (afterFolded (reserved.drop (place + 1)) placeholderHead).all
      (fun rest => rest.head?.any fun c => !isDecimalDigit c) = true := by
  revert place
  decide

/-- An end of the reserved text is not followed by a digit in a placeholder. -/
theorem afterFolded_placeholder {place : Nat} (proper : place < reserved.length) {digit : Char}
    {rest more : List Char}
    (found : afterFolded (reserved.drop (place + 1)) (placeholder number ++ more) =
      some (digit :: rest)) : isDecimalDigit digit = false := by
  have whole : placeholder number ++ more =
      placeholderHead ++ (digits number ++ placeholderTail ++ more) := by
    rw [placeholder, List.append_assoc, List.append_assoc, List.append_assoc]
  rw [whole] at found
  have known := overlap place proper
  cases inside : afterFolded (reserved.drop (place + 1)) placeholderHead with
  | none =>
    have long : (reserved.drop (place + 1)).length ≤ placeholderHead.length := by
      rw [List.length_drop, reserved, List.length_map]
      exact Nat.sub_le _ _
    rw [afterFolded_append_eq_none long inside] at found
    exact nomatch found
  | some left =>
    rw [inside] at known
    rw [afterFolded_append inside] at found
    cases left with
    | nil => exact nomatch known
    | cons c left =>
      obtain ⟨rfl, -⟩ := List.cons.inj (Option.some.inj found)
      simpa using known

/-- An end of the reserved text with a digit after it is a text of the markup wherever masked
markup has it: no placeholder starts inside of it. -/
theorem exists_plain_of_afterFolded {place : Nat} (proper : place < reserved.length) {digit : Char}
    {rest : List Char}
    (found : afterFolded (reserved.drop (place + 1)) (maskPieces number pieces) =
      some (digit :: rest)) (decimal : isDecimalDigit digit = true) :
    ∃ front behind, pieces = plain front ++ .inl digit :: behind ∧
      afterFolded (reserved.drop (place + 1)) front = some [] ∧
      rest = maskPieces number behind := by
  induction pieces generalizing place with
  | nil =>
    cases word : reserved.drop (place + 1) with
    | nil => simp [word, maskPieces, afterFolded] at found
    | cons letter word' => simp [word, maskPieces, afterFolded] at found
  | cons piece pieces ih =>
    cases piece with
    | inr expression =>
      exact absurd decimal (Bool.eq_false_iff.1 (afterFolded_placeholder proper found))
    | inl c =>
      by_cases more : place + 1 < reserved.length
      · rw [List.drop_eq_getElem_cons more] at found ⊢
        simp only [maskPieces, afterFolded] at found
        split at found
        · rename_i folds
          obtain ⟨front, behind, rfl, read, rfl⟩ := ih more found
          refine ⟨c :: front, behind, rfl, ?_, rfl⟩
          show (if foldsTo reserved[place + 1] c then _ else none) = _
          rw [if_pos folds]
          exact read
        · cases found
      · rw [List.drop_eq_nil_of_le (Nat.le_of_not_lt more)] at found ⊢
        obtain ⟨rfl, rfl⟩ := List.cons.inj (Option.some.inj found)
        exact ⟨[], pieces, rfl, rfl, rfl⟩

/-- Where masked markup starts like a placeholder, it starts with the placeholder of an
expression, or a text of the markup starts like one. -/
theorem cases_of_afterFolded {digit : Char} {rest : List Char}
    (found : afterFolded reserved (maskPieces number pieces) = some (digit :: rest))
    (decimal : isDecimalDigit digit = true) :
    (∃ expression after, pieces = .inr expression :: after) ∨
    ∃ front behind, pieces = plain front ++ .inl digit :: behind ∧
      afterFolded reserved front = some [] ∧ rest = maskPieces number behind := by
  have head : reserved = '_' :: reserved.drop 1 := by decide
  cases pieces with
  | nil =>
    rw [head] at found
    exact nomatch found
  | cons piece pieces =>
    cases piece with
    | inr expression => exact .inl ⟨expression, pieces, rfl⟩
    | inl c =>
      rw [head, maskPieces, afterFolded] at found
      split at found
      · rename_i folds
        obtain ⟨front, behind, rfl, read, rfl⟩ :=
          exists_plain_of_afterFolded (by decide) found decimal
        refine .inr ⟨c :: front, behind, rfl, ?_, rfl⟩
        rw [head]
        show (if foldsTo '_' c then _ else none) = _
        rw [if_pos folds]
        exact read
      · cases found

/-- A number in front of the tail of a placeholder is made of digits. -/
theorem readNumberTail_eq_some {text number after : List Char}
    (read : readNumberTail text = some (number, after)) :
    text = number ++ '_' :: '_' :: after ∧ number ≠ [] ∧ ∀ c ∈ number, isDecimalDigit c = true := by
  have tail : placeholderTail = ['_', '_'] := by decide
  unfold readNumberTail at read
  split at read
  · exact nomatch read
  · rename_i digits rest nonempty cuts
    obtain ⟨found, ends, same⟩ := Option.map_eq_some_iff.1 read
    obtain ⟨rfl, rfl⟩ := Prod.mk.inj same
    refine ⟨?_, nonempty, ?_⟩
    · rw [eq_append_of_cutFront cuts, ← List.append_eq_of_isPrefixOf?_eq_some ends, tail]
      rfl
    · obtain ⟨rfl, -⟩ := Prod.mk.inj cuts
      exact List.all_eq_true.1 List.all_takeWhile

/-- A placeholder is the reserved text, digits and its tail. -/
theorem readPlaceholder_eq_some {text number after : List Char}
    (read : readPlaceholder text = some (number, after)) :
    text = placeholderHead ++ (number ++ (placeholderTail ++ after)) ∧ number ≠ [] ∧
      ∀ c ∈ number, isDecimalDigit c = true := by
  obtain ⟨rest, head, tail⟩ := Option.bind_eq_some_iff.1 read
  obtain ⟨rfl, nonempty, decimal⟩ := readNumberTail_eq_some tail
  exact ⟨(List.append_eq_of_isPrefixOf?_eq_some head).symm, nonempty, decimal⟩

/-- What is read as a placeholder takes characters of the text. -/
theorem readPlaceholder_shorter {text number after : List Char}
    (read : readPlaceholder text = some (number, after)) : after.length < text.length := by
  have head : placeholderHead.length = 14 := by decide
  rw [(readPlaceholder_eq_some read).1]
  simp only [List.length_append]
  omega

/-- Where masked markup starts with the reserved text and a digit, the markup starts with an
expression. -/
theorem exists_expression {digit : Char} {rest : List Char} (free : Unmarked (textsOf pieces))
    (masked : maskPieces number pieces = placeholderHead ++ digit :: rest)
    (decimal : isDecimalDigit digit = true) :
    ∃ expression after, pieces = .inr expression :: after := by
  have found : afterFolded reserved (maskPieces number pieces) = some (digit :: rest) := by
    rw [masked, afterFolded_placeholderHead]
  refine (cases_of_afterFolded found decimal).resolve_right ?_
  rintro ⟨front, behind, rfl, -, rfl⟩
  -- The text is the reserved text itself, since what follows it is the same.
  rw [maskPieces_append, maskPieces_plain, expressionsOf_plain] at masked
  obtain rfl := List.append_cancel_right (show front ++ _ = placeholderHead ++ _ from masked)
  refine free digit decimal ?_
  rw [textsOf_append, textsOf_plain]
  exact ⟨[], textsOf behind, by simp [textsOf]⟩

/-- Where a character of the markup is, no placeholder is read. -/
theorem readPlaceholder_cons {c : Char} (free : Unmarked (textsOf (.inl c :: pieces))) :
    readPlaceholder (maskPieces number (.inl c :: pieces)) = none := by
  cases read : readPlaceholder (maskPieces number (.inl c :: pieces)) with
  | none => rfl
  | some found =>
    obtain ⟨masked, nonempty, decimal⟩ := readPlaceholder_eq_some read
    obtain ⟨digit, digits, same⟩ := List.exists_cons_of_ne_nil nonempty
    rw [same] at masked decimal
    obtain ⟨expression, after, starts⟩ :=
      exists_expression free masked (decimal digit List.mem_cons_self)
    exact nomatch starts

/-- Pieces are as legible as they are between others. -/
theorem Legible.within {front back : List Piece} (legible : Legible (front ++ pieces ++ back)) :
    Legible pieces := by
  intro before text expression after same
  exact legible (front ++ before) text expression (after ++ back) (by rw [same]; simp)

/-- Pieces are legible if no text among them starts like a placeholder. -/
theorem Unreserved.legible (free : Unreserved (textsOf pieces)) : Legible pieces := by
  rintro before _ expression after rfl ⟨head, number, tail, rfl, folded, nonempty, decimal, -⟩
  obtain ⟨digit, digits, rfl⟩ := List.exists_cons_of_ne_nil nonempty
  have read : afterFolded reserved (head ++ (digit :: digits ++ tail ++ ' ' :: textsOf after)) =
      some (digit :: digits ++ tail ++ ' ' :: textsOf after) := afterFolded_append folded _
  refine Bool.eq_false_iff.1 (free _ ⟨textsOf before, ?_⟩) (show startsReserved _ = true by
    rw [startsReserved, read]
    exact decimal digit List.mem_cons_self)
  rw [textsOf_append, textsOf_append, textsOf_plain]
  simp [textsOf]

/-- The underscore behind an unfinished placeholder is not that of an expression. -/
theorem Legible.exists_underscore {text rest : List Char}
    (legible : Legible (plain text ++ pieces)) (unfinished : Unfinished text)
    (masked : maskPieces number pieces = '_' :: rest) :
    ∃ behind, pieces = .inl '_' :: behind ∧ maskPieces number behind = rest := by
  cases pieces with
  | nil => exact nomatch masked
  | cons piece behind =>
    cases piece with
    | inl c =>
      obtain ⟨rfl, later⟩ := List.cons.inj masked
      exact ⟨behind, rfl, later⟩
    | inr expression => exact absurd unfinished (legible [] text expression behind rfl)

/-- A placeholder that is read in any case is that of an expression, or a text of the
markup. -/
theorem readMasked_eq_some (legible : Legible pieces) {found rest : List Char}
    (read : readMasked (maskPieces number pieces) = some (found, rest)) :
    (∃ expression after, pieces = .inr expression :: after ∧ found = placeholder number ∧
      rest = maskPieces (number + 1) after) ∨
    ∃ after, pieces = plain found ++ after ∧ rest = maskPieces number after ∧
      ∀ c ∈ found, separates c = false := by
  obtain ⟨behindHead, head, tail⟩ := Option.bind_eq_some_iff.1 read
  obtain ⟨⟨digits, after⟩, numbered, same⟩ := Option.bind_eq_some_iff.1 tail
  obtain ⟨rfl, nonempty, decimal⟩ := readNumberTail_eq_some numbered
  obtain ⟨digit, more, rfl⟩ := List.exists_cons_of_ne_nil nonempty
  obtain ⟨first, others⟩ := List.forall_mem_cons.1 decimal
  rcases cases_of_afterFolded head first with ⟨expression, behind, rfl⟩ |
    ⟨front, behind, rfl, folded, rest'⟩
  · rw [maskPieces, readMasked_placeholder] at read
    obtain ⟨rfl, rfl⟩ := Prod.mk.inj (Option.some.inj read)
    exact .inl ⟨expression, behind, rfl, rfl, rfl⟩
  have underscore : '_' ∉ more := fun member => absurd (others _ member) (by decide)
  obtain ⟨later, rfl, ends⟩ := eq_plain_append_of_maskPieces underscore rest'.symm
  have unfinished (tail : List Char) (short : tail = [] ∨ tail = ['_']) :
      Unfinished (front ++ (digit :: more) ++ tail) :=
    ⟨front, digit :: more, tail, rfl, folded, nonempty, decimal, short⟩
  -- The two underscores are texts as well, since the text in front of them is unfinished.
  have shape : plain front ++ .inl digit :: (plain more ++ later) =
      plain (front ++ (digit :: more) ++ []) ++ later := by simp [plain]
  obtain ⟨second, rfl, closes⟩ :=
    (shape ▸ legible).exists_underscore (unfinished [] (.inl rfl)) ends
  have longer : plain front ++ .inl digit :: (plain more ++ .inl '_' :: second) =
      plain (front ++ (digit :: more) ++ ['_']) ++ second := by simp [plain]
  obtain ⟨last, rfl, rfl⟩ :=
    (longer ▸ legible).exists_underscore (unfinished ['_'] (.inr rfl)) closes
  obtain ⟨rfl, rfl⟩ := Prod.mk.inj (Option.some.inj same)
  have length : placeholderHead.length = front.length := by
    rw [length_of_afterFolded folded, reserved, List.length_map]
    rfl
  have taken : (maskPieces number (plain front ++ .inl digit :: (plain more ++ .inl '_' ::
      .inl '_' :: last))).take placeholderHead.length = front := by
    rw [maskPieces_append, maskPieces_plain, length, List.take_left]
  rw [taken]
  refine .inr ⟨last, by simp [plain, show placeholderTail = ['_', '_'] by decide], rfl, ?_⟩
  have letters : ∀ c ∈ front, separates c = false := by
    intro c member
    obtain ⟨read, same, folds⟩ := eq_append_of_afterFolded folded
    rw [List.append_nil] at same
    obtain ⟨letter, listed, here⟩ := folds c (same ▸ member)
    refine Bool.eq_false_iff.2 fun apart => ?_
    exact nomatch here.symm.trans ((separates_iff.1 apart).1 letter listed)
  have digits : ∀ c ∈ digit :: more, separates c = false := fun c member =>
    Bool.eq_false_iff.2 fun apart =>
      nomatch (decimal c member).symm.trans (separates_iff.1 apart).2
  have tail : ∀ c ∈ placeholderTail, separates c = false :=
    List.all_iff_forall_prop.1 (by decide)
  exact List.forall_mem_append.2 ⟨List.forall_mem_append.2 ⟨letters, digits⟩, tail⟩

/-- The pieces that are found in masked markup: the characters of the markup, and the digits of
the placeholders, numbered from the given number on. -/
def numbered : Nat → List Piece → List (Char ⊕ List Char)
  | _, [] => []
  | number, .inl c :: pieces => .inl c :: numbered number pieces
  | number, .inr _ :: pieces => .inr (digits number) :: numbered (number + 1) pieces

/-- The texts of markup are unmarked if the texts from a place before them are. -/
theorem Unmarked.tail {piece : Piece} (free : Unmarked (textsOf (piece :: pieces))) :
    Unmarked (textsOf pieces) := free.within (List.suffix_cons _ _).isInfix

/-- Pieces whose texts are a text without blanks in place of expressions are that text. -/
theorem eq_plain_of_textsOf {text : List Char} (blankless : ' ' ∉ text)
    (same : textsOf pieces = text) : pieces = plain text := by
  induction pieces generalizing text with
  | nil => exact same ▸ rfl
  | cons piece pieces ih =>
    obtain rfl := same
    cases piece with
    | inl c =>
      have later : ' ' ∉ textsOf pieces := fun member => blankless (List.mem_cons_of_mem _ member)
      exact congrArg (.inl c :: ·) (ih later rfl)
    | inr expression => exact absurd List.mem_cons_self blankless

/-- The texts of markup without the reserved text are unmarked. -/
theorem unmarked_textsOf (free : ¬ placeholderHead <:+: written pieces) :
    Unmarked (textsOf pieces) := by
  refine unmarked_of_not_infix ?_
  rintro ⟨front, back, same⟩
  obtain ⟨before, after, rfl, first, -⟩ := List.map_eq_append_iff.1 same.symm
  obtain ⟨start, middle, rfl, -, shown⟩ := List.map_eq_append_iff.1 first
  obtain rfl := eq_plain_of_textsOf (by decide) shown
  refine free ⟨written start, written after, ?_⟩
  rw [written_append, written_append, written_plain]

/-- The placeholders that are found in masked markup are those of its expressions. -/
theorem pieces_maskPieces (free : Unmarked (textsOf pieces)) :
    readPlaceholder.pieces (maskPieces number pieces) = numbered number pieces := by
  induction pieces generalizing number with
  | nil => rw [maskPieces, Reader.pieces, numbered]
  | cons piece pieces ih =>
    cases piece with
    | inl c =>
      rw [numbered, ← ih free.tail]
      exact Reader.pieces_cons (readPlaceholder_cons free)
    | inr expression =>
      have read := readPlaceholder_placeholder number (maskPieces (number + 1) pieces)
      rw [numbered, ← ih free.tail, maskPieces]
      exact Reader.pieces_of_read read (readPlaceholder_shorter read)

/-- Masked markup has as many placeholders as the markup has expressions. -/
theorem length_all_maskPieces (free : Unmarked (textsOf pieces)) :
    (readPlaceholder.all (maskPieces number pieces)).length = (expressionsOf pieces).length := by
  rw [Reader.all, pieces_maskPieces free]
  clear free
  induction pieces generalizing number with
  | nil => rfl
  | cons piece pieces ih =>
    cases piece with
    | inl c => exact ih
    | inr expression => exact congrArg (· + 1) ih

/-- The placeholder of an expression becomes the expression. -/
theorem unmaskPlaceholder_digits {expression : List Char} {expressions others : List (List Char)}
    (listed : expressions.drop number = expression :: others) :
    unmaskPlaceholder expressions (digits number) = expression := by
  have here : expressions[number]? = some expression := by
    rw [← List.head?_drop, listed]
    rfl
  rw [unmaskPlaceholder, natural?_digits, Option.bind_some, here, Option.getD_some]

/-- Putting the expressions back gives the markup that the pieces stand for. -/
theorem unmask_maskPieces {expressions : List (List Char)} (free : Unmarked (textsOf pieces))
    (listed : expressions.drop number = expressionsOf pieces) :
    unmask (maskPieces number pieces) expressions = written pieces := by
  rw [unmask, Reader.replace, pieces_maskPieces free]
  clear free
  induction pieces generalizing number with
  | nil => rfl
  | cons piece pieces ih =>
    cases piece with
    | inl c => exact congrArg (c :: ·) (ih listed)
    | inr expression =>
      change expressions.drop number = expression :: expressionsOf pieces at listed
      have later : expressions.drop (number + 1) = expressionsOf pieces := by
        rw [← List.tail_drop, listed]
        rfl
      rw [numbered, List.flatMap_cons, ih later]
      exact congrArg (· ++ written pieces) (unmaskPlaceholder_digits listed)

end Placeholders

end ComponentPages.Markup
