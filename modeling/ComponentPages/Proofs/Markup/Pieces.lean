import ComponentPages.Markup.Expression
import ComponentPages.Proofs.Text.Cut

/-!
# Pieces of markup

Markup is a row of pieces, characters and expressions (`written`), and it is split up into them
again: what was read at a place is an expression (`isExpression_of_read`), and an expression is
read in the same way whatever follows it (`IsExpression.read`). Two laws say when a row of pieces
is read back. A text reads as its pieces wherever it stands (`ReadsAs`), or pieces are told from
each other where one text follows them (`Told`), which the pieces that were read always are
(`told_pieces`).
-/
namespace ComponentPages.Markup

open Text

/-- A character of markup or an expression. -/
abbrev Piece := Char ⊕ List Char

/-- The markup that pieces stand for. -/
def written (pieces : List Piece) : List Char := pieces.flatMap (Sum.elim (fun c => [c]) id)

/-- The expressions among pieces. -/
def expressionsOf (pieces : List Piece) : List (List Char) := pieces.filterMap Sum.getRight?

/-- The texts of pieces, with a blank in place of each expression. -/
def textsOf (pieces : List Piece) : List Char := pieces.map (Sum.elim id fun _ => ' ')

/-- The pieces of a text without expressions. -/
def plain (text : List Char) : List Piece := text.map .inl

section Pieces

variable {pieces others : List Piece} {text : List Char}

/-- Pieces that follow each other are written one after the other. -/
theorem written_append (pieces others : List Piece) :
    written (pieces ++ others) = written pieces ++ written others := List.flatMap_append

/-- The expressions of pieces that follow each other are those of each. -/
theorem expressionsOf_append (pieces others : List Piece) :
    expressionsOf (pieces ++ others) = expressionsOf pieces ++ expressionsOf others :=
  List.filterMap_append

/-- The texts of pieces that follow each other are those of each. -/
theorem textsOf_append (pieces others : List Piece) :
    textsOf (pieces ++ others) = textsOf pieces ++ textsOf others := List.map_append

/-- A text is written as it is. -/
theorem written_plain (text : List Char) : written (plain text) = text := by
  induction text with
  | nil => rfl
  | cons c text ih => exact congrArg (c :: ·) ih

/-- A text has no expressions. -/
theorem expressionsOf_plain (text : List Char) : expressionsOf (plain text) = [] := by
  induction text with
  | nil => rfl
  | cons c text ih => exact ih

/-- The texts of a text are the text. -/
theorem textsOf_plain (text : List Char) : textsOf (plain text) = text := by
  induction text with
  | nil => rfl
  | cons c text ih => exact congrArg (c :: ·) ih

/-- Texts with the same pieces are the same. -/
theorem eq_of_plain {others : List Char} (same : plain text = plain others) : text = others := by
  have texts := congrArg written same
  rwa [written_plain, written_plain] at texts

/-- Pieces without expressions are a text. -/
theorem exists_plain (free : expressionsOf pieces = []) : ∃ text, pieces = plain text := by
  induction pieces with
  | nil => exact ⟨[], rfl⟩
  | cons piece pieces ih =>
    cases piece with
    | inl c =>
      obtain ⟨text, rfl⟩ := ih free
      exact ⟨c :: text, rfl⟩
    | inr expression => exact nomatch free

/-- An expression among pieces is in what they are written as. -/
theorem infix_written {expression : List Char} (member : expression ∈ expressionsOf pieces) :
    expression <:+: written pieces := by
  obtain ⟨piece, listed, same⟩ := List.mem_filterMap.1 member
  cases piece with
  | inl c => exact nomatch same
  | inr found =>
    obtain rfl := Option.some.inj same
    obtain ⟨before, after, rfl⟩ := List.append_of_mem listed
    refine ⟨written before, written after, ?_⟩
    rw [written_append, List.append_assoc]
    rfl

end Pieces

/-- An expression up to its first end mark. -/
def IsExpression (text : List Char) : Prop :=
  ∃ inner, text = '{' :: '{' :: inner ++ ['}', '}'] ∧ ¬ ['}', '}'] <:+: inner ∧
    inner.getLast? ≠ some '}'

section Expressions

variable {expression : List Char}

/-- An expression is read whatever follows it. -/
theorem IsExpression.read (isExpression : IsExpression expression) (rest : List Char) :
    readExpression (expression ++ rest) = some (expression, rest) := by
  obtain ⟨inner, rfl, free, apart⟩ := isExpression
  have shape : '{' :: '{' :: inner ++ ['}', '}'] ++ rest =
      '{' :: '{' :: (inner ++ '}' :: '}' :: rest) := by simp
  rw [shape, readExpression, cut_doubled free apart]
  rfl

/-- What is read as an expression is one. -/
theorem isExpression_of_read {text after : List Char}
    (read : readExpression text = some (expression, after)) : IsExpression expression := by
  unfold readExpression at read
  split at read
  · rename_i rest
    obtain ⟨⟨inner, tail⟩, cuts, same⟩ := Option.map_eq_some_iff.1 read
    obtain ⟨rfl, rfl⟩ := Prod.mk.inj same
    obtain ⟨free, apart⟩ := single_of_cut cuts
    exact ⟨inner, rfl, free, apart⟩
  · exact nomatch read

/-- Nothing is read as an expression just where there are no two braces that an end mark
follows. -/
theorem readExpression_eq_none_iff {text : List Char} : readExpression text = none ↔
    ∀ body, text = '{' :: '{' :: body → ¬ ['}', '}'] <:+: body := by
  constructor
  · rintro unread body rfl ⟨before, after, rfl⟩
    obtain ⟨found, cuts⟩ := exists_cut (show ['}', '}'] ≠ [] by simp) before after
    rw [readExpression, cuts] at unread
    exact nomatch unread
  · intro unended
    unfold readExpression
    split
    · rename_i body
      rw [cut_eq_none (unended body rfl)]
      rfl
    · rfl

/-- An expression is read at its two braces, and ends with two. -/
theorem readExpression_eq_some {text expression after : List Char}
    (read : readExpression text = some (expression, after)) :
    ∃ inner, expression = '{' :: '{' :: inner ++ ['}', '}'] ∧ text = expression ++ after := by
  unfold readExpression at read
  split at read
  · rename_i rest
    obtain ⟨⟨inner, tail⟩, found, same⟩ := Option.map_eq_some_iff.1 read
    obtain ⟨rfl, rfl⟩ := Prod.mk.inj same
    refine ⟨inner, rfl, ?_⟩
    rw [eq_append_of_cut found]
    simp
  · exact nomatch read

/-- What is read as an expression takes characters of the text. -/
theorem readExpression_shorter {text expression after : List Char}
    (read : readExpression text = some (expression, after)) : after.length < text.length := by
  obtain ⟨inner, rfl, rfl⟩ := readExpression_eq_some read
  simp only [List.length_append, List.length_cons]
  omega

/-- The pieces of markup are written as the markup is. -/
theorem written_pieces (markup : List Char) : written (readExpression.pieces markup) = markup := by
  induction size : markup.length using Nat.strongRecOn generalizing markup with
  | ind size ih =>
    cases markup with
    | nil => rw [Reader.pieces]; rfl
    | cons c rest =>
      cases read : readExpression (c :: rest) with
      | none =>
        rw [Reader.pieces_cons read]
        exact congrArg (c :: ·) (ih rest.length (by simp [← size]) rest rfl)
      | some found =>
        obtain ⟨expression, after⟩ := found
        have shorter := readExpression_shorter read
        obtain ⟨inner, -, whole⟩ := readExpression_eq_some read
        rw [Reader.pieces_of_read read shorter]
        show expression ++ written (readExpression.pieces after) = _
        rw [ih after.length (size ▸ shorter) after rfl, whole]

/-- The expressions of markup are those of its pieces. -/
theorem expressions_eq (markup : List Char) :
    expressions markup = expressionsOf (readExpression.pieces markup) := by
  rw [expressions, Reader.all, expressionsOf]
  generalize readExpression.pieces markup = pieces
  induction pieces with
  | nil => rfl
  | cons piece pieces ih =>
    cases piece with
    | inl c => exact ih
    | inr expression => exact congrArg (expression :: ·) ih

/-- An expression is the first piece of every text that starts with it. -/
theorem IsExpression.pieces_append (isExpression : IsExpression expression) (rest : List Char) :
    readExpression.pieces (expression ++ rest) = .inr expression :: readExpression.pieces rest :=
  Reader.pieces_of_read (isExpression.read rest) (readExpression_shorter (isExpression.read rest))

end Expressions

/-- Pieces are told from each other where a text follows them: the expressions are, and none is
read where the texts are. -/
def Told : List Piece → List Char → Prop
  | [], _ => True
  | .inl c :: pieces, rest =>
    readExpression (c :: (written pieces ++ rest)) = none ∧ Told pieces rest
  | .inr expression :: pieces, rest => IsExpression expression ∧ Told pieces rest

section Told

variable {pieces others : List Piece} {text rest : List Char}

/-- Pieces one after the other are told from each other if each are from what follows them. -/
theorem told_append : Told (pieces ++ others) rest ↔
    Told pieces (written others ++ rest) ∧ Told others rest := by
  induction pieces with
  | nil => exact ⟨fun told => ⟨trivial, told⟩, And.right⟩
  | cons piece pieces ih =>
    cases piece with
    | inl c =>
      show (readExpression (c :: (written (pieces ++ others) ++ rest)) = none ∧
          Told (pieces ++ others) rest) ↔
        (readExpression (c :: (written pieces ++ (written others ++ rest))) = none ∧ _) ∧ _
      rw [ih, written_append, List.append_assoc, and_assoc]
    | inr expression =>
      show IsExpression expression ∧ Told (pieces ++ others) rest ↔ (_ ∧ _) ∧ _
      rw [ih, and_assoc]

/-- A text without an opening brace is told from everything. -/
theorem told_plain (braceless : '{' ∉ text) : Told (plain text) rest := by
  induction text with
  | nil => trivial
  | cons c text ih =>
    obtain ⟨other, later⟩ := not_or.1 (mt List.mem_cons.2 braceless)
    refine ⟨readExpression_eq_none_iff.2 fun body same => ?_, ih later⟩
    exact absurd (List.cons.inj same).1.symm other

/-- Pieces that are told from each other are what their text is split up into. -/
theorem Told.pieces_eq (told : Told pieces rest) :
    readExpression.pieces (written pieces ++ rest) = pieces ++ readExpression.pieces rest := by
  induction pieces with
  | nil => rfl
  | cons piece pieces ih =>
    cases piece with
    | inl c =>
      have read := Reader.pieces_cons told.1
      rw [ih told.2] at read
      exact read
    | inr expression =>
      have read := told.1.pieces_append (written pieces ++ rest)
      rw [ih told.2, ← List.append_assoc] at read
      exact read

/-- Pieces that are told from each other with nothing behind them are read back. -/
theorem Told.read (told : Told pieces []) : readExpression.pieces (written pieces) = pieces := by
  have read := told.pieces_eq
  rwa [List.append_nil, Reader.pieces, List.append_nil] at read

/-- Where pieces are told from each other, the expressions among them are expressions. -/
theorem Told.isExpression {expression : List Char} (told : Told pieces rest)
    (member : expression ∈ expressionsOf pieces) : IsExpression expression := by
  induction pieces with
  | nil => exact nomatch member
  | cons piece pieces ih =>
    cases piece with
    | inl c => exact ih told.2 member
    | inr first =>
      rcases List.mem_cons.1 member with rfl | later
      · exact told.1
      · exact ih told.2 later

/-- Pieces that are told from each other are a text where no end mark is written. -/
theorem Told.exists_plain (told : Told pieces rest) (unended : ¬ ['}', '}'] <:+: written pieces) :
    ∃ text, pieces = plain text := by
  refine Markup.exists_plain (List.eq_nil_iff_forall_not_mem.2 fun expression member => ?_)
  obtain ⟨inner, rfl, -⟩ := told.isExpression member
  exact unended ((List.suffix_append _ _).isInfix.trans (infix_written member))

/-- Pieces are told from each other with less text behind them. -/
theorem Told.shorten {more : List Char} (told : Told pieces (rest ++ more)) : Told pieces rest := by
  induction pieces with
  | nil => trivial
  | cons piece pieces ih =>
    cases piece with
    | inl c =>
      refine ⟨readExpression_eq_none_iff.2 fun body same inside => ?_, ih told.2⟩
      refine readExpression_eq_none_iff.1 told.1 (body ++ more) ?_
        (inside.trans (List.prefix_append _ _).isInfix)
      rw [← List.append_assoc, ← List.cons_append, same]
      rfl
    | inr expression => exact ⟨told.1, ih told.2⟩

/-- The pieces of markup are told from each other. -/
theorem told_pieces (markup : List Char) : Told (readExpression.pieces markup) [] := by
  induction size : markup.length using Nat.strongRecOn generalizing markup with
  | ind size ih =>
    cases markup with
    | nil => rw [Reader.pieces]; trivial
    | cons c rest =>
      cases read : readExpression (c :: rest) with
      | none =>
        rw [Reader.pieces_cons read]
        refine ⟨?_, ih rest.length (by simp [← size]) rest rfl⟩
        rwa [written_pieces, List.append_nil]
      | some found =>
        obtain ⟨expression, after⟩ := found
        have shorter := readExpression_shorter read
        rw [Reader.pieces_of_read read shorter]
        exact ⟨isExpression_of_read read, ih after.length (size ▸ shorter) after rfl⟩

end Told

/-- A text is split up into the given pieces whatever follows it. -/
def ReadsAs (text : List Char) (pieces : List Piece) : Prop :=
  ∀ rest, readExpression.pieces (text ++ rest) = pieces ++ readExpression.pieces rest

section ReadsAs

variable {text others : List Char} {pieces more : List Piece}

/-- Texts one after the other are split up one after the other. -/
theorem ReadsAs.append (reads : ReadsAs text pieces) (next : ReadsAs others more) :
    ReadsAs (text ++ others) (pieces ++ more) := by
  intro rest
  rw [List.append_assoc, reads, next, List.append_assoc]

/-- A text without an opening brace is split up into its characters. -/
theorem readsAs_plain (braceless : '{' ∉ text) : ReadsAs text (plain text) := by
  intro rest
  have read : readExpression.pieces (written (plain text) ++ rest) = _ :=
    (told_plain braceless).pieces_eq
  rwa [written_plain] at read

/-- Texts that are each split up into pieces are so one after the other. -/
theorem readsAs_flatMap {α : Type} {items : List α} {write : α → List Char}
    {read : α → List Piece} (each : ∀ item ∈ items, ReadsAs (write item) (read item)) :
    ReadsAs (items.flatMap write) (items.flatMap read) := by
  induction items with
  | nil => exact fun _ => rfl
  | cons item items ih =>
    obtain ⟨here, later⟩ := List.forall_mem_cons.1 each
    exact here.append (ih later)

/-- An expression is split up as one piece. -/
theorem IsExpression.readsAs {expression : List Char} (isExpression : IsExpression expression) :
    ReadsAs expression [.inr expression] := fun rest => isExpression.pieces_append rest

end ReadsAs

end ComponentPages.Markup
