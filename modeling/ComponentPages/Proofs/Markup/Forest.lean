import ComponentPages.Proofs.Markup.Masking

/-!
# Forests

Well-formed markup as a list of trees, texts and elements of any depth (`Tree`). The
conditions of well-formedness are part of the trees: a text has no character that would end it,
and the closing tag of an element is alike the opening one. The pieces of written markup are
the pieces of the trees (`readExpression_writeAll`), so masked markup can be looked at tree by
tree, and it shows which trees are blank (`all_isBlank_piecesAll`).
-/
namespace ComponentPages.Markup

open Text

/-- A part of a text: a character, or an expression with the text between its braces. -/
inductive Part where
  | char (c : Char)
  | expression (inner : List Char)

namespace Part

/-- A part as it is written. -/
def write : Part → List Char
  | char c => [c]
  | expression inner => '{' :: '{' :: inner ++ ['}', '}']

/-- What a part has to satisfy in a text that a character ends. -/
def Fits (ending : Char) : Part → Prop
  | char c => c ≠ '{' ∧ c ≠ ending
  | expression inner => ¬ ['}', '}'] <:+: inner

instance (ending : Char) : DecidablePred (Fits ending)
  | char c => inferInstanceAs (Decidable (c ≠ '{' ∧ c ≠ ending))
  | expression inner => inferInstanceAs (Decidable (¬ ['}', '}'] <:+: inner))

/-- The pieces of a part. An expression ends at the first end mark, which is one place earlier
where the text between its braces ends with a brace. -/
def pieces : Part → List Piece
  | char c => [.inl c]
  | expression inner =>
    if inner.getLast? = some '}' then [.inr ('{' :: '{' :: inner ++ ['}']), .inl '}']
    else [.inr ('{' :: '{' :: inner ++ ['}', '}'])]

end Part

/-- A text that a character ends, made of other characters and of expressions. -/
structure Passage (ending : Char) where
  parts : List Part
  fits : ∀ part ∈ parts, part.Fits ending

/-- A passage as it is written. -/
def Passage.write {ending : Char} (passage : Passage ending) : List Char :=
  passage.parts.flatMap Part.write

/-- The pieces of a passage. -/
def Passage.pieces {ending : Char} (passage : Passage ending) : List Piece :=
  passage.parts.flatMap Part.pieces

/-- A character of the name of an attribute. -/
def isAttributeChar (c : Char) : Bool := c.isAlphanum || ['-', '_', ':'].contains c

/-- The quotes around the value of an attribute. -/
inductive Quote where
  | single
  | double

/-- A quote as it is written. -/
def Quote.char : Quote → Char
  | single => '\''
  | double => '"'

/-- An attribute with a quoted value. -/
structure Attribute where
  name : List Char
  named : ∀ c ∈ name, isAttributeChar c = true
  quote : Quote
  value : Passage quote.char

/-- An attribute as it is written, with the blank in front of it. -/
def Attribute.write (entry : Attribute) : List Char :=
  ' ' :: entry.name ++ '=' :: entry.quote.char :: entry.value.write ++ [entry.quote.char]

/-- The pieces of an attribute. -/
def Attribute.pieces (entry : Attribute) : List Piece :=
  plain (' ' :: entry.name ++ ['=', entry.quote.char]) ++ entry.value.pieces ++
    plain [entry.quote.char]

/-- The name of an element: a letter followed by letters and digits. -/
structure ElementName where
  first : Char
  rest : List Char
  starts : first.isAlpha = true
  continues : ∀ c ∈ rest, c.isAlphanum = true

/-- The letters of a name. -/
def ElementName.letters (name : ElementName) : List Char := name.first :: name.rest

/-- A tree of markup. An element closes itself, or has trees inside and is closed by its name in
any case. -/
inductive Tree where
  | text (passage : Passage '<')
  | void (name : ElementName) (attributes : List Attribute)
  | element (name : ElementName) (attributes : List Attribute) (children : List Tree)
    (closing : ElementName) (closes : alike closing.letters name.letters = true)

namespace Tree

mutual

/-- A tree as it is written. -/
def write : Tree → List Char
  | text passage => passage.write
  | void name attributes =>
    '<' :: name.letters ++ attributes.flatMap Attribute.write ++ ['/', '>']
  | element name attributes children closing _ =>
    '<' :: name.letters ++ attributes.flatMap Attribute.write ++ '>' :: writeAll children ++
      '<' :: '/' :: closing.letters ++ ['>']

/-- Trees as they are written one after the other. -/
def writeAll : List Tree → List Char
  | [] => []
  | tree :: trees => tree.write ++ writeAll trees

end

mutual

/-- The pieces of a tree. -/
def pieces : Tree → List Piece
  | text passage => passage.pieces
  | void name attributes =>
    plain ('<' :: name.letters) ++ attributes.flatMap Attribute.pieces ++ plain ['/', '>']
  | element name attributes children closing _ =>
    plain ('<' :: name.letters) ++ attributes.flatMap Attribute.pieces ++ plain ['>'] ++
      piecesAll children ++ plain ('<' :: '/' :: closing.letters ++ ['>'])

/-- The pieces of trees one after the other. -/
def piecesAll : List Tree → List Piece
  | [] => []
  | tree :: trees => tree.pieces ++ piecesAll trees

end

/-- Whether a tree is a text of blanks. -/
def isBlank : Tree → Bool
  | text passage => passage.write.all Text.isBlank
  | _ => false

/-- Whether a tree is an element, of either kind. -/
def isElement : Tree → Bool
  | text _ => false
  | _ => true

end Tree

section Letters

variable {c : Char}

/-- A character other than those of names is not one. -/
theorem ne_of_isAttributeChar {other : Char} (named : isAttributeChar c = true)
    (unnamed : isAttributeChar other = false) : c ≠ other := by
  rintro rfl
  exact nomatch named.symm.trans unnamed

/-- The characters of the name of an element are also characters of the names of attributes. -/
theorem ElementName.isAttributeChar_of_mem {name : ElementName} (member : c ∈ name.letters) :
    isAttributeChar c = true := by
  rcases List.mem_cons.1 member with rfl | later
  · simp [isAttributeChar, Char.isAlphanum, name.starts]
  · simp [isAttributeChar, name.continues c later]

end Letters

section ReadsAs

/-- A part is split up into its pieces. -/
theorem Part.readsAs {part : Part} {ending : Char} (fits : part.Fits ending) :
    ReadsAs part.write part.pieces := by
  cases part with
  | char c => exact readsAs_plain fun brace => fits.1 (List.mem_singleton.1 brace).symm
  | expression inner =>
    intro rest
    by_cases last : inner.getLast? = some '}'
    · obtain ⟨front, rfl⟩ := List.getLast?_eq_some_iff.1 last
      have apart : front.getLast? ≠ some '}' := by
        intro doubled
        obtain ⟨start, rfl⟩ := List.getLast?_eq_some_iff.1 doubled
        exact fits ⟨start, [], by simp⟩
      have read : ReadsAs ('{' :: '{' :: front ++ ['}', '}']) [.inr _] :=
        IsExpression.readsAs
          ⟨front, rfl, fun inside => fits (inside.trans (List.prefix_append _ _).isInfix), apart⟩
      have brace : ReadsAs ['}'] [.inl '}'] := readsAs_plain (by decide)
      simpa [Part.write, Part.pieces] using read.append brace rest
    · have read : ReadsAs ('{' :: '{' :: inner ++ ['}', '}']) [.inr _] :=
        IsExpression.readsAs ⟨inner, rfl, fits, last⟩
      simpa [Part.write, Part.pieces, last] using read rest

/-- A passage is split up into its pieces. -/
theorem Passage.readsAs {ending : Char} (passage : Passage ending) :
    ReadsAs passage.write passage.pieces :=
  readsAs_flatMap fun part member => Part.readsAs (passage.fits part member)

/-- An attribute is split up into its pieces. -/
theorem Attribute.readsAs (entry : Attribute) : ReadsAs entry.write entry.pieces := by
  have name : '{' ∉ entry.name := fun member =>
    ne_of_isAttributeChar (entry.named _ member) (by decide) rfl
  have quote : '{' ≠ entry.quote.char := by cases entry.quote <;> decide
  have front : ReadsAs (' ' :: entry.name ++ ['=', entry.quote.char]) _ :=
    readsAs_plain (by simp [name, quote])
  have back : ReadsAs [entry.quote.char] _ := readsAs_plain (by simp [quote])
  have whole := (front.append entry.value.readsAs).append back
  simpa [Attribute.write, Attribute.pieces] using whole

/-- The letters of a name are no braces. -/
theorem ElementName.braceless (name : ElementName) : '{' ∉ name.letters := fun member =>
  ne_of_isAttributeChar (name.isAttributeChar_of_mem member) (by decide) rfl

namespace Tree

mutual

/-- A tree is split up into its pieces. -/
theorem readsAs : (tree : Tree) → ReadsAs tree.write tree.pieces
  | text passage => passage.readsAs
  | void name attributes => by
    have opening : ReadsAs ('<' :: name.letters) _ := readsAs_plain (by simp [name.braceless])
    have inside := readsAs_flatMap fun entry (_ : entry ∈ attributes) => entry.readsAs
    exact (opening.append inside).append (readsAs_plain (by decide))
  | element name attributes children closing _ => by
    have opening : ReadsAs ('<' :: name.letters) _ := readsAs_plain (by simp [name.braceless])
    have inside := readsAs_flatMap fun entry (_ : entry ∈ attributes) => entry.readsAs
    have bracket : ReadsAs ['>'] _ := readsAs_plain (by decide)
    have ending : ReadsAs ('<' :: '/' :: closing.letters ++ ['>']) _ :=
      readsAs_plain (by simp [closing.braceless])
    have whole := (((opening.append inside).append bracket).append
      (readsAs_all children)).append ending
    simpa [write, pieces] using whole

/-- Trees are split up into their pieces. -/
theorem readsAs_all : (trees : List Tree) → ReadsAs (writeAll trees) (piecesAll trees)
  | [] => fun _ => rfl
  | tree :: trees => tree.readsAs.append (readsAs_all trees)

end

/-- The pieces of written trees are those of the trees. -/
theorem readExpression_writeAll (trees : List Tree) :
    readExpression.pieces (writeAll trees) = piecesAll trees := by
  have reads := readsAs_all trees []
  rwa [List.append_nil, Reader.pieces, List.append_nil] at reads

end Tree

end ReadsAs

section Masked

variable {ending : Char}

/-- A masked expression is a placeholder, and perhaps the brace that stood before its end mark. -/
theorem Part.mask_expression (number : Nat) (inner : List Char) :
    ∃ tail, maskPieces number (expression inner).pieces = placeholder number ++ tail ∧
      (tail = [] ∨ tail = ['}']) := by
  simp only [Part.pieces]
  split
  · exact ⟨_, rfl, .inr rfl⟩
  · exact ⟨_, rfl, .inl rfl⟩

/-- Masking keeps whether parts are blank: a placeholder is not, and nor is an expression. -/
theorem all_isBlank_parts (parts : List Part) (number : Nat) :
    (maskPieces number (parts.flatMap Part.pieces)).all isBlank =
      (parts.flatMap Part.write).all isBlank := by
  induction parts generalizing number with
  | nil => rfl
  | cons part parts ih =>
    rw [List.flatMap_cons, List.flatMap_cons, maskPieces_append, List.all_append,
      List.all_append, ih]
    cases part with
    | char c => rfl
    | expression inner =>
      have written : (Part.expression inner).write.all isBlank = false := rfl
      have head : placeholderHead.all isBlank = false := by decide
      obtain ⟨tail, masked, -⟩ := Part.mask_expression number inner
      rw [written, masked, placeholder, List.append_assoc, List.append_assoc, List.all_append,
        head, Bool.false_and]

/-- Masking keeps whether a tree is blank. -/
theorem Tree.all_isBlank_pieces (tree : Tree) (number : Nat) :
    (maskPieces number tree.pieces).all Text.isBlank = tree.isBlank := by
  have bracket : Text.isBlank '<' = false := by decide
  cases tree with
  | text passage => exact all_isBlank_parts passage.parts number
  | void name attributes => simp [pieces, plain, maskPieces, bracket, Tree.isBlank]
  | element name attributes children closing closes =>
    simp [pieces, plain, maskPieces, bracket, Tree.isBlank]

/-- Masking keeps whether trees are blank. -/
theorem Tree.all_isBlank_piecesAll (trees : List Tree) (number : Nat) :
    (maskPieces number (piecesAll trees)).all Text.isBlank = trees.all Tree.isBlank := by
  induction trees generalizing number with
  | nil => rfl
  | cons tree trees ih =>
    rw [piecesAll, maskPieces_append, List.all_append, ih, tree.all_isBlank_pieces, List.all_cons]

/-- A masked passage does not have the character that ends it. -/
theorem Passage.not_mem_mask (passage : Passage ending) (brace : ending ≠ '}')
    (other : isPlaceholderChar ending = false) (number : Nat) :
    ending ∉ maskPieces number passage.pieces := by
  obtain ⟨parts, fits⟩ := passage
  show ending ∉ maskPieces number (parts.flatMap Part.pieces)
  induction parts generalizing number with
  | nil => exact List.not_mem_nil
  | cons part parts ih =>
    obtain ⟨here, later⟩ := List.forall_mem_cons.1 fits
    rw [List.flatMap_cons, maskPieces_append]
    refine List.not_mem_append ?_ (ih _ later)
    cases part with
    | char c => exact fun member => here.2 (List.mem_singleton.1 member).symm
    | expression inner =>
      obtain ⟨tail, masked, last⟩ := Part.mask_expression number inner
      rw [masked]
      refine List.not_mem_append (fun member => ?_) ?_
      · exact nomatch other.symm.trans (isPlaceholderChar_of_mem member)
      · rcases last with rfl | rfl <;> simp [brace]

end Masked

end ComponentPages.Markup
