import ComponentPages.Proofs.Markup.OpeningTag
import Mathlib.Data.List.Infix

/-!
# The class attribute of a root

The attributes of a tag are read from left to right, piece by piece (`Place.next`,
`Place.read`): a quoted value is a unit, and so is an expression. The class that is injected is
the first class of the first class attribute that is read of the tag then
(`injectClass_leads`), if the place where it is put is one for an attribute of its own
(`TakesClass`). It is not always: what looks like a class attribute is also found inside of the
value of another attribute (`injectClass_into_value`).
-/
namespace ComponentPages.Markup

open Text

/-- An attribute of a tag, with its value if it has one. -/
structure TagAttribute where
  name : List Piece
  value : Option (List Piece)
  deriving DecidableEq

/-- Whether an attribute is named `class` in any case. -/
def TagAttribute.isClass (entry : TagAttribute) : Bool := alike (textsOf entry.name) "class".toList

/-- The first word of a value. -/
def firstWord (value : List Piece) : List Piece :=
  (value.dropWhile isBlankPiece).takeWhile fun piece => !isBlankPiece piece

/-- What a place in a tag is in. -/
inductive Place where
  /-- The name of the tag. -/
  | element
  | between
  | named (name : List Piece)
  /-- The blanks after a name. -/
  | spaced (name : List Piece)
  /-- The equals sign after a name and the blanks after it. -/
  | valued (name : List Piece)
  | quoted (name : List Piece) (quote : Char) (value : List Piece)
  /-- A value without quotes. -/
  | bare (name value : List Piece)

namespace Place

/-- The attribute that a place is in, as it is if the tag ends there. -/
def pending : Place → List TagAttribute
  | element | between => []
  | named name | spaced name => [⟨name, none⟩]
  | valued name => [⟨name, some []⟩]
  | quoted name _ value | bare name value => [⟨name, some value⟩]

/-- The place after a piece, and the attribute that the piece completes. -/
def next (place : Place) (piece : Piece) : Place × List TagAttribute :=
  match place with
  | element => if isBlankPiece piece ∨ piece = .inl '/' then (between, []) else (element, [])
  | between =>
    if isBlankPiece piece ∨ piece = .inl '/' then (between, []) else (named [piece], [])
  | named name =>
    if isBlankPiece piece then (spaced name, [])
    else if piece = .inl '/' then (between, [⟨name, none⟩])
    else if piece = .inl '=' then (valued name, [])
    else (named (name ++ [piece]), [])
  | spaced name =>
    if isBlankPiece piece then (spaced name, [])
    else if piece = .inl '/' then (between, [⟨name, none⟩])
    else if piece = .inl '=' then (valued name, [])
    else (named [piece], [⟨name, none⟩])
  | valued name =>
    if isBlankPiece piece then (valued name, [])
    else if piece = .inl '"' then (quoted name '"' [], [])
    else if piece = .inl '\'' then (quoted name '\'' [], [])
    else (bare name [piece], [])
  | quoted name quote value =>
    if piece = .inl quote then (between, [⟨name, some value⟩])
    else (quoted name quote (value ++ [piece]), [])
  | bare name value =>
    if isBlankPiece piece then (between, [⟨name, some value⟩])
    else (bare name (value ++ [piece]), [])

/-- The place after pieces, and the attributes that are complete there. -/
def read : Place → List Piece → Place × List TagAttribute
  | place, [] => (place, [])
  | place, piece :: pieces =>
    let (here, complete) := place.next piece
    let (last, more) := here.read pieces
    (last, complete ++ more)

/-- The attributes that are read from a place on, where the tag ends after the pieces. -/
def attributes (place : Place) (pieces : List Piece) : List TagAttribute :=
  (place.read pieces).2 ++ (place.read pieces).1.pending

/-- Whether a blank at a place is neither in a value nor in front of one. -/
def isOpen : Place → Bool
  | valued _ | quoted _ _ _ => false
  | _ => true

end Place

/-- The attributes of a tag, from left to right. -/
def OpeningTag.attributes (opening : OpeningTag) : List TagAttribute :=
  Place.element.attributes ((readExpression.pieces opening.tag).dropLast.drop 1)

/-- The place where a tag takes a class is one for an attribute, and no class attribute is in
front of it. -/
def TakesClass (tag : List Piece) : Prop :=
  ∀ front ∈ tag.inits, maskPieces 0 front = classFront (maskPieces 0 tag.dropLast) →
    (Place.element.read (front.drop 1)).1.isOpen = true ∧
      ∀ entry ∈ Place.element.attributes (front.drop 1), entry.isClass = false

instance (tag : List Piece) : Decidable (TakesClass tag) :=
  inferInstanceAs (Decidable (∀ front ∈ tag.inits,
    maskPieces 0 front = classFront (maskPieces 0 tag.dropLast) →
      (Place.element.read (front.drop 1)).1.isOpen = true ∧
        ∀ entry ∈ Place.element.attributes (front.drop 1), entry.isClass = false))

namespace Place

variable {place : Place} {pieces others name value : List Piece} {quote : Char}

/-- Pieces one after the other are read one after the other. -/
theorem read_append (place : Place) (pieces others : List Piece) :
    place.read (pieces ++ others) =
      (((place.read pieces).1.read others).1,
        (place.read pieces).2 ++ ((place.read pieces).1.read others).2) := by
  induction pieces generalizing place with
  | nil => rfl
  | cons piece pieces ih => simp only [List.cons_append, read, ih, List.append_assoc]

/-- The attributes that are complete after some pieces come before all others. -/
theorem attributes_append (place : Place) (pieces others : List Piece) :
    place.attributes (pieces ++ others) =
      (place.read pieces).2 ++ (place.read pieces).1.attributes others := by
  simp only [attributes, read_append, List.append_assoc]

/-- After a blank at an open place, a piece starts the name of an attribute. -/
theorem read_blank {c letter : Char} (isOpen : place.isOpen = true) (blank : isBlank c = true)
    (filled : isBlank letter = false) (other : letter ≠ '/' ∧ letter ≠ '=') :
    place.read [.inl c, .inl letter] = (named [.inl letter], place.pending) := by
  have start : isBlankPiece (.inl c) = true := blank
  have next : isBlankPiece (.inl letter) = false := filled
  cases place with
  | valued name => exact nomatch isOpen
  | quoted name quote value => exact nomatch isOpen
  | element | between | named name | spaced name | bare name value =>
    simp [read, Place.next, pending, start, next, other]

/-- The letters of a name are read up to its end. -/
theorem read_named {letters : List Char}
    (others : ∀ c ∈ letters, isBlank c = false ∧ c ≠ '/' ∧ c ≠ '=') :
    (named name).read (plain letters) = (named (name ++ plain letters), []) := by
  induction letters generalizing name with
  | nil => simp [read, plain]
  | cons c letters ih =>
    obtain ⟨⟨filled, slash, equals⟩, later⟩ := List.forall_mem_cons.1 others
    have next : isBlankPiece (.inl c) = false := filled
    have step : (named name).next (.inl c) = (named (name ++ [.inl c]), []) := by
      simp [Place.next, next, slash, equals]
    show (named name).read (.inl c :: plain letters) = _
    rw [read, step]
    simp only [ih later]
    simp [plain]

/-- A quoted value is read up to its quote. -/
theorem read_quoted (absent : .inl quote ∉ pieces) :
    (quoted name quote value).read pieces = (quoted name quote (value ++ pieces), []) := by
  induction pieces generalizing value with
  | nil => simp [read]
  | cons piece pieces ih =>
    obtain ⟨other, later⟩ := not_or.1 (mt List.mem_cons.2 absent)
    have step : (quoted name quote value).next piece =
        (quoted name quote (value ++ [piece]), []) := if_neg (Ne.symm other)
    rw [read, step]
    simp only [ih later, List.append_assoc]
    rfl

/-- A class attribute is read behind pieces after which the place is open. -/
theorem attributes_class {c : Char} {front : List Piece}
    (isOpen : (place.read front).1.isOpen = true) (blank : isBlank c = true)
    (quotes : quote = '"' ∨ quote = '\'') (absent : .inl quote ∉ value) (last : List Piece) :
    place.attributes
        (front ++ plain (c :: "class=".toList ++ [quote]) ++ value ++ .inl quote :: last) =
      place.attributes front ++ ⟨plain "class".toList, some value⟩ :: between.attributes last := by
  have start : (place.read front).1.read (plain [c, 'c']) =
      (named (plain ['c']), (place.read front).1.pending) :=
    read_blank isOpen blank (by decide) (by decide)
  have word : (named (plain ['c'])).read (plain "lass".toList) =
      (named (plain "class".toList), []) := read_named (List.all_iff_forall_prop.1 (by decide))
  have sign : (named (plain "class".toList)).read (plain ['=', quote]) =
      (quoted (plain "class".toList) quote [], []) := by
    rcases quotes with rfl | rfl <;> rfl
  have inside : (quoted (plain "class".toList) quote []).read value =
      (quoted (plain "class".toList) quote value, []) := read_quoted absent
  have ending : (quoted (plain "class".toList) quote value).read [.inl quote] =
      (between, [⟨plain "class".toList, some value⟩]) := by
    simp [read, next]
  have shape : front ++ plain (c :: "class=".toList ++ [quote]) ++ value ++ .inl quote :: last =
      front ++ (plain [c, 'c'] ++ (plain "lass".toList ++ (plain ['=', quote] ++
        (value ++ ([.inl quote] ++ last))))) := by
    simp [plain]
  rw [shape, attributes_append, attributes_append, start, attributes_append, word,
    attributes_append, sign, attributes_append, inside, attributes_append, ending]
  exact (List.append_assoc _ _ _).symm

end Place

section Class

variable {pieces edited before shown : List Piece} {scope : List Char}

/-- A plain class is the first word of a value that it starts and nothing is joined to. -/
theorem PlainClass.firstWord_eq (plainClass : PlainClass scope) {value : List Piece}
    (apart : ∀ piece ∈ value.head?, isBlankPiece piece = true) :
    firstWord (plain scope ++ value) = plain scope := by
  have filled : ∀ piece ∈ plain scope, (!isBlankPiece piece) = true := by
    intro piece member
    obtain ⟨c, listed, rfl⟩ := List.mem_map.1 member
    exact congrArg (!·) (plainClass.isBlank_eq_false listed)
  have start : (plain scope ++ value).dropWhile isBlankPiece = plain scope ++ value := by
    obtain ⟨c, rest, same⟩ := List.exists_cons_of_ne_nil plainClass.filled
    subst same
    have first : isBlankPiece (.inl c) = false := plainClass.isBlank_eq_false List.mem_cons_self
    exact List.dropWhile_cons_of_neg (by simp [first])
  rw [firstWord, start, List.takeWhile_append_of_pos filled]
  cases value with
  | nil => rw [List.takeWhile_nil, List.append_nil]
  | cons piece value =>
    rw [List.takeWhile_cons_of_neg (by simp [apart piece rfl]), List.append_nil]

/-- However a class is put on a tag, it is the first word of the quoted value of a class
attribute. -/
theorem Classed.exists_value (classed : Classed scope before pieces edited)
    (plainClass : PlainClass scope) : ∃ c quote value last, isBlank c = true ∧
      (quote = '"' ∨ quote = '\'') ∧ .inl quote ∉ value ∧ firstWord value = plain scope ∧
      edited =
        before ++ plain (c :: "class=".toList ++ [quote]) ++ value ++ .inl quote :: last := by
  have absentScope {quote : Char} (quotes : quote = '"' ∨ quote = '\'') :
      .inl quote ∉ plain scope := by
    rw [mem_plain]
    rcases quotes with rfl | rfl <;> exact plainClass.not_mem (by decide)
  have alone : firstWord (plain scope) = plain scope := by
    have word : firstWord (plain scope ++ []) = plain scope := plainClass.firstWord_eq nofun
    rwa [List.append_nil] at word
  have spaced (value : List Piece) :
      firstWord (plain scope ++ .inl ' ' :: value) = plain scope := by
    refine plainClass.firstWord_eq fun piece head => ?_
    obtain rfl := Option.some.inj head
    decide
  cases classed with
  | @value c quote name value last blank neutral quotes absent =>
    refine ⟨c, quote, plain scope ++ .inl ' ' :: value, last, blank, quotes, ?_, spaced value,
      by simp [plain]⟩
    refine List.not_mem_append (absentScope quotes) (List.not_mem_cons_of_ne_of_not_mem ?_ absent)
    rcases quotes with rfl | rfl <;> decide
  | @blanks c quote name blanks last blank neutral quotes allBlank =>
    exact ⟨c, quote, plain scope, last, blank, quotes, absentScope quotes, alone,
      by simp [plain]⟩
  | @bare c name value last blank neutral unquoted =>
    refine ⟨c, '"', plain scope ++ .inl ' ' :: value, last, blank, .inl rfl, ?_, spaced value,
      by simp [plain]⟩
    refine List.not_mem_append (absentScope (.inl rfl))
      (List.not_mem_cons_of_ne_of_not_mem (by decide) fun member => ?_)
    exact absurd (unquoted _ member) (by decide)
  | @added blanks tail allBlank ends =>
    exact ⟨' ', '"', plain scope, plain tail, by decide, .inl rfl, absentScope (.inl rfl), alone,
      by simp [plain]⟩

/-- The class attribute that a class is put in is the first one of a tag, if the place in front of
it is open and no class attribute is there. -/
theorem Classed.find_isClass (classed : Classed scope before pieces (shown ++ [.inl '>']))
    (plainClass : PlainClass scope) (head : before.head? = some (.inl '<'))
    (isOpen : (Place.element.read (before.drop 1)).1.isOpen = true)
    (others : ∀ entry ∈ Place.element.attributes (before.drop 1), entry.isClass = false) :
    ∃ entry value, (Place.element.attributes (shown.drop 1)).find? TagAttribute.isClass =
        some entry ∧ entry.value = some value ∧ firstWord value = plain scope := by
  obtain ⟨c, quote, value, last, blank, quotes, absent, word, same⟩ :=
    classed.exists_value plainClass
  -- The quote is not the `>` at the end of the tag, so all of the attribute is in front of that.
  obtain ⟨last, rfl⟩ : ∃ init, last = init ++ [.inl '>'] := by
    rcases List.eq_nil_or_concat last with rfl | ⟨init, piece, rfl⟩
    · obtain rfl := Sum.inl.inj (List.cons.inj (List.append_inj' same rfl).2).1
      exact absurd quotes (by decide)
    · rw [List.concat_eq_append, ← List.cons_append, ← List.append_assoc] at same
      exact ⟨init, by rw [List.concat_eq_append, (List.append_inj' same rfl).2]⟩
  rw [← List.cons_append, ← List.append_assoc] at same
  obtain rfl := List.append_cancel_right same
  obtain ⟨more, rfl⟩ := List.head?_eq_some_iff.1 head
  refine ⟨⟨plain "class".toList, some value⟩, value, ?_, rfl, word⟩
  simp only [List.cons_append, List.drop_one, List.tail_cons] at isOpen others ⊢
  rw [← List.cons_append, Place.attributes_class isOpen blank quotes absent last, List.find?_append,
    List.find?_eq_none.2 (by simpa using others)]
  rfl

end Class

/-- If the tag that markup starts with has a place for it, the class of a scope is the first class
of the first class attribute of that tag after it is injected. -/
theorem injectClass_leads (name body markup : String)
    (free : ¬ placeholderHead <:+: body.toList)
    (legible : ∀ opening ∈ openingTag? body.toList, Legible (readExpression.pieces opening.tag))
    (takes : ∀ opening ∈ openingTag? body.toList,
      TakesClass (readExpression.pieces opening.tag))
    (injected : injectClass body (scopeClassOf name) = some markup) :
    ∃ opening ∈ openingTag? markup.toList, ∃ entry value,
      opening.attributes.find? TagAttribute.isClass = some entry ∧ entry.value = some value ∧
      firstWord value = plain (scopeClassOf name).toList := by
  have plainClass := plainClass_scopeClassOf name
  cases found : openingTag? body.toList with
  | none =>
    rw [injectClass_eq_none_iff.2 found] at injected
    exact nomatch injected
  | some opening =>
    obtain ⟨before, tag, edited, injects⟩ :=
      exists_injects plainClass free found (legible opening found)
    obtain rfl := Option.some.inj (injected.symm.trans injects.made)
    -- The place in front of the class is the one that the condition is about.
    have place := takes opening found
    rw [injects.pieces] at place
    obtain ⟨old, -, after, whole, -⟩ := injects.classed.region plainClass.neutral
    obtain ⟨isOpen, others⟩ := place before
      ((List.mem_inits _ _).2 ⟨old ++ after, by rw [whole, List.append_assoc]⟩)
      (by rw [List.dropLast_concat, injects.front])
    -- The tag with the class ends with a `>` again, in front of which its attributes are read.
    obtain ⟨-, shown, -, -, -, ends⟩ := exists_openingPieces injects.opens
    obtain rfl : edited = shown ++ [.inl '>'] := injects.reread.symm.trans ends
    rw [String.toList_ofList]
    refine ⟨_, injects.opens, ?_⟩
    rw [OpeningTag.attributes, injects.reread, List.dropLast_concat]
    exact injects.classed.find_isClass plainClass injects.head isOpen others

/-- The class of a badge is put in front of its other class, behind a title that is not read. -/
theorem injectClass_leads_badge :
    let body := "<b title='a > \x7b\x7b.n\x7d\x7d' Class = \"red\" id=c/>"
    let markup := "<b title='a > \x7b\x7b.n\x7d\x7d' class=\"s-ca9781 red\" id=c/>"
    ¬ placeholderHead <:+: body.toList ∧
    (∀ opening ∈ openingTag? body.toList, Legible (readExpression.pieces opening.tag)) ∧
    (∀ opening ∈ openingTag? body.toList, TakesClass (readExpression.pieces opening.tag)) ∧
    injectClass body (scopeClassOf "a") = some markup ∧
    ∃ opening ∈ openingTag? markup.toList, ∃ entry value,
      opening.attributes.find? TagAttribute.isClass = some entry ∧ entry.value = some value ∧
      firstWord value = plain (scopeClassOf "a").toList := by
  intro body markup
  have found : openingTag? body.toList = some ⟨[], body.toList, []⟩ := by decide +kernel
  have free : ¬ placeholderHead <:+: body.toList := by decide +kernel
  have legible : ∀ opening ∈ openingTag? body.toList,
      Legible (readExpression.pieces opening.tag) := by
    intro opening member
    obtain rfl := Option.some.inj (found.symm.trans member)
    exact (unreserved_of_not_mem (by decide +kernel)).legible
  have takes : ∀ opening ∈ openingTag? body.toList,
      TakesClass (readExpression.pieces opening.tag) := by
    intro opening member
    obtain rfl := Option.some.inj (found.symm.trans member)
    decide +kernel
  have injected : injectClass body (scopeClassOf "a") = some markup := by decide +kernel
  exact ⟨free, legible, takes, injected,
    injectClass_leads "a" body markup free legible takes injected⟩

/-- What looks like a class attribute in the value of a title gets the class, and the tag has no
class attribute. -/
theorem injectClass_into_value :
    let body := "<b title=\" class='x'\">y</b>"
    let markup := "<b title=\" class='s-ca9781 x'\">y</b>"
    injectClass body (scopeClassOf "a") = some markup ∧
    ¬ ∃ opening ∈ openingTag? markup.toList, ∃ entry value,
      opening.attributes.find? TagAttribute.isClass = some entry ∧ entry.value = some value ∧
      firstWord value = plain (scopeClassOf "a").toList := by
  intro body markup
  refine ⟨by decide +kernel, ?_⟩
  obtain ⟨opening, found, none⟩ : ∃ opening, openingTag? markup.toList = some opening ∧
      opening.attributes.find? TagAttribute.isClass = none :=
    ⟨⟨[], "<b title=\" class='s-ca9781 x'\">".toList, "y</b>".toList⟩, by decide +kernel,
      by decide +kernel⟩
  rintro ⟨other, member, entry, value, first, -⟩
  obtain rfl := Option.some.inj (found.symm.trans member)
  exact nomatch none.symm.trans first

end ComponentPages.Markup
