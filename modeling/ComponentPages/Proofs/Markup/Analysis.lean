import ComponentPages.Proofs.Markup.Forest

/-!
# Analysis of well-formed markup

The analysis of a root says the truth about every forest (`analyze_writeAll`), although it
never parses one. Four scanners look at the masked markup, and each has its lemma: attributes
are passed over by the scanner of the first tag and by that of all tags (`Inside`), a whole
forest leaves the count of open elements as it is (`Level`), the last closing tag is the last
one written, and the start of an element is found between the tags of a root if it has one
inside (`holdsElement_piecesAll`).
-/
namespace ComponentPages.Markup

open Text

/-- A text inside of a tag that is passed over when the end of the tag is looked for. -/
structure Inside (text : List Char) : Prop where
  cuts : ∀ rest, cutTag none (text ++ rest) =
    (cutTag none rest).map fun (tag, after) => (text ++ tag, after)
  ends : ∀ rest, readTagEnd none (text ++ rest) = readTagEnd none rest

section Inside

variable {text others : List Char} {quote : Char}

/-- Nothing is passed over. -/
theorem inside_nil : Inside [] :=
  ⟨fun rest => (congrFun Option.map_id (cutTag none rest)).symm, fun _ => rfl⟩

/-- Texts are passed over one after the other. -/
theorem Inside.append (first : Inside text) (second : Inside others) :
    Inside (text ++ others) := by
  constructor
  · intro rest
    rw [List.append_assoc, first.cuts, second.cuts, Option.map_map]
    simp only [Function.comp_def, List.append_assoc]
  · intro rest
    rw [List.append_assoc, first.ends, second.ends]

/-- A character that is neither a quote nor at the end of a tag is passed over. -/
theorem inside_char {c : Char} (other : c ∉ ['>', '/', '"', '\'']) : Inside [c] := by
  simp only [List.mem_cons, List.not_mem_nil, or_false, not_or] at other
  obtain ⟨bracket, slash, double, single⟩ := other
  constructor
  · intro rest
    simp [cutTag, bracket, double, single]
  · intro rest
    rw [List.singleton_append, readTagEnd]
    · simp [bracket, double, single]
    · exact fun _ same _ => slash same

/-- A text of such characters is passed over. -/
theorem inside_plain (others : ∀ c ∈ text, c ∉ ['>', '/', '"', '\'']) : Inside text := by
  induction text with
  | nil => exact inside_nil
  | cons c text ih =>
    obtain ⟨here, later⟩ := List.forall_mem_cons.1 others
    exact (inside_char here).append (ih later)

/-- Up to the closing quote a value is passed over whatever it holds. -/
theorem cutTag_value (absent : quote ∉ text) (rest : List Char) :
    cutTag (some quote) (text ++ quote :: rest) =
      (cutTag none rest).map fun (tag, after) => (text ++ quote :: tag, after) := by
  induction text with
  | nil =>
    rw [List.nil_append, cutTag, BEq.rfl, if_pos rfl]
    rfl
  | cons c text ih =>
    obtain ⟨other, later⟩ := not_or.1 (mt List.mem_cons.2 absent)
    have apart : (c == quote) = false := beq_eq_false_iff_ne.2 (Ne.symm other)
    rw [List.cons_append, cutTag, apart, if_neg Bool.false_ne_true, ih later, Option.map_map]
    rfl

/-- Up to the closing quote a value is passed over when the tags are read. -/
theorem readTagEnd_value (absent : quote ∉ text) (rest : List Char) :
    readTagEnd (some quote) (text ++ quote :: rest) = readTagEnd none rest := by
  induction text with
  | nil => rw [List.nil_append, readTagEnd, BEq.rfl, if_pos rfl]
  | cons c text ih =>
    obtain ⟨other, later⟩ := not_or.1 (mt List.mem_cons.2 absent)
    have apart : (c == quote) = false := beq_eq_false_iff_ne.2 (Ne.symm other)
    rw [List.cons_append, readTagEnd, apart, if_neg Bool.false_ne_true, ih later]

/-- A quoted value is passed over. -/
theorem inside_quoted (quotes : quote = '"' ∨ quote = '\'') (absent : quote ∉ text) :
    Inside (quote :: text ++ [quote]) := by
  have opens : (quote == '"' || quote == '\'') = true := by simpa using quotes
  have bracket : quote ≠ '>' := by rcases quotes with rfl | rfl <;> decide
  have slash : quote ≠ '/' := by rcases quotes with rfl | rfl <;> decide
  constructor
  · intro rest
    have cuts := cutTag_value absent rest
    simp [cutTag, bracket, opens, cuts, Option.map_map, Function.comp_def]
  · intro rest
    rw [List.cons_append, List.cons_append, List.append_assoc, List.singleton_append, readTagEnd]
    · simpa [bracket, opens] using readTagEnd_value absent rest
    · exact fun _ same _ => slash same

/-- A masked attribute is passed over. -/
theorem Attribute.inside (entry : Attribute) (number : Nat) :
    Inside (maskPieces number entry.pieces) := by
  have quotes : entry.quote.char = '"' ∨ entry.quote.char = '\'' := by
    cases entry.quote with
    | single => exact .inr rfl
    | double => exact .inl rfl
  have absent : entry.quote.char ∉ maskPieces number entry.value.pieces := by
    refine entry.value.not_mem_mask ?_ ?_ number
    · rcases quotes with same | same <;> rw [same] <;> decide
    · rcases quotes with same | same <;> rw [same] <;> decide
  have name : Inside (' ' :: entry.name ++ ['=']) := by
    refine inside_plain fun c member listed => ?_
    have signs : ∀ c ∈ ['>', '/', '"', '\''], isAttributeChar c = false ∧ c ≠ ' ' ∧ c ≠ '=' :=
      List.all_iff_forall_prop.1 (by decide)
    obtain ⟨unnamed, blank, equals⟩ := signs c listed
    rcases List.mem_append.1 member with front | last
    · rcases List.mem_cons.1 front with rfl | letter
      · exact blank rfl
      · exact nomatch unnamed.symm.trans (entry.named c letter)
    · exact equals (List.mem_singleton.1 last)
  have whole := name.append (inside_quoted quotes absent)
  have masked : maskPieces number entry.pieces = ' ' :: entry.name ++ ['='] ++
      (entry.quote.char :: maskPieces number entry.value.pieces ++ [entry.quote.char]) := by
    have split := maskPieces_append_plain number
      (plain (' ' :: entry.name ++ ['=', entry.quote.char]) ++ entry.value.pieces) []
      [entry.quote.char]
    rw [List.append_nil] at split
    rw [Attribute.pieces, split, maskPieces_append, maskPieces_plain, expressionsOf_plain]
    simp [maskPieces]
  exact masked ▸ whole

/-- Masked attributes are passed over. -/
theorem inside_attributes (attributes : List Attribute) (number : Nat) :
    Inside (maskPieces number (attributes.flatMap Attribute.pieces)) := by
  induction attributes generalizing number with
  | nil => exact inside_nil
  | cons entry attributes ih =>
    rw [List.flatMap_cons, maskPieces_append]
    exact (entry.inside number).append (ih _)

end Inside

section Tags

variable {text : List Char} {c : Char}

/-- A text goes on with neither a character of the names of tags nor one of words. -/
def EndsName (text : List Char) : Prop :=
  ∀ c ∈ text.head?, isTagChar c = false ∧ isWord c = false

/-- A text ends names that goes on with neither of these characters. -/
theorem endsName_cons (ends : isTagChar c = false ∧ isWord c = false) (rest : List Char) :
    EndsName (c :: rest) := by
  intro d member
  obtain rfl := Option.some.inj member
  exact ends

/-- The end of a tag ends names. -/
theorem endsName_bracket (rest : List Char) : EndsName ('>' :: rest) :=
  endsName_cons (by decide +kernel) rest

/-- Blanks end names. -/
theorem endsName_of_isBlank (blank : isBlank c = true) (rest : List Char) :
    EndsName (c :: rest) := by
  have filled : ∀ sign ∈ [':', '-'], isBlank sign = false := List.all_iff_forall_prop.1 (by decide)
  have apart : c ∉ [':', '-'] := fun listed => nomatch blank.symm.trans (filled c listed)
  simp only [List.mem_cons, List.not_mem_nil, or_false, not_or] at apart
  refine endsName_cons ⟨?_, isWord_of_isBlank blank⟩ rest
  simp [isTagChar, isAlphanum_of_isBlank blank, apart]

/-- The name of an element is the name that is read, if it ends there. -/
theorem tagName?_letters (name : ElementName) (ends : EndsName text) :
    tagName? (name.letters ++ text) = some name.letters := by
  have all : ∀ c ∈ name.rest, isTagChar c = true := fun c member => by
    simp [isTagChar, name.continues c member]
  have stops : text.takeWhile isTagChar = [] := by
    cases text with
    | nil => rfl
    | cons c text => simp [(ends c rfl).1]
  show (if name.first.isAlpha then
    some (name.first :: (name.rest ++ text).takeWhile isTagChar) else none) = _
  rw [if_pos name.starts, List.takeWhile_append_of_pos all, stops, List.append_nil]
  rfl

/-- The name of an element is read as the name of a tag, if it ends there. -/
theorem readTagName_letters (name : ElementName) (ends : EndsName text) :
    readTagName (name.letters ++ text) = some (name.letters, text) := by
  obtain ⟨before, last, same⟩ : ∃ before last, name.letters = before ++ [last] :=
    ⟨_, _, (List.dropLast_concat_getLast (List.cons_ne_nil name.first name.rest)).symm⟩
  have named : last.isAlphanum = true := by
    have member : last ∈ name.letters := same ▸ List.mem_append_right before List.mem_cons_self
    rcases List.mem_cons.1 member with rfl | later
    · simp [Char.isAlphanum, name.starts]
    · exact name.continues last later
  have edge : isEdge last text = true := by
    cases text with
    | nil => simp [isEdge, endsWord, isWord_of_isAlphanum named]
    | cons c text => simp [isEdge, endsWord, isWord_of_isAlphanum named, (ends c rfl).2]
  simp only [readTagName, tagName?_letters name ends, Option.bind_eq_bind, Option.bind_some,
    List.drop_left]
  rw [same, List.reverse_append, List.reverse_singleton, List.singleton_append, cutAtEdge,
    if_pos edge, List.reverse_cons, List.reverse_reverse]

end Tags

/-- The masked attributes of a tag: they are passed over, do not go on with the name in front of
them, and end with neither a blank nor a slash. -/
structure AreAttributes (text : List Char) : Prop extends Inside text where
  endsName : EndsName text
  last : ∀ c ∈ text.getLast?, isBlank c = false ∧ c ≠ '/'

section Attributes

variable {attributes rest : List Char}

/-- The masked attributes of an element are attributes. -/
theorem areAttributes (entries : List Attribute) (number : Nat) :
    AreAttributes (maskPieces number (entries.flatMap Attribute.pieces)) := by
  refine ⟨inside_attributes entries number, ?_, ?_⟩
  · cases entries with
    | nil => exact nofun
    | cons entry entries =>
      have blank : isTagChar ' ' = false ∧ isWord ' ' = false := by decide +kernel
      intro c member
      obtain rfl := Option.some.inj member
      exact blank
  · rcases List.eq_nil_or_concat entries with rfl | ⟨front, entry, rfl⟩
    · exact nofun
    · have quote : isBlank entry.quote.char = false ∧ entry.quote.char ≠ '/' := by
        cases entry.quote <;> decide
      intro c member
      rw [List.concat_eq_append, List.flatMap_append, List.flatMap_singleton, Attribute.pieces,
        ← List.append_assoc, maskPieces_append, maskPieces_plain, List.getLast?_append] at member
      obtain rfl := Option.some.inj member
      exact quote

/-- Whatever follows the name of an element in its tag ends the name. -/
theorem AreAttributes.endsName_append (areAttributes : AreAttributes attributes) {c : Char}
    (ends : isTagChar c = false ∧ isWord c = false) : EndsName (attributes ++ c :: rest) := by
  cases attributes with
  | nil => exact endsName_cons ends rest
  | cons first attributes => exact areAttributes.endsName

/-- A tag that opens an element is read up to its end. -/
theorem readTag_opening (name : ElementName) (areAttributes : AreAttributes attributes)
    {tail after : List Char} {selfClosing : Bool} (ends : EndsName (attributes ++ tail))
    (closes : readTagEnd none tail = some (selfClosing, after)) :
    readTag ('<' :: (name.letters ++ (attributes ++ tail))) =
      some (⟨false, name.letters, selfClosing⟩, after) := by
  have letter : name.first ≠ '/' := by
    rintro same
    exact absurd (same ▸ name.starts) (by decide)
  have named := readTagName_letters name ends
  rw [ElementName.letters, List.cons_append] at named ⊢
  simp [readTag, letter, named, areAttributes.ends, closes]

/-- A tag that closes an element is read. -/
theorem readTag_closing (name : ElementName) (rest : List Char) :
    readTag ('<' :: '/' :: (name.letters ++ '>' :: rest)) =
      some (⟨true, name.letters, false⟩, rest) := by
  simp [readTag, readTagName_letters name (endsName_bracket rest), readTagEnd]

end Attributes

/-- A text that leaves the number of open elements of every name as it is, when one is open. -/
def Level (text : List Char) : Prop :=
  ∀ name depth rest, 1 ≤ depth → endsWithFirst name depth (readTag.pieces (text ++ rest)) =
    endsWithFirst name depth (readTag.pieces rest)

section Level

variable {text others attributes : List Char}

/-- Nothing opens or closes no element. -/
theorem level_nil : Level [] := fun _ _ _ _ => rfl

/-- Texts that leave the number of open elements as it is do so one after the other. -/
theorem Level.append (first : Level text) (second : Level others) : Level (text ++ others) := by
  intro name depth rest opened
  rw [List.append_assoc, first _ _ _ opened, second _ _ _ opened]

/-- The count of open elements passes over a text without the start of a tag. -/
theorem endsWithFirst_append (absent : '<' ∉ text) (name : List Char) (depth : Nat)
    (rest : List Char) :
    endsWithFirst name depth (readTag.pieces (text ++ rest)) =
      endsWithFirst name depth (readTag.pieces rest) := by
  induction text with
  | nil => rfl
  | cons c text ih =>
    obtain ⟨other, later⟩ := not_or.1 (mt List.mem_cons.2 absent)
    have unread : readTag (c :: (text ++ rest)) = none := by
      unfold readTag
      split
      · rename_i same
        exact absurd (List.cons.inj same).1.symm other
      · rfl
    rw [List.cons_append, Reader.pieces_cons unread, endsWithFirst, ih later]

/-- A text without the start of a tag leaves the number of open elements as it is. -/
theorem level_plain (absent : '<' ∉ text) : Level text := fun name depth rest _ =>
  endsWithFirst_append absent name depth rest

/-- A tag that closes itself leaves the number of open elements as it is. -/
theorem level_void (name : ElementName) (areAttributes : AreAttributes attributes) :
    Level ('<' :: (name.letters ++ (attributes ++ ['/', '>']))) := by
  intro given depth rest opened
  have slash : isTagChar '/' = false ∧ isWord '/' = false := by decide +kernel
  have read := readTag_opening name areAttributes (areAttributes.endsName_append slash)
    (show readTagEnd none ('/' :: '>' :: rest) = some (true, rest) by rw [readTagEnd])
  have pieces := Reader.pieces_of_read read (by
    simp only [List.length_append, List.length_cons]
    omega)
  have shape : '<' :: (name.letters ++ (attributes ++ ['/', '>'])) ++ rest =
      '<' :: (name.letters ++ (attributes ++ '/' :: '>' :: rest)) := by simp
  rw [shape, pieces, endsWithFirst]
  simp

/-- The pieces of an element are its opening tag, those of what is inside, and its closing
tag. -/
theorem endsWithFirst_element (name closing : ElementName)
    (areAttributes : AreAttributes attributes) (closes : alike closing.letters name.letters = true)
    (level : Level text) (given : List Char) (depth : Nat) (rest : List Char)
    (opened : 1 ≤ depth ∨ alike name.letters given = true) :
    endsWithFirst given depth (readTag.pieces ('<' :: (name.letters ++ (attributes ++
      '>' :: (text ++ '<' :: '/' :: (closing.letters ++ '>' :: rest)))))) =
    if alike name.letters given && depth == 0 then rest.isEmpty
    else endsWithFirst given depth (readTag.pieces rest) := by
  have bracket : isTagChar '>' = false ∧ isWord '>' = false := by decide +kernel
  have read (after : List Char) := readTag_opening name areAttributes
    (areAttributes.endsName_append bracket)
    (show readTagEnd none ('>' :: after) = some (false, after) by rw [readTagEnd]; rfl; nofun)
  have opening := Reader.pieces_of_read
    (read (text ++ '<' :: '/' :: (closing.letters ++ '>' :: rest))) (by
      simp only [List.length_append, List.length_cons]
      omega)
  have ending := Reader.pieces_of_read (readTag_closing closing rest) (by
    simp only [List.length_append, List.length_cons]
    omega)
  have same : alike closing.letters given = alike name.letters given := by
    rw [alike, alike, eq_of_beq closes]
  rw [opening, endsWithFirst]
  by_cases named : alike name.letters given = true
  · have inner : endsWithFirst given (depth + 1) (readTag.pieces
        (text ++ '<' :: '/' :: (closing.letters ++ '>' :: rest))) = _ :=
      level _ _ _ (Nat.le_add_left 1 depth)
    simp only [named, Bool.not_true, Bool.false_eq_true, ↓reduceIte, Bool.true_and, inner]
    rw [ending, endsWithFirst]
    simp only [same, named, Bool.not_true, Bool.false_eq_true, ↓reduceIte, Nat.add_sub_cancel]
    cases depth with
    | zero => simp [Reader.isEmpty_pieces]
    | succ depth => simp
  · have deep : 1 ≤ depth := opened.resolve_right named
    simp only [named, Bool.not_false, ↓reduceIte, Bool.false_and, Bool.false_eq_true]
    rw [level _ _ _ deep, ending, endsWithFirst]
    simp [same, named]

end Level

namespace Tree

/-- A masked element that closes itself. -/
theorem mask_void (name : ElementName) (attributes : List Attribute) (number : Nat) :
    maskPieces number (void name attributes).pieces =
      '<' :: (name.letters ++
        (maskPieces number (attributes.flatMap Attribute.pieces) ++ ['/', '>'])) := by
  simp only [pieces, maskPieces_append, maskPieces_plain, expressionsOf_plain,
    List.length_nil, Nat.add_zero, List.cons_append, List.append_assoc]

/-- A masked element with trees inside. -/
theorem mask_element (name : ElementName) (attributes : List Attribute) (children : List Tree)
    (closing : ElementName) (closes : alike closing.letters name.letters = true) (number : Nat) :
    maskPieces number (element name attributes children closing closes).pieces =
      '<' :: (name.letters ++ (maskPieces number (attributes.flatMap Attribute.pieces) ++
        '>' :: (maskPieces (number + (expressionsOf (attributes.flatMap Attribute.pieces)).length)
          (piecesAll children) ++ '<' :: '/' :: (closing.letters ++ ['>'])))) := by
  simp only [pieces, maskPieces_append, maskPieces_plain, expressionsOf_plain, List.nil_append,
    List.length_nil, Nat.add_zero, List.cons_append, List.append_assoc]

mutual

/-- A masked tree leaves the number of open elements as it is. -/
theorem level : (tree : Tree) → (number : Nat) → Level (maskPieces number tree.pieces)
  | text passage, number =>
    level_plain (passage.not_mem_mask (by decide) (by decide) number)
  | void name attributes, number => by
    rw [mask_void]
    exact level_void name (areAttributes attributes number)
  | element name attributes children closing closes, number => by
    intro given depth rest opened
    have inner := level_all children
      (number + (expressionsOf (attributes.flatMap Attribute.pieces)).length)
    have element := endsWithFirst_element name closing (areAttributes attributes number) closes
      inner given depth rest (.inl opened)
    have deep : (depth == 0) = false := beq_eq_false_iff_ne.2 (Nat.ne_of_gt opened)
    rw [deep, Bool.and_false, if_neg Bool.false_ne_true] at element
    rw [mask_element, ← element]
    simp

/-- Masked trees leave the number of open elements as it is. -/
theorem level_all : (trees : List Tree) → (number : Nat) →
    Level (maskPieces number (piecesAll trees))
  | [], _ => level_nil
  | tree :: trees, number => by
    rw [piecesAll, maskPieces_append]
    exact (tree.level number).append (level_all trees _)

end

/-- A text without the start of a tag holds the start of an element only behind it. -/
theorem holdsElement_append {text : List Char} (absent : '<' ∉ text) (rest : List Char) :
    holdsElement (text ++ rest) = holdsElement rest := by
  induction text with
  | nil => rfl
  | cons c text ih =>
    obtain ⟨other, later⟩ := not_or.1 (mt List.mem_cons.2 absent)
    have apart : (c == '<') = false := beq_eq_false_iff_ne.2 (Ne.symm other)
    simp only [List.cons_append, holdsElement, apart, Bool.false_and, Bool.false_or, ih later]

/-- Masked trees hold the start of an element just if one of them is an element. -/
theorem holdsElement_piecesAll (trees : List Tree) (number : Nat) :
    holdsElement (maskPieces number (piecesAll trees)) = trees.any isElement := by
  induction trees generalizing number with
  | nil => rfl
  | cons tree trees ih =>
    have opens (name : ElementName) (rest : List Char) :
        holdsElement ('<' :: (name.letters ++ rest)) = true := by
      simp [holdsElement, ElementName.letters, name.starts]
    rw [piecesAll, maskPieces_append, List.any_cons]
    cases tree with
    | text passage =>
      have absent := passage.not_mem_mask (by decide) (by decide) number
      exact (holdsElement_append absent _).trans (ih _)
    | void name attributes =>
      rw [mask_void, List.cons_append, List.append_assoc, opens]
      rfl
    | element name attributes children closing closes =>
      rw [mask_element, List.cons_append, List.append_assoc, opens]
      rfl

end Tree

section Root

variable {attributes inner tail : List Char}

/-- The first tag of an element ends where its attributes do. -/
theorem cutTag_opening (name : ElementName) (areAttributes : AreAttributes attributes)
    (rest : List Char) :
    cutTag none ('<' :: (name.letters ++ (attributes ++ rest))) =
      (cutTag none rest).map fun (tag, after) =>
        ('<' :: (name.letters ++ (attributes ++ tag)), after) := by
  have opening : Inside ('<' :: name.letters) := by
    refine inside_plain (List.forall_mem_cons.2 ⟨by decide, fun c member listed => ?_⟩)
    have signs : ∀ c ∈ ['>', '/', '"', '\''], isAttributeChar c = false :=
      List.all_iff_forall_prop.1 (by decide)
    exact nomatch (signs c listed).symm.trans (name.isAttributeChar_of_mem member)
  have cuts := (opening.append areAttributes.toInside).cuts rest
  simpa only [List.append_assoc, List.cons_append] using cuts

/-- Markup that does not start with a tag has no root. -/
theorem rootOf?_of_head {body : List Char} (other : body.head? ≠ some '<') :
    rootOf? body = none := by
  unfold rootOf?
  split
  · exact absurd rfl other
  · rfl

/-- What is known about markup that starts with a tag follows from its last closing tag and the
count of open elements. -/
theorem rootOf?_opening (name : ElementName) (areAttributes : AreAttributes attributes)
    {rest tag after : List Char} (ends : EndsName (attributes ++ rest))
    (cuts : cutTag none rest = some (tag, after)) :
    rootOf? ('<' :: (name.letters ++ (attributes ++ rest))) =
      (beforeClosing? name.letters ('<' :: (name.letters ++ (attributes ++ rest)))).bind
        fun before =>
          if (trimEnd (attributes ++ tag)).getLast? = some '/' ||
              before.length ≤ ('<' :: (name.letters ++ (attributes ++ tag))).length ||
              !endsWithFirst name.letters 0
                (readTag.pieces ('<' :: (name.letters ++ (attributes ++ rest)))) then none
          else some {
            kind := if holdsElement (after.take (before.length -
                (('<' :: (name.letters ++ (attributes ++ tag))).length + 1)))
              then .container else .single
            tag := some (String.ofList name.letters)
            classes := literalClasses (attributes ++ tag) } := by
  have opening := cutTag_opening name areAttributes rest
  rw [cuts, Option.map_some] at opening
  have left : ('<' :: (name.letters ++ (attributes ++ tag))).drop (name.letters.length + 1) =
      attributes ++ tag := by simp
  simp only [rootOf?, tagName?_letters name ends, opening, Option.bind_eq_bind, Option.bind_some,
    left]

/-- Markup that starts with an element that closes itself has no root. -/
theorem rootOf?_void (name : ElementName) (areAttributes : AreAttributes attributes) :
    rootOf? ('<' :: (name.letters ++ (attributes ++ '/' :: '>' :: tail))) = none := by
  have slash : isTagChar '/' = false ∧ isWord '/' = false := by decide +kernel
  have cuts : cutTag none ('/' :: '>' :: tail) = some (['/'], tail) := rfl
  have last : (trimEnd (attributes ++ ['/'])).getLast? = some '/' := by
    rw [trimEnd_append_cons (by decide)]
    simp [trimEnd]
  rw [rootOf?_opening name areAttributes (areAttributes.endsName_append slash) cuts]
  simp only [last, decide_true, Bool.true_or, ↓reduceIte]
  cases beforeClosing? name.letters _ with
  | none => rfl
  | some before => rfl

/-- The letters of a name are no blanks. -/
theorem ElementName.trimmed (name : ElementName) : Trimmed name.letters := by
  have filled : ∀ c ∈ name.letters, isBlank c = false := by
    intro c member
    have named : c.isAlphanum = true := by
      rcases List.mem_cons.1 member with rfl | later
      · simp [Char.isAlphanum, name.starts]
      · exact name.continues c later
    exact Bool.eq_false_iff.2 fun blank => Bool.eq_false_iff.1 (isAlphanum_of_isBlank blank) named
  exact ⟨fun c first => filled c (List.mem_of_head? first),
    fun c last => filled c (List.mem_of_getLast? last)⟩

/-- Markup that ends with a closing tag is cut there. -/
theorem beforeClosing?_append {name : List Char} (closing : ElementName)
    (closes : alike closing.letters name = true) (front : List Char) :
    beforeClosing? name (front ++ '<' :: '/' :: (closing.letters ++ ['>'])) = some front := by
  have absent : '<' ∉ ['/'] ++ (closing.letters ++ ['>']) := by
    have letter : '<' ∉ closing.letters := fun member =>
      ne_of_isAttributeChar (closing.isAttributeChar_of_mem member) (by decide) rfl
    simp [letter]
  have cuts : cutLast ['<', '/'] (front ++ '<' :: '/' :: (closing.letters ++ ['>'])) =
      some (front, closing.letters ++ ['>']) := cutLast_append absent front
  have named : trim (closing.letters ++ ['>']).dropLast = closing.letters := by
    rw [List.dropLast_concat]
    have trims : trim ([] ++ closing.letters ++ []) = closing.letters :=
      closing.trimmed.trim_append nofun nofun
    rwa [List.nil_append, List.append_nil] at trims
  have last : (front ++ '<' :: '/' :: (closing.letters ++ ['>'])).getLast? = some '>' := by
    have shape : front ++ '<' :: '/' :: (closing.letters ++ ['>']) =
        front ++ '<' :: '/' :: closing.letters ++ ['>'] := by simp
    rw [shape, List.getLast?_concat]
  simp only [beforeClosing?, last, ↓reduceIte, cuts, named, closes]

/-- Markup that starts with an element has a root just if nothing follows the element. -/
theorem rootOf?_element (name closing : ElementName) (areAttributes : AreAttributes attributes)
    (closes : alike closing.letters name.letters = true) (level : Level inner) :
    rootOf? ('<' :: (name.letters ++ (attributes ++
        '>' :: (inner ++ '<' :: '/' :: (closing.letters ++ '>' :: tail))))) =
      if tail.isEmpty then some {
        kind := if holdsElement inner then .container else .single
        tag := some (String.ofList name.letters)
        classes := literalClasses attributes }
      else none := by
  have bracket : isTagChar '>' = false ∧ isWord '>' = false := by decide +kernel
  have cuts (after : List Char) : cutTag none ('>' :: after) = some ([], after) := rfl
  have same : alike name.letters name.letters = true := BEq.rfl
  have counts := endsWithFirst_element name closing areAttributes closes level name.letters 0 tail
    (.inr same)
  rw [same, Bool.true_and, BEq.rfl, if_pos rfl] at counts
  rw [rootOf?_opening name areAttributes (areAttributes.endsName_append bracket) (cuts _), counts]
  cases tail with
  | cons c tail =>
    simp only [List.isEmpty_cons, Bool.not_false, Bool.or_true, ↓reduceIte]
    cases beforeClosing? name.letters _ with
    | none => rfl
    | some before => rfl
  | nil =>
    have shape : '<' :: (name.letters ++ (attributes ++
        '>' :: (inner ++ '<' :: '/' :: (closing.letters ++ ['>'])))) =
        '<' :: (name.letters ++ (attributes ++ '>' :: inner)) ++
          '<' :: '/' :: (closing.letters ++ ['>']) := by simp
    have unslashed : (trimEnd attributes).getLast? ≠ some '/' := by
      have trims : trimEnd (attributes ++ []) = attributes :=
        trimEnd_append nofun fun c last => (areAttributes.last c last).1
      rw [List.append_nil] at trims
      rw [trims]
      exact fun slash => (areAttributes.last _ slash).2 rfl
    have longer : ¬ ('<' :: (name.letters ++ (attributes ++ '>' :: inner))).length ≤
        ('<' :: (name.letters ++ attributes)).length := by
      simp only [List.length_cons, List.length_append]
      omega
    have between : (inner ++ '<' :: '/' :: (closing.letters ++ ['>'])).take
        (('<' :: (name.letters ++ (attributes ++ '>' :: inner))).length -
          (('<' :: (name.letters ++ attributes)).length + 1)) = inner := by
      have length : ('<' :: (name.letters ++ (attributes ++ '>' :: inner))).length -
          (('<' :: (name.letters ++ attributes)).length + 1) = inner.length := by
        simp only [List.length_cons, List.length_append]
        omega
      rw [length, List.take_left]
    rw [shape, beforeClosing?_append closing closes, Option.bind_some, List.append_nil]
    simp only [unslashed, longer, between, decide_false, List.isEmpty_nil, Bool.not_true,
      Bool.or_false, Bool.false_eq_true, ↓reduceIte]

end Root

namespace Tree

/-- The pieces of trees one after the other. -/
theorem piecesAll_append (trees others : List Tree) :
    piecesAll (trees ++ others) = piecesAll trees ++ piecesAll others := by
  induction trees with
  | nil => rfl
  | cons tree trees ih =>
    rw [List.cons_append, piecesAll, piecesAll, ih, List.append_assoc]

/-- Trimmed masked markup starts with the first tree that is not blank. -/
theorem trim_mask_writeAll {trees others : List Tree} {tree : Tree}
    (filled : trees.filter (fun tree => !tree.isBlank) = tree :: others) :
    ∃ more number next, trim (mask (writeAll trees)) =
        trim (maskPieces number tree.pieces ++ maskPieces next (piecesAll more)) ∧
      more.all isBlank = others.isEmpty := by
  obtain ⟨front, more, rfl, blank, -, rfl⟩ := List.filter_eq_cons_iff.1 filled
  refine ⟨more, 0 + (expressionsOf (piecesAll front)).length,
    0 + (expressionsOf (piecesAll front)).length + (expressionsOf tree.pieces).length, ?_, ?_⟩
  · have blanks : ∀ c ∈ maskPieces 0 (piecesAll front), Text.isBlank c = true := by
      refine List.all_eq_true.1 ((all_isBlank_piecesAll front 0).trans ?_)
      exact List.all_eq_true.2 fun tree member => by simpa using blank tree member
    rw [mask, readExpression_writeAll, piecesAll_append, piecesAll, maskPieces_append,
      maskPieces_append, trim, trimStart, List.dropWhile_append_of_pos blanks]
    rfl
  · rw [Bool.eq_iff_iff, List.isEmpty_iff, List.filter_eq_nil_iff, List.all_eq_true]
    simp only [Bool.not_eq_true, Bool.not_eq_false']

/-- A text that starts with a character that is no blank and has another one is trimmed behind
the latter. -/
theorem trim_cons_append {c d : Char} (first : Text.isBlank c = false)
    (last : Text.isBlank d = false) (front back : List Char) :
    trim (c :: (front ++ d :: back)) = c :: (front ++ d :: trimEnd back) := by
  have starts : trimStart (c :: (front ++ d :: back)) = c :: (front ++ d :: back) := by
    rw [trimStart, List.dropWhile_cons_of_neg (by simp [first])]
  rw [trim, starts]
  exact trimEnd_append_cons last (c :: front) back

/-- A text that is not blank and has no start of a tag does not start with one when it is
trimmed, whatever follows it. -/
theorem head?_trim_append {text : List Char} (filled : text.all Text.isBlank = false)
    (absent : '<' ∉ text) (rest : List Char) : (trim (text ++ rest)).head? ≠ some '<' := by
  have whole : text.takeWhile Text.isBlank ++ trimStart text = text :=
    List.takeWhile_append_dropWhile
  cases starts : trimStart text with
  | nil =>
    rw [starts, List.append_nil] at whole
    rw [← whole, List.all_takeWhile] at filled
    exact nomatch filled
  | cons c others =>
    rw [starts] at whole
    have other : Text.isBlank c = false := trimStart_eq_cons starts
    have blanks : ∀ c ∈ text.takeWhile Text.isBlank, Text.isBlank c = true :=
      List.all_eq_true.1 List.all_takeWhile
    have trims : trimStart (text ++ rest) = c :: (others ++ rest) := by
      rw [← whole, List.append_assoc]
      exact trimStart_append blanks fun d same => Option.some.inj same ▸ other
    rw [trim, trims]
    have ends := trimEnd_append_cons other [] (others ++ rest)
    rw [List.nil_append, List.nil_append] at ends
    rw [ends]
    intro same
    obtain rfl := Option.some.inj same
    exact absent (whole ▸ List.mem_append_right _ List.mem_cons_self)

/-- Trimmed markup that starts with an element that closes itself has no root. -/
theorem rootOf?_trim_void (name : ElementName) (attributes : List Attribute) (number : Nat)
    (rest : List Char) :
    rootOf? (trim (maskPieces number (void name attributes).pieces ++ rest)) = none := by
  have shape := trim_cons_append (by decide : Text.isBlank '<' = false)
    (by decide : Text.isBlank '>' = false) (name.letters ++
      (maskPieces number (attributes.flatMap Attribute.pieces) ++ ['/'])) rest
  rw [mask_void]
  simp only [List.append_assoc, List.cons_append, List.nil_append] at shape ⊢
  rw [shape]
  exact rootOf?_void name (areAttributes attributes number)

/-- Trimmed markup that starts with an element has it as its root just if the rest is blank. -/
theorem rootOf?_trim_element (name : ElementName) (attributes : List Attribute)
    (children : List Tree) (closing : ElementName)
    (closes : alike closing.letters name.letters = true) (number : Nat) (rest : List Char) :
    rootOf? (trim (maskPieces number (element name attributes children closing closes).pieces ++
        rest)) =
      if rest.all Text.isBlank then some {
        kind := if children.any isElement then .container else .single
        tag := some (String.ofList name.letters)
        classes := literalClasses (maskPieces number (attributes.flatMap Attribute.pieces)) }
      else none := by
  have inner := level_all children
    (number + (expressionsOf (attributes.flatMap Attribute.pieces)).length)
  have root := @rootOf?_element _ _ (trimEnd rest) name closing (areAttributes attributes number)
    closes inner
  have shape := trim_cons_append (by decide : Text.isBlank '<' = false)
    (by decide : Text.isBlank '>' = false) (name.letters ++
      (maskPieces number (attributes.flatMap Attribute.pieces) ++
        '>' :: (maskPieces (number + (expressionsOf (attributes.flatMap
          Attribute.pieces)).length) (piecesAll children) ++ '<' :: '/' :: closing.letters))) rest
  rw [isEmpty_trimEnd, holdsElement_piecesAll] at root
  rw [mask_element]
  simp only [List.append_assoc, List.cons_append, List.nil_append] at shape ⊢
  rw [shape, root]

/-- The analysis of a forest: it has a root just if it is one element with trees inside, blank
texts aside, and then the root is that element, and a container just if one of the trees
inside is an element. -/
theorem analyze_writeAll (trees : List Tree) :
    let root := analyze (String.ofList (writeAll trees))
    match trees.filter fun tree => !tree.isBlank with
    | [element name _ children _ _] =>
      root.kind = (if children.any isElement then .container else .single) ∧
        root.tag = some (String.ofList name.letters)
    | _ => root.kind = .normal := by
  have none {body : List Char} (rootless : rootOf? body = none) :
      ((rootOf? body).getD Root.normal).kind = .normal := by
    rw [rootless]
    rfl
  intro root
  have analyzed : root = (rootOf? (trim (mask (writeAll trees)))).getD Root.normal := by
    show analyze _ = _
    rw [analyze, String.toList_ofList]
  rw [analyzed]
  clear analyzed root
  cases filled : trees.filter fun tree => !tree.isBlank with
  | nil =>
    have blank : ∀ c ∈ mask (writeAll trees), Text.isBlank c = true := by
      refine List.all_eq_true.1 ?_
      rw [mask, readExpression_writeAll, all_isBlank_piecesAll, List.all_eq_true]
      simpa using filled
    have nothing : trim ([] ++ [] ++ mask (writeAll trees)) = [] :=
      Trimmed.trim_append ⟨nofun, nofun⟩ nofun blank
    refine none (rootOf?_of_head ?_)
    rw [← List.nil_append (mask _), ← List.append_nil [], nothing]
    exact nofun
  | cons tree others =>
    obtain ⟨more, number, next, trims, rest⟩ := trim_mask_writeAll filled
    rw [trims]
    have unblank : tree.isBlank = false := by
      have member : tree ∈ trees.filter fun tree => !tree.isBlank := filled ▸ List.mem_cons_self
      simpa using (List.mem_filter.1 member).2
    cases tree with
    | text passage =>
      refine none (rootOf?_of_head (head?_trim_append ?_ ?_ _))
      · rw [(text passage).all_isBlank_pieces, unblank]
      · exact passage.not_mem_mask (by decide) (by decide) number
    | void name attributes => exact none (rootOf?_trim_void name attributes number _)
    | element name attributes children closing closes =>
      rw [rootOf?_trim_element name attributes children closing closes, all_isBlank_piecesAll, rest]
      cases others with
      | nil => exact ⟨rfl, rfl⟩
      | cons other others => rfl

/-- A blank and an element with a tag in the value of its attribute, around an element of the same
name with a tag in its expression. The closing names are in the other case. -/
def nested : List Tree :=
  let lower : ElementName := ⟨'a', [], by decide, List.forall_mem_nil _⟩
  let upper : ElementName := ⟨'A', [], by decide, List.forall_mem_nil _⟩
  let closing : List Char := ['<', '/', 'a', '>']
  let title : Attribute :=
    ⟨['t'], List.forall_mem_singleton.2 rfl, .single, ⟨closing.map .char, by decide⟩⟩
  let inner : Tree := .text ⟨[.expression (' ' :: '"' :: closing ++ ['"', ' '])], by decide⟩
  [.text ⟨[.char ' '], by decide⟩,
    .element lower [title] [.element upper [] [inner] lower (by decide)] upper (by decide)]

/-- Tags inside of values and expressions do not count, and the case of a closing name neither. -/
theorem analyze_writeAll_nested :
    String.ofList (writeAll nested) = " <a t='</a>'><A>\x7b\x7b \"</a>\" \x7d\x7d</a></A>" ∧
      (analyze (String.ofList (writeAll nested))).kind = .container ∧
      (analyze (String.ofList (writeAll nested))).tag = some "a" :=
  ⟨by cbv, analyze_writeAll nested⟩

end Tree

end ComponentPages.Markup
