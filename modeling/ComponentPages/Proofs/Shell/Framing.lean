import ComponentPages.Shell
import ComponentPages.Proofs.Text.Cut
import Mathlib

/-!
# The slots of a page shell

A compiled shell is its source with two slots, one right before the first end of the head and one
right before the first end of the body (`compile_frames`). The end of the body is looked for in a
text that already has the slot for the style. That slot starts and ends with a line break, and no
end has one. So an end is in front of the slot or behind it, where it was in the source
(`insertion_cases`), and the first one stays the first (`FirstAt.insert`).

The references of a shell are the names of the invocations in its source. `Invokes` lists them as a
leftmost search does; it gives one list for each source (`invokes_iff`).
-/
namespace ComponentPages.Shell

open Text

/-- A word is for the first time at the end of the text before. -/
structure FirstAt (word before rest : List Char) : Prop where
  starts : word <+: rest
  first : ∀ front behind, before ++ rest = front ++ (word ++ behind) →
    before.length ≤ front.length

/-- A document with the slots of a shell, each right before the first of its ends. -/
def Framed (source document : List Char) : Prop :=
  ∃ front middle back, source = front ++ (middle ++ back) ∧
    (FirstAt headEnd.toList front (middle ++ back) ∧ FirstAt bodyEnd.toList (front ++ middle) back ∧
        document = front ++ (styleSlot.toList ++ (middle ++ (scriptSlot.toList ++ back))) ∨
      FirstAt bodyEnd.toList front (middle ++ back) ∧ FirstAt headEnd.toList (front ++ middle) back ∧
        document = front ++ (scriptSlot.toList ++ (middle ++ (styleSlot.toList ++ back))))

section Occurrences

variable {separator letter : Char} {word left right front behind inner : List Char}

/-- A word lies before or behind a character that it does not have. -/
theorem separator_cases (absent : separator ∉ word)
    (same : left ++ separator :: right = front ++ (word ++ behind)) :
    (∃ others, left = front ++ (word ++ others)) ∨
      ∃ others, front = left ++ separator :: others ∧ right = others ++ (word ++ behind) := by
  rcases List.append_eq_append_iff.1 same with ⟨middle, rfl, ends⟩ | ⟨middle, rfl, ends⟩
  · cases middle with
    | nil =>
      cases word with
      | nil => exact .inl ⟨[], by simp⟩
      | cons first word => exact absurd (List.cons.inj ends).1 (by simp_all)
    | cons first middle =>
      obtain ⟨rfl, rest⟩ := List.cons.inj ends
      exact .inr ⟨middle, rfl, rest⟩
  · rcases List.append_eq_append_iff.1 ends with ⟨between, rfl, -⟩ | ⟨between, rfl, rest⟩
    · exact .inl ⟨between, rfl⟩
    · cases between with
      | nil => exact .inl ⟨[], by simp⟩
      | cons first between =>
        obtain ⟨rfl, -⟩ := List.cons.inj rest
        simp at absent

/-- A word whose first letter is not among its others does not lie across this letter. -/
theorem letter_cases (single : letter ∉ word)
    (same : left ++ letter :: right = front ++ (letter :: word ++ behind)) :
    (∃ others, left = front ++ (letter :: word ++ others)) ∨ ∃ others, front = left ++ others := by
  induction left generalizing front with
  | nil => exact .inr ⟨front, rfl⟩
  | cons first left ih =>
    cases front with
    | nil =>
      obtain ⟨rfl, rest⟩ := List.cons.inj same
      have later : left ++ first :: right = [] ++ (word ++ behind) := rest
      rcases separator_cases single later with ⟨others, whole⟩ | ⟨others, none, -⟩
      · exact .inl ⟨others, congrArg (first :: ·) whole⟩
      · simp at none
    | cons c front =>
      obtain ⟨rfl, rest⟩ := List.cons.inj same
      rcases ih rest with ⟨others, whole⟩ | ⟨others, whole⟩
      · exact .inl ⟨others, congrArg (first :: ·) whole⟩
      · exact .inr ⟨others, congrArg (first :: ·) whole⟩

/-- A word lies before or behind a text between two characters that the word does not have, if it
is not inside this text. -/
theorem insertion_cases (absent : separator ∉ word) (free : ¬ word <:+: inner)
    (same : left ++ separator :: (inner ++ separator :: right) = front ++ (word ++ behind)) :
    (∃ others, left = front ++ (word ++ others)) ∨
      ∃ others, front = left ++ separator :: (inner ++ separator :: others) ∧
        right = others ++ (word ++ behind) := by
  rcases separator_cases absent same with before | ⟨others, rfl, rest⟩
  · exact .inl before
  · rcases separator_cases absent rest with ⟨between, rfl⟩ | ⟨later, rfl, ends⟩
    · exact absurd ⟨others, between, by simp⟩ free
    · exact .inr ⟨later, rfl, ends⟩

end Occurrences

section First

variable {word before rest : List Char}

/-- What a text is cut at is there for the first time. -/
theorem firstAt_of_cut {text after : List Char} (some_letter : word ≠ [])
    (cuts : cut word text = some (before, after)) : FirstAt word before (word ++ after) := by
  refine ⟨List.prefix_append word after, fun front behind same => ?_⟩
  have whole := eq_append_of_cut cuts
  rw [List.append_assoc, same] at whole
  exact length_le_of_cut some_letter cuts whole

/-- A text is cut at a word where the word is for the first time. -/
theorem FirstAt.cut_eq (firstAt : FirstAt word before rest) (some_letter : word ≠ []) :
    ∃ after, rest = word ++ after ∧ cut word (before ++ rest) = some (before, after) := by
  obtain ⟨after, rfl⟩ := firstAt.starts
  obtain ⟨⟨front, behind⟩, cuts⟩ := exists_cut some_letter before after
  rw [List.append_assoc] at cuts
  have whole := eq_append_of_cut cuts
  rw [List.append_assoc] at whole
  have sizes : front.length = before.length :=
    le_antisymm (length_le_of_cut some_letter cuts rfl) (firstAt.first front behind whole)
  obtain ⟨rfl, ends⟩ := List.append_inj whole sizes.symm
  obtain rfl := List.append_cancel_left ends
  exact ⟨after, rfl, cuts⟩

variable {separator letter : Char} {letters inner left right : List Char}

/-- A text put in front of the first letter of a word, between two characters that the word does not
have, leaves the first such word the first: it is in front of the text or behind it. -/
theorem FirstAt.insert (firstAt : FirstAt (letter :: letters) before rest)
    (single : letter ∉ letters) (absent : separator ∉ letter :: letters)
    (free : ¬ letter :: letters <:+: inner) (whole : before ++ rest = left ++ letter :: right) :
    (∃ middle, left = before ++ middle ∧ rest = middle ++ letter :: right ∧
        FirstAt (letter :: letters) before
          (middle ++ separator :: (inner ++ separator :: letter :: right))) ∨
      ∃ middle, before = left ++ middle ∧ letter :: right = middle ++ rest ∧
        FirstAt (letter :: letters) (left ++ separator :: (inner ++ separator :: middle)) rest := by
  obtain ⟨⟨after, rfl⟩, first⟩ := firstAt
  -- The first word ends before the letter or starts at or behind it. In both cases every word around
  -- the inserted text was one without it, and no earlier than the first.
  rcases letter_cases single whole.symm with ⟨others, rfl⟩ | ⟨middle, rfl⟩
  · left
    have ends : after = others ++ letter :: right := by simpa using whole
    refine ⟨letter :: letters ++ others, rfl, by simp [ends],
      ⟨others ++ separator :: (inner ++ separator :: letter :: right), by simp⟩, ?_⟩
    intro front behind same
    have split : (before ++ (letter :: letters ++ others)) ++
        separator :: (inner ++ separator :: letter :: right) =
          front ++ (letter :: letters ++ behind) := by simpa using same
    rcases insertion_cases absent free split with ⟨more, inside⟩ | ⟨more, rfl, -⟩
    · refine first front (more ++ letter :: right) ?_
      rw [ends, ← List.append_assoc (letter :: letters), ← List.append_assoc before, inside]
      simp
    · simp only [List.length_append]
      omega
  · right
    have ends : letter :: right = middle ++ (letter :: letters ++ after) := by
      simpa using whole.symm
    refine ⟨middle, rfl, ends, List.prefix_append _ _, ?_⟩
    intro front behind same
    have split : left ++ separator :: (inner ++ separator :: letter :: right) =
        front ++ (letter :: letters ++ behind) := by
      rw [ends]
      simpa using same
    rcases insertion_cases absent free split with ⟨more, rfl⟩ | ⟨more, rfl, later⟩
    · have early := first front (more ++ letter :: right) (by rw [whole]; simp)
      simp only [List.length_append, List.length_cons] at early
      omega
    · have further := first (left ++ more) behind (by rw [whole, later]; simp)
      simp only [List.length_append, List.length_cons] at further ⊢
      omega

/-- A word that is in a text is there for the first time. -/
theorem exists_firstAt {text : List Char} (some_letter : word ≠ []) (inside : word <:+: text) :
    ∃ before rest, text = before ++ rest ∧ FirstAt word before rest := by
  obtain ⟨front, behind, rfl⟩ := inside
  obtain ⟨⟨before, after⟩, cuts⟩ := exists_cut some_letter front behind
  have whole := eq_append_of_cut cuts
  rw [List.append_assoc before] at whole
  exact ⟨before, word ++ after, whole, firstAt_of_cut some_letter cuts⟩

end First

section Slots

variable {anchor : String} (slot : String) {source before rest : List Char}

/-- A slot is put where its anchor is for the first time. -/
theorem insertBefore_of_firstAt (some_letter : anchor.toList ≠ [])
    (firstAt : FirstAt anchor.toList before rest) :
    insertBefore anchor slot (before ++ rest) = .ok (before ++ (slot.toList ++ rest)) := by
  obtain ⟨after, rfl, cuts⟩ := firstAt.cut_eq some_letter
  rw [insertBefore, cuts]
  simp

/-- A slot is not put into a document without its anchor. -/
theorem insertBefore_of_absent (absent : ¬ anchor.toList <:+: source) :
    insertBefore anchor slot source = .error (.missingAnchor anchor) := by
  rw [insertBefore, cut_eq_none absent]

/-- The slot for the style between its line breaks. -/
def styleLine : List Char := "\t<style>\x7b\x7b .CSS \x7d\x7d</style>".toList

/-- The end of a body without its first letter. -/
def bodyName : List Char := "/body>".toList

/-- The slot for the style stands on a line of its own. -/
theorem styleSlot_append (text : List Char) :
    styleSlot.toList ++ text = '\n' :: (styleLine ++ '\n' :: text) := by
  have written : styleSlot.toList = '\n' :: (styleLine ++ ['\n']) := by decide
  rw [written]
  simp

/-- The end of a body starts with a letter that it has once. -/
theorem bodyEnd_eq : bodyEnd.toList = '<' :: bodyName ∧ '<' ∉ bodyName := by
  constructor <;> decide

/-- The slot for the style neither holds the end of a body nor shares a line with it. -/
theorem bodyEnd_free : '\n' ∉ bodyEnd.toList ∧ ¬ bodyEnd.toList <:+: styleLine := by
  constructor <;> decide

/-- A document without an end of a body has none with the slot for the style. -/
theorem bodyEnd_absent (absent : ¬ bodyEnd.toList <:+: before ++ rest) :
    ¬ bodyEnd.toList <:+: before ++ (styleSlot.toList ++ rest) := by
  rintro ⟨front, behind, whole⟩
  rw [styleSlot_append, List.append_assoc front] at whole
  rcases insertion_cases bodyEnd_free.1 bodyEnd_free.2 whole.symm with
    ⟨others, rfl⟩ | ⟨others, -, rfl⟩
  · exact absent ⟨front, others ++ rest, by simp⟩
  · exact absent ⟨before ++ others, behind, by simp⟩

/-- The slot for the style in front of an end of the head leaves the first end of the body where it
is. -/
theorem firstAt_insert {front behind : List Char} (headAt : FirstAt headEnd.toList front rest)
    (bodyAt : FirstAt bodyEnd.toList before behind) (whole : before ++ behind = front ++ rest) :
    (∃ middle, front = before ++ middle ∧ behind = middle ++ rest ∧
        FirstAt bodyEnd.toList before (middle ++ (styleSlot.toList ++ rest))) ∨
      ∃ middle, before = front ++ middle ∧ rest = middle ++ behind ∧
        FirstAt bodyEnd.toList (front ++ (styleSlot.toList ++ middle)) behind := by
  obtain ⟨after, starts⟩ := headAt.starts
  have letter : headEnd.toList ++ after = '<' :: ("/head>".toList ++ after) := rfl
  rw [letter] at starts
  subst starts
  obtain ⟨absent, free⟩ := bodyEnd_free
  obtain ⟨written, single⟩ := bodyEnd_eq
  rw [written] at bodyAt absent free ⊢
  simp only [styleSlot_append]
  exact bodyAt.insert single absent free whole

/-- A document with both ends gets both slots, in either order of the ends. -/
theorem exists_framed (head : headEnd.toList <:+: source) (body : bodyEnd.toList <:+: source) :
    ∃ styled document, insertBefore headEnd styleSlot source = .ok styled ∧
      insertBefore bodyEnd scriptSlot styled = .ok document ∧ Framed source document := by
  obtain ⟨front, rest, rfl, headAt⟩ := exists_firstAt (by decide) head
  obtain ⟨before, behind, whole, bodyAt⟩ := exists_firstAt (by decide) body
  have styled := insertBefore_of_firstAt styleSlot (by decide) headAt
  rcases firstAt_insert headAt bodyAt whole.symm with
    ⟨middle, rfl, rfl, bodyStyled⟩ | ⟨middle, rfl, rfl, bodyStyled⟩
  · have scripted := insertBefore_of_firstAt scriptSlot (by decide) bodyStyled
    rw [← List.append_assoc before middle] at scripted
    exact ⟨_, _, styled, scripted, before, middle, rest, List.append_assoc _ _ _,
      .inr ⟨bodyAt, headAt, rfl⟩⟩
  · have scripted := insertBefore_of_firstAt scriptSlot (by decide) bodyStyled
    simp only [List.append_assoc] at scripted
    exact ⟨_, _, styled, scripted, front, middle, behind, rfl, .inl ⟨headAt, bodyAt, rfl⟩⟩

end Slots

/-- The start of an action that invokes a component by a name written out. -/
structure Invocation where
  dashed : Bool
  blanks : List Char
  gap : List Char
  quote : Char
  name : List Char
  areBlanks : ∀ c ∈ blanks, isBlank c = true
  isGap : ∀ c ∈ gap, isBlank c = true
  some_gap : gap ≠ []
  isQuote : quote = '"' ∨ quote = '\x60'
  some_name : name ≠ []
  unquoted : quote ∉ name

/-- The text of such a start. -/
def Invocation.write (invocation : Invocation) : List Char :=
  '{' :: '{' :: ((if invocation.dashed then ['-'] else []) ++ (invocation.blanks ++
    ("comp".toList ++ (invocation.gap ++
      invocation.quote :: (invocation.name ++ [invocation.quote])))))

/-- The names of the invocations in a text: each is the first behind the one before. -/
inductive Invokes : List Char → List String → Prop
  | nil {text : List Char} (free : ∀ invocation : Invocation, ¬ invocation.write <:+: text) :
    Invokes text []
  | next {before after : List Char} {names : List String} (invocation : Invocation)
    (first : ∀ (other : Invocation) (front behind : List Char),
      before ++ (invocation.write ++ after) = front ++ (other.write ++ behind) →
        before.length ≤ front.length) (later : Invokes after names) :
    Invokes (before ++ (invocation.write ++ after)) (String.ofList invocation.name :: names)

section Reading

variable {quote : Char} {name text rest : List Char}

/-- A text between quotes is read. -/
theorem readFilled_append (some_name : name ≠ []) (unquoted : quote ∉ name) (rest : List Char) :
    readFilled quote (quote :: (name ++ quote :: rest)) = some (name, rest) := by
  rw [readFilled, if_pos BEq.rfl, cut_single unquoted]
  cases name with
  | nil => exact absurd rfl some_name
  | cons c name => rfl

/-- What is read between quotes is a text without them. -/
theorem exists_of_readFilled (read : readFilled quote text = some (name, rest)) :
    name ≠ [] ∧ quote ∉ name ∧ text = quote :: (name ++ quote :: rest) := by
  cases text with
  | nil => cases read
  | cons c text =>
    rw [readFilled] at read
    split at read
    · rename_i same
      obtain rfl := eq_of_beq same
      cases cuts : cut [c] text with
      | none =>
        rw [cuts] at read
        cases read
      | some found =>
        obtain ⟨front, behind⟩ := found
        rw [cuts] at read
        have whole := eq_append_of_cut cuts
        have unquoted := not_mem_of_cut cuts
        cases front with
        | nil => cases read
        | cons letter front =>
          obtain ⟨rfl, rfl⟩ := Prod.mk.inj (Option.some.inj read)
          exact ⟨List.cons_ne_nil _ _, unquoted, by rw [whole]; simp⟩
    · cases read

/-- A reader for one kind of quotes does not read the other. -/
theorem readFilled_other {other : Char} (apart : quote ≠ other) (text : List Char) :
    readFilled other (quote :: text) = none := by
  rw [readFilled, if_neg (by simp [apart])]

/-- A text without a dash at its front. -/
def undashed : List Char → List Char
  | '-' :: rest => rest
  | rest => rest

/-- Reads the start of an action that invokes a component by a name written out. -/
def readName : Reader (List Char)
  | '{' :: '{' :: rest => do
    let after ← "comp".toList.isPrefixOf? (trimStart (undashed rest))
    if (trimStart after).length = after.length then none
    else (readFilled '"' (trimStart after)).or (readFilled '\x60' (trimStart after))
  | _ => none

/-- The component of the name is what is read. -/
theorem readReference_eq :
    readReference = readName.changing fun name => componentName (String.ofList name) := by
  funext text
  unfold readReference Reader.changing readName
  split
  · simp only [Option.bind_eq_bind, Option.map_bind]
    refine congrArg _ (funext fun after => ?_)
    simp only [Function.comp_apply]
    split
    · rfl
    · generalize (readFilled '"' (trimStart after)).or _ = found
      cases found <;> rfl
  · simp only [Option.map_none]

/-- A dash in front of a text without one is taken away. -/
theorem undashed_append (dashed : Bool) (other : ∀ c ∈ text.head?, c ≠ '-') :
    undashed ((if dashed then ['-'] else []) ++ text) = text := by
  cases dashed with
  | true => rfl
  | false =>
    rw [if_neg Bool.false_ne_true, List.nil_append, undashed]
    rintro rest rfl
    exact other '-' rfl rfl

/-- At most a dash is taken away. -/
theorem exists_dashed (text : List Char) :
    ∃ dashed : Bool, text = (if dashed then ['-'] else []) ++ undashed text := by
  rw [undashed.eq_def]
  split
  · exact ⟨true, rfl⟩
  · exact ⟨false, rfl⟩

/-- The name of an invocation is read. -/
theorem readName_write (invocation : Invocation) (rest : List Char) :
    readName (invocation.write ++ rest) = some (invocation.name, rest) := by
  obtain ⟨dashed, blanks, gap, quote, name, areBlanks, isGap, some_gap, isQuote, some_name,
    unquoted⟩ := invocation
  have filled : isBlank quote = false := by
    rcases isQuote with rfl | rfl <;> decide
  have quoted : trimStart (gap ++ quote :: (name ++ quote :: rest)) =
      quote :: (name ++ quote :: rest) := by
    rw [trimStart_append isGap]
    simp [filled]
  have opened : trimStart (blanks ++ ("comp".toList ++ (gap ++ quote :: (name ++ quote :: rest)))) =
      "comp".toList ++ (gap ++ quote :: (name ++ quote :: rest)) := by
    rw [trimStart_append areBlanks]
    simp [show isBlank 'c' = false by decide]
  have apart : ∀ c ∈ (blanks ++ ("comp".toList ++ (gap ++ quote :: (name ++ quote :: rest)))).head?,
      c ≠ '-' := by
    intro c first
    cases blanks with
    | nil =>
      obtain rfl := Option.some.inj first
      decide
    | cons blank blanks =>
      obtain rfl := Option.some.inj first
      rintro rfl
      exact absurd (areBlanks '-' List.mem_cons_self) (by decide)
  have longer : (quote :: (name ++ quote :: rest)).length ≠
      (gap ++ quote :: (name ++ quote :: rest)).length := by
    have positive := List.length_pos_iff.2 some_gap
    simp only [List.length_append]
    omega
  have written : Invocation.write ⟨dashed, blanks, gap, quote, name, areBlanks, isGap, some_gap,
      isQuote, some_name, unquoted⟩ ++ rest = '{' :: '{' :: ((if dashed then ['-'] else []) ++
        (blanks ++ ("comp".toList ++ (gap ++ quote :: (name ++ quote :: rest))))) := by
    simp [Invocation.write]
  rw [written, readName, undashed_append dashed apart, opened,
    List.isPrefixOf?_eq_some_iff_append_eq.2 rfl]
  simp only [Option.bind_eq_bind, Option.bind_some, quoted, if_neg longer]
  rcases isQuote with rfl | rfl
  · rw [readFilled_append some_name unquoted]
    rfl
  · rw [readFilled_other (by decide), readFilled_append some_name unquoted]
    rfl

/-- What is read as a name is an invocation. -/
theorem exists_of_readName (read : readName text = some (name, rest)) :
    ∃ invocation : Invocation, text = invocation.write ++ rest ∧ invocation.name = name := by
  unfold readName at read
  split at read
  · rename_i inner
    obtain ⟨after, comp, later⟩ := Option.bind_eq_some_iff.1 read
    split at later
    · cases later
    · rename_i longer
      have opened := (List.append_eq_of_isPrefixOf?_eq_some comp).symm
      obtain ⟨dashed, front⟩ := exists_dashed inner
      have blanks : (undashed inner).takeWhile isBlank ++ trimStart (undashed inner) =
          undashed inner := List.takeWhile_append_dropWhile
      have gap : after.takeWhile isBlank ++ trimStart after = after :=
        List.takeWhile_append_dropWhile
      have isGap : after.takeWhile isBlank ≠ [] := by
        intro none
        rw [none, List.nil_append] at gap
        exact longer (congrArg List.length gap)
      have found : ∃ quote, (quote = '"' ∨ quote = '\x60') ∧
          readFilled quote (trimStart after) = some (name, rest) := by
        rcases Option.or_eq_some_iff.1 later with first | ⟨-, second⟩
        · exact ⟨_, .inl rfl, first⟩
        · exact ⟨_, .inr rfl, second⟩
      obtain ⟨quote, isQuote, filled⟩ := found
      obtain ⟨some_name, unquoted, ends⟩ := exists_of_readFilled filled
      have whole : inner = (if dashed then ['-'] else []) ++ ((undashed inner).takeWhile isBlank ++
          ("comp".toList ++ (after.takeWhile isBlank ++ quote :: (name ++ quote :: rest)))) := by
        rw [← ends, gap, ← opened, blanks]
        exact front
      refine ⟨⟨dashed, (undashed inner).takeWhile isBlank, after.takeWhile isBlank, quote, name,
        List.all_eq_true.1 List.all_takeWhile, List.all_eq_true.1 List.all_takeWhile, isGap, isQuote,
        some_name, unquoted⟩, ?_, rfl⟩
      exact (congrArg (fun inner => '{' :: '{' :: inner) whole).trans (by simp [Invocation.write])
  · cases read

end Reading

section Searching

variable {text rest : List Char} {names : List String}

/-- An invocation has a text. -/
theorem Invocation.length_write (invocation : Invocation) : 0 < invocation.write.length := by
  rw [Invocation.write, List.length_cons]
  omega

/-- No name is read just where no invocation starts. -/
theorem readName_eq_none_iff : readName text = none ↔
    ∀ (invocation : Invocation) (behind : List Char), text ≠ invocation.write ++ behind := by
  constructor
  · rintro unread invocation behind rfl
    rw [readName_write] at unread
    cases unread
  · intro elsewhere
    cases read : readName text with
    | none => rfl
    | some found =>
      obtain ⟨invocation, starts, -⟩ := exists_of_readName read
      exact absurd starts (elsewhere invocation found.2)

/-- A character at which no invocation starts is passed over. -/
theorem Invokes.pass {c : Char} (invokes : Invokes text names) (unread : readName (c :: text) = none) :
    Invokes (c :: text) names := by
  have elsewhere := readName_eq_none_iff.1 unread
  cases invokes with
  | nil free =>
    refine .nil fun invocation inside => ?_
    rcases List.infix_cons_iff.1 inside with ⟨behind, same⟩ | later
    · exact elsewhere invocation behind same.symm
    · exact free invocation later
  | @next before after names invocation first later =>
    refine @Invokes.next (c :: before) after names invocation (fun other front behind same => ?_) later
    cases front with
    | nil => exact absurd same (elsewhere other behind)
    | cons letter front => exact Nat.succ_le_succ (first other front behind (List.cons.inj same).2)

/-- What is read at the front of a text is its first invocation. -/
theorem Invokes.of_read {name : List Char} (invokes : Invokes rest names)
    (read : readName text = some (name, rest)) : Invokes text (String.ofList name :: names) := by
  obtain ⟨invocation, rfl, rfl⟩ := exists_of_readName read
  exact @Invokes.next [] rest names invocation (fun _ _ _ _ => Nat.zero_le _) invokes

/-- A text gets shorter where a name is read. -/
theorem length_of_readName {name : List Char} (read : readName text = some (name, rest)) :
    rest.length < text.length := by
  obtain ⟨invocation, rfl, -⟩ := exists_of_readName read
  have positive := invocation.length_write
  rw [List.length_append]
  omega

/-- The names read in a text are those of its invocations. -/
theorem invokes_all (text : List Char) : Invokes text ((readName.all text).map String.ofList) := by
  induction size : text.length using Nat.strong_induction_on generalizing text with
  | _ size ih =>
    subst size
    cases text with
    | nil =>
      rw [Reader.all_nil, List.map_nil]
      refine .nil fun invocation inside => ?_
      have empty := congrArg List.length (List.eq_nil_of_infix_nil inside)
      have positive := invocation.length_write
      rw [List.length_nil] at empty
      omega
    | cons c text =>
      cases read : readName (c :: text) with
      | none =>
        rw [Reader.all_cons read]
        exact (ih text.length (Nat.lt_succ_self _) text rfl).pass read
      | some found =>
        obtain ⟨name, rest⟩ := found
        have shorter := length_of_readName read
        rw [Reader.all_of_read read shorter, List.map_cons]
        exact (ih rest.length shorter rest rfl).of_read read

/-- A text has one list of invocations. -/
theorem invokes_iff : Invokes text names ↔ names = (readName.all text).map String.ofList := by
  constructor
  · intro invokes
    induction invokes with
    | @nil text free =>
      have unread (before : List Char) (c : Char) (behind : List Char)
          (same : text = before ++ c :: behind) : readName (c :: (behind ++ [])) = none := by
        rw [List.append_nil, readName_eq_none_iff]
        intro invocation others starts
        exact free invocation ⟨before, others, by rw [same, starts, List.append_assoc]⟩
      have nothing : readName.all (text ++ []) = readName.all [] := Reader.all_append unread
      rw [List.append_nil, Reader.all_nil] at nothing
      rw [nothing]
      rfl
    | @next before after names invocation first later ih =>
      have front : readName.all (before ++ (invocation.write ++ after)) =
          readName.all (invocation.write ++ after) := by
        refine Reader.all_append fun passed c behind same => readName_eq_none_iff.2 ?_
        intro other others starts
        have early := first other passed others (by rw [same, ← starts]; simp)
        rw [same, List.length_append, List.length_cons] at early
        omega
      have read := readName_write invocation after
      rw [front, Reader.all_of_read read (length_of_readName read), List.map_cons, ← ih]
  · rintro rfl
    exact invokes_all text

/-- The components that are read in a text are those of its invocations. -/
theorem all_readReference (text : List Char) : readReference.all text =
    ((readName.all text).map String.ofList).map componentName := by
  rw [readReference_eq, Reader.all_changing, List.map_map]
  rfl

end Searching

section Compiling

variable (name : String) {source : String}

/-- A document without an end of its head is no shell. -/
theorem compile_headless (headless : ¬ headEnd.toList <:+: source.toList) :
    Shell.compile name source = .error (.missingAnchor headEnd) := by
  rw [Shell.compile, insertBefore_of_absent styleSlot headless]
  rfl

/-- A document with an end of its head, but none of its body, is no shell. -/
theorem compile_bodyless (head : headEnd.toList <:+: source.toList)
    (bodyless : ¬ bodyEnd.toList <:+: source.toList) :
    Shell.compile name source = .error (.missingAnchor bodyEnd) := by
  obtain ⟨front, rest, whole, headAt⟩ := exists_firstAt (by decide) head
  rw [whole] at bodyless
  rw [Shell.compile, whole, insertBefore_of_firstAt styleSlot (by decide) headAt]
  show (insertBefore bodyEnd scriptSlot _ >>= _) = _
  rw [insertBefore_of_absent scriptSlot (bodyEnd_absent bodyless)]
  rfl

/-- A document with both ends is that of a shell. -/
theorem exists_compile (head : headEnd.toList <:+: source.toList)
    (body : bodyEnd.toList <:+: source.toList) :
    ∃ document, Framed source.toList document ∧ Shell.compile name source =
      .ok ⟨name, String.ofList document, (readReference.all source.toList).eraseDups⟩ := by
  obtain ⟨styled, document, styles, scripts, framed⟩ := exists_framed head body
  refine ⟨document, framed, ?_⟩
  rw [Shell.compile, styles]
  show (insertBefore bodyEnd scriptSlot styled >>= _) = _
  rw [scripts]
  rfl

/-- A document is that of a shell just where it has both ends, and otherwise the first that is
missing is told. The shell is the document with each slot right before the first of its ends, in
either order of the ends, and it refers to the components of the names that its invocations write
out, each once. -/
theorem compile_frames (source : String) :
    (Shell.compile name source = .error (.missingAnchor headEnd) ↔
        ¬ headEnd.toList <:+: source.toList) ∧
      (Shell.compile name source = .error (.missingAnchor bodyEnd) ↔
        headEnd.toList <:+: source.toList ∧ ¬ bodyEnd.toList <:+: source.toList) ∧
      ((∃ shell, Shell.compile name source = .ok shell) ↔
        headEnd.toList <:+: source.toList ∧ bodyEnd.toList <:+: source.toList) ∧
      ∀ shell, Shell.compile name source = .ok shell →
        shell.name = name ∧ Framed source.toList shell.markup.toList ∧
          ∃ names, (∀ others, Invokes source.toList others ↔ others = names) ∧
            shell.references = (names.map componentName).eraseDups := by
  have apart : headEnd ≠ bodyEnd := by decide
  by_cases head : headEnd.toList <:+: source.toList
  · by_cases body : bodyEnd.toList <:+: source.toList
    · obtain ⟨document, framed, compiled⟩ := exists_compile name head body
      simp only [compiled, head, body, reduceCtorEq, not_true, and_false, and_self, iff_true,
        Except.ok.injEq, true_and, forall_eq', String.toList_ofList]
      exact ⟨⟨_, rfl⟩, framed, _, fun others => invokes_iff, by rw [all_readReference]⟩
    · have failed := compile_bodyless name head body
      simp [failed, head, body, apart.symm]
  · have failed := compile_headless name head
    simp [failed, head, apart]

/-- The slots follow the ends where the body ends before the head. -/
example : Shell.compile "layout" "</body>\x7b\x7bcomp \"nav\"\x7d\x7d</head>" =
    .ok ⟨"layout", "\n\t<script>\x7b\x7b .JS \x7d\x7d</script>\n</body>" ++
      "\x7b\x7bcomp \"nav\"\x7d\x7d" ++ "\n\t<style>\x7b\x7b .CSS \x7d\x7d</style>\n</head>",
      ["nav"]⟩ := by decide +kernel

end Compiling

end ComponentPages.Shell
