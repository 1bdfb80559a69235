import ComponentPages.Document
import ComponentPages.Proofs.Text.Cut
import Mathlib

/-!
# Documents put together from blocks

A document is written as filler and blocks, each block as an element of its kind. The blocks are found
again with their attributes and bodies (`ofSource_writeAll`), in whatever order they stand. What a body
may hold depends on the kind: the body of the markup block everything but its own closing tag, so
elements of the other two kinds inside it stay part of it, as the style and the script are looked for
in what is left of the document without the markup block; the bodies of these two no opening tag of
any kind either. Tags are compared in any case.
-/
namespace ComponentPages.Document

open Text Blocks

section Folding

variable {name text : List Char}

/-- A word in some case. -/
def Folds (name word : List Char) : Prop :=
  List.Forall₂ (fun letter c => foldsTo letter c = true) name word

/-- A word is read at the front of a text that starts with it in some case. -/
theorem afterFolded_eq_some_iff {rest : List Char} :
    afterFolded name text = some rest ↔ ∃ word, Folds name word ∧ text = word ++ rest := by
  induction name generalizing text with
  | nil =>
    constructor
    · intro found
      exact ⟨[], .nil, Option.some.inj found⟩
    · rintro ⟨word, folds, rfl⟩
      cases folds
      rfl
  | cons letter name ih =>
    constructor
    · intro found
      cases text with
      | nil => cases found
      | cons c text =>
        rw [afterFolded] at found
        split at found
        · rename_i here
          obtain ⟨word, folds, rfl⟩ := ih.1 found
          exact ⟨c :: word, .cons here folds, rfl⟩
        · cases found
    · rintro ⟨word, folds, rfl⟩
      cases folds with
      | cons here later =>
        rw [List.cons_append, afterFolded, if_pos here]
        exact ih.2 ⟨_, later, rfl⟩

/-- A tag of the name is opened in the text: an angle bracket is followed by the name in some case. -/
def Opens (name text : List Char) : Prop := ∃ word, Folds name word ∧ '<' :: word <:+: text

/-- A closing tag of the name is in the text: between its slash and its end stand the name in some
case and any number of blanks. -/
def Closes (name text : List Char) : Prop :=
  ∃ word blanks, Folds name word ∧ (∀ c ∈ blanks, isBlank c = true) ∧
    '<' :: '/' :: (word ++ blanks ++ ['>']) <:+: text

/-- A tag is opened where the name follows an angle bracket. -/
theorem opens_iff : Opens name text ↔
    ∃ rest, '<' :: rest <:+ text ∧ (afterFolded name rest).isSome = true := by
  constructor
  · rintro ⟨word, folds, front, behind, rfl⟩
    refine ⟨word ++ behind, ⟨front, by simp⟩, ?_⟩
    rw [afterFolded_eq_some_iff.2 ⟨word, folds, rfl⟩]
    rfl
  · rintro ⟨rest, ⟨front, rfl⟩, found⟩
    obtain ⟨behind, found⟩ := Option.isSome_iff_exists.1 found
    obtain ⟨word, folds, rfl⟩ := afterFolded_eq_some_iff.1 found
    exact ⟨word, folds, front, behind, by simp⟩

/-- A closing tag is in a text where one is read. -/
theorem closes_iff : Closes name text ↔
    ∃ rest, rest <:+ text ∧ (readClosing name rest).isSome = true := by
  constructor
  · rintro ⟨word, blanks, folds, blank, front, behind, rfl⟩
    refine ⟨'<' :: '/' :: (word ++ blanks ++ ['>']) ++ behind, ⟨front, by simp⟩, ?_⟩
    have found : afterFolded name (word ++ (blanks ++ '>' :: behind)) =
        some (blanks ++ '>' :: behind) := afterFolded_eq_some_iff.2 ⟨word, folds, rfl⟩
    have trims : trimStart (blanks ++ '>' :: behind) = '>' :: behind :=
      trimStart_append blank fun c first => by
        obtain rfl := Option.some.inj first
        decide
    simp [readClosing, found, trims]
  · rintro ⟨rest, ⟨front, rfl⟩, read⟩
    obtain ⟨⟨⟨⟩, behind⟩, read⟩ := Option.isSome_iff_exists.1 read
    unfold readClosing at read
    split at read
    · rename_i rest
      split at read
      · rename_i after found
        obtain ⟨tail, found, trims⟩ := Option.map_eq_some_iff.1 found
        obtain ⟨word, folds, rfl⟩ := afterFolded_eq_some_iff.1 found
        obtain ⟨blanks, rfl, blank⟩ :
            ∃ blanks, tail = blanks ++ '>' :: after ∧ ∀ c ∈ blanks, isBlank c = true := by
          refine ⟨tail.takeWhile isBlank, ?_, List.all_eq_true.1 List.all_takeWhile⟩
          rw [← trims]
          exact List.takeWhile_append_dropWhile.symm
        exact ⟨word, blanks, folds, blank, front, after, by simp⟩
      · cases read
    · cases read

/-- It can be told whether a tag is opened in a text. -/
instance (name text : List Char) : Decidable (Opens name text) :=
  decidable_of_iff (text.tails.any fun
      | '<' :: rest => (afterFolded name rest).isSome
      | _ => false) <| by
    rw [opens_iff, List.any_eq_true]
    constructor
    · rintro ⟨tail, member, found⟩
      split at found
      · exact ⟨_, (List.mem_tails _ _).1 member, found⟩
      · cases found
    · rintro ⟨rest, suffix, found⟩
      exact ⟨_, (List.mem_tails _ _).2 suffix, found⟩

/-- It can be told whether a closing tag is in a text. -/
instance (name text : List Char) : Decidable (Closes name text) :=
  decidable_of_iff (text.tails.any fun rest => (readClosing name rest).isSome) <| by
    rw [closes_iff, List.any_eq_true]
    simp only [List.mem_tails]

end Folding

/-- The kinds of blocks. -/
inductive Kind where
  | markup
  | style
  | script
  deriving DecidableEq

/-- The name of the tags of a block. -/
def Kind.tag : Kind → List Char
  | markup => "template".toList
  | style => "style".toList
  | script => "script".toList

/-- An attribute as it is written: a name, and between quotes a value if it has one. -/
structure Attribute where
  name : List Char
  /-- The quote and the value. -/
  value : Option (Char × List Char)
  deriving DecidableEq

namespace Attribute

/-- The text behind the name. -/
def assigned (entry : Attribute) : List Char :=
  match entry.value with
  | none => []
  | some (quote, value) => '=' :: quote :: (value ++ [quote])

/-- The text of an attribute, with a space in front of it. -/
def write (entry : Attribute) : List Char := ' ' :: (entry.name ++ entry.assigned)

/-- The name under which the attribute is held. -/
def key (entry : Attribute) : String := String.ofList (entry.name.map Char.toLower)

/-- What is held under the name: the value, and `true` for an attribute without one. -/
def content (entry : Attribute) : String :=
  match entry.value with
  | none => "true"
  | some (_, value) => String.ofList value

/-- A character that attributes are named with. -/
def isNamePart (c : Char) : Bool := c.isAlphanum || c == '_' || c == ':' || c == '-'

/-- A name of letters, digits and a few marks, and a value in which neither it nor the tag can end. -/
structure Legible (entry : Attribute) : Prop where
  named : entry.name ≠ []
  parts : ∀ c ∈ entry.name, isNamePart c = true
  quotes : ∀ part ∈ entry.value, part.1 = '"' ∨ part.1 = '\''
  plain : ∀ part ∈ entry.value, ∀ c ∈ part.2, c ≠ '"' ∧ c ≠ '\'' ∧ c ≠ '>'

/-- It can be told whether an attribute is legible. -/
instance (entry : Attribute) : Decidable entry.Legible :=
  decidable_of_iff ((entry.name ≠ [] ∧ entry.name.all isNamePart = true) ∧
      entry.value.all (fun part => part.1 = '"' ∨ part.1 = '\'') = true ∧
      entry.value.all (fun part => part.2.all fun c => c ≠ '"' ∧ c ≠ '\'' ∧ c ≠ '>') = true) <| by
    constructor
    · rintro ⟨⟨named, parts⟩, quotes, plain⟩
      exact ⟨named, by simpa using parts, by simpa [Option.all_eq_true] using quotes,
        by simpa [Option.all_eq_true] using plain⟩
    · rintro ⟨named, parts, quotes, plain⟩
      exact ⟨⟨named, by simpa using parts⟩, by simpa [Option.all_eq_true] using quotes,
        by simpa [Option.all_eq_true] using plain⟩

end Attribute

/-- What a document is made of. -/
inductive Piece where
  | filler (text : List Char)
  | block (kind : Kind) (attributes : List Attribute) (body : List Char)

namespace Piece

/-- The text of a piece. -/
def write : Piece → List Char
  | filler text => text
  | block kind attributes body =>
    '<' :: (kind.tag ++ (attributes.flatMap Attribute.write ++ '>' ::
      (body ++ '<' :: '/' :: (kind.tag ++ ['>']))))

/-- What may stand in a piece: no tag in filler, no closing tag of its own in a block, and in a style
or a script, which have no attributes, no opening tag of a block either. -/
def Legible : Piece → Prop
  | filler text => '<' ∉ text
  | block .markup attributes body =>
    (∀ entry ∈ attributes, entry.Legible) ∧ ¬ Closes Kind.markup.tag body
  | block kind attributes body =>
    attributes = [] ∧ ¬ Closes kind.tag body ∧ ∀ other : Kind, ¬ Opens other.tag body

/-- It can be told whether a body opens no tag of a block. -/
instance (body : List Char) : Decidable (∀ kind : Kind, ¬ Opens kind.tag body) :=
  decidable_of_iff (¬ Opens Kind.markup.tag body ∧ ¬ Opens Kind.style.tag body ∧
      ¬ Opens Kind.script.tag body) <| by
    constructor
    · rintro ⟨markup, style, script⟩ kind
      cases kind <;> assumption
    · exact fun closed => ⟨closed .markup, closed .style, closed .script⟩

/-- It can be told whether a piece is legible. -/
instance : (piece : Piece) → Decidable piece.Legible
  | filler text => inferInstanceAs (Decidable ('<' ∉ text))
  | block .markup attributes body => inferInstanceAs (Decidable
      ((∀ entry ∈ attributes, entry.Legible) ∧ ¬ Closes Kind.markup.tag body))
  | block .style attributes body => inferInstanceAs (Decidable
      (attributes = [] ∧ ¬ Closes Kind.style.tag body ∧ ∀ other : Kind, ¬ Opens other.tag body))
  | block .script attributes body => inferInstanceAs (Decidable
      (attributes = [] ∧ ¬ Closes Kind.script.tag body ∧ ∀ other : Kind, ¬ Opens other.tag body))

/-- The attributes and the body of a block of the kind. -/
def block? (kind : Kind) : Piece → Option (List Attribute × List Char)
  | filler _ => none
  | block other attributes body => if other = kind then some (attributes, body) else none

end Piece

/-- The text of a document. -/
def writeAll (pieces : List Piece) : List Char := pieces.flatMap Piece.write

/-- The attributes and the body of the first block of the kind. -/
def block? (kind : Kind) (pieces : List Piece) : Option (List Attribute × List Char) :=
  pieces.findSome? (Piece.block? kind)

/-- The body of the first block of the kind. -/
def body? (kind : Kind) (pieces : List Piece) : Option String :=
  (block? kind pieces).map fun block => String.ofList block.2

/-- The attributes of the markup block. -/
def markupAttributes (pieces : List Piece) : List Attribute :=
  ((block? .markup pieces).map Prod.fst).getD []

/-- The value of the last of the attributes with the name. -/
def lastValue (key : String) (attributes : List Attribute) : Option String :=
  (attributes.reverse.find? fun entry => entry.key = key).map Attribute.content

section Tags

variable {name text : List Char}

/-- The letters of the tags of blocks stand for no mark of a tag. -/
theorem Kind.letters (kind : Kind) :
    ∀ letter ∈ kind.tag, foldsTo letter '<' = false ∧ foldsTo letter '/' = false := by
  have all : (kind.tag.all fun letter => !foldsTo letter '<' && !foldsTo letter '/') = true := by
    cases kind <;> decide
  intro letter member
  simpa using List.all_eq_true.1 all letter member

/-- The name of a tag is found where it is written. -/
theorem Kind.afterFolded_tag (kind : Kind) (rest : List Char) :
    afterFolded kind.tag (kind.tag ++ rest) = some rest := by
  cases kind <;> exact afterFolded_of_alike (by decide) (by decide) rest

/-- The name of a tag is not found where that of another kind is written. -/
theorem Kind.afterFolded_other {kind other : Kind} (different : other ≠ kind) (rest : List Char) :
    afterFolded kind.tag (other.tag ++ rest) = none := by
  cases kind <;> cases other <;> first | exact absurd rfl different | rfl

/-- A name that is not at the front of a text is not there because of an angle bracket behind. -/
theorem afterFolded_append_angle (letters : ∀ letter ∈ name, foldsTo letter '<' = false)
    (missing : afterFolded name text = none) (more : List Char) :
    afterFolded name (text ++ '<' :: more) = none := by
  induction name generalizing text with
  | nil => cases missing
  | cons letter name ih =>
    obtain ⟨here, later⟩ := List.forall_mem_cons.1 letters
    cases text with
    | nil =>
      rw [List.nil_append, afterFolded, here]
      rfl
    | cons c text =>
      rw [afterFolded] at missing
      rw [List.cons_append, afterFolded]
      split at missing
      · rename_i folds
        rw [if_pos folds]
        exact ih later missing
      · rename_i other
        rw [if_neg other]

/-- No tag of the name is opened in the text, whatever follows it. -/
def Unopened (name text : List Char) : Prop :=
  ∀ rest, '<' :: rest <:+ text → ∀ more, afterFolded name (rest ++ more) = none

/-- Texts put together open no tag if none of them does. -/
theorem Unopened.append {more : List Char} (unopened : Unopened name text)
    (later : Unopened name more) : Unopened name (text ++ more) := by
  rintro rest ⟨front, whole⟩ behind
  rcases List.append_eq_append_iff.1 whole with ⟨middle, rfl, same⟩ | ⟨middle, rfl, same⟩
  · cases middle with
    | nil => exact later rest ⟨[], same⟩ behind
    | cons c middle =>
      obtain rfl : '<' = c := (List.cons.inj same).1
      have tail : rest = middle ++ more := (List.cons.inj same).2
      rw [tail, List.append_assoc]
      exact unopened middle ⟨front, rfl⟩ (more ++ behind)
  · exact later rest ⟨middle, same.symm⟩ behind

/-- A text without angle brackets opens no tag. -/
theorem unopened_of_not_mem (plain : '<' ∉ text) : Unopened name text := by
  rintro rest ⟨front, rfl⟩
  exact absurd (by simp) plain

/-- A name is not found at a slash. -/
theorem Kind.afterFolded_slash (kind : Kind) (rest : List Char) :
    afterFolded kind.tag ('/' :: rest) = none := by
  cases kind <;> rfl

/-- The name of a tag has no angle bracket. -/
theorem Kind.angle_not_mem (kind : Kind) : '<' ∉ kind.tag := by
  cases kind <;> decide

/-- A text that starts with an angle bracket and has no other opens no tag that it does not start
with. -/
theorem unopened_cons (plain : '<' ∉ text) (other : ∀ more, afterFolded name (text ++ more) = none) :
    Unopened name ('<' :: text) := by
  intro rest suffix more
  rcases List.suffix_cons_iff.1 suffix with same | later
  · obtain rfl : rest = text := (List.cons.inj same).2
    exact other more
  · exact absurd (later.subset List.mem_cons_self) plain

/-- In front of an angle bracket, a text opens no tag that it does not open by itself. -/
theorem Kind.unopened_append (kind : Kind) (closed : ¬ Opens kind.tag text) {more : List Char}
    (later : Unopened kind.tag ('<' :: more)) : Unopened kind.tag (text ++ '<' :: more) := by
  rintro rest ⟨front, whole⟩ behind
  rcases List.append_eq_append_iff.1 whole with ⟨middle, rfl, same⟩ | ⟨middle, rfl, same⟩
  · cases middle with
    | nil => exact later rest ⟨[], same⟩ behind
    | cons c middle =>
      -- The bracket is one of the text, and the one behind the text ends what may be a name.
      obtain rfl : '<' = c := (List.cons.inj same).1
      have tail : rest = middle ++ '<' :: more := (List.cons.inj same).2
      have missing : afterFolded kind.tag middle = none := by
        refine Option.eq_none_iff_forall_ne_some.2 fun found here => closed ?_
        exact opens_iff.2 ⟨middle, ⟨front, rfl⟩, by rw [here]; rfl⟩
      rw [tail, List.append_assoc]
      exact afterFolded_append_angle (fun letter member => (kind.letters letter member).1) missing _
  · exact later rest ⟨middle, same.symm⟩ behind

/-- A block opens no tag of another kind if its body opens none. -/
theorem Kind.unopened_block {kind other : Kind} (different : other ≠ kind) {body : List Char}
    (closed : ¬ Opens kind.tag body) : Unopened kind.tag (Piece.block other [] body).write := by
  have opening : Unopened kind.tag ('<' :: (other.tag ++ ['>'])) := by
    refine unopened_cons (by simp [other.angle_not_mem]) fun more => ?_
    rw [List.append_assoc]
    exact Kind.afterFolded_other different _
  have closing : Unopened kind.tag ('<' :: '/' :: (other.tag ++ ['>'])) :=
    unopened_cons (by simp [other.angle_not_mem]) fun more => kind.afterFolded_slash _
  have whole := opening.append (kind.unopened_append closed closing)
  simpa [Piece.write] using whole

/-- Where no tag is opened, no block is read. -/
theorem Unopened.first_append (unopened : Unopened name text) (rest : List Char) :
    (readBlock name).first (text ++ rest) = ((readBlock name).first rest).map
      fun found => { found with before := text ++ found.before } := by
  refine Reader.first_append fun before c behind same => ?_
  by_cases angle : c = '<'
  · subst angle
    rw [readBlock, unopened behind ⟨before, same.symm⟩ rest]
    rfl
  · exact readBlock.eq_2 name _ fun rest same => angle (List.cons.inj same).1

end Tags

section Attributes

namespace Attribute

variable {entry : Attribute} {c : Char}

/-- The characters of a name are ones of which the reader takes a name, and no others that it looks
for. -/
theorem isAttributeChar_of_isNamePart (part : isNamePart c = true) :
    isAttributeChar c = true ∧ isBlank c = false ∧ c ≠ '=' ∧ c ≠ '>' := by
  have cases : c.isAlphanum = true ∨ c = '_' ∨ c = ':' ∨ c = '-' := by
    simpa [isNamePart, or_assoc] using part
  refine ⟨?_, Bool.eq_false_iff.2 fun blank => ?_, ?_, ?_⟩
  · show (isNamePart c || c == longS || c == kelvinSign) = true
    rw [part]
    rfl
  · rcases cases with named | rfl | rfl | rfl
    · rw [isAlphanum_of_isBlank blank] at named
      cases named
    all_goals exact absurd blank (by decide)
  · rintro rfl
    exact absurd part (by decide)
  · rintro rfl
    exact absurd part (by decide)

/-- The reader puts the characters of a name in lower case. -/
theorem lowerAttributeChar_of_isNamePart (part : isNamePart c = true) :
    lowerAttributeChar c = c.toLower := by
  refine if_neg fun sign => ?_
  rw [eq_of_beq sign] at part
  exact absurd part (by decide)

/-- Nothing that follows an attribute goes on with it: it starts with a space if there is anything, and
behind the blanks is no equals sign. -/
structure Follows (rest : List Char) : Prop where
  apart : ∀ c ∈ rest.head?, c = ' '
  unassigned : ∀ c ∈ (trimStart rest).head?, c ≠ '='

/-- What is assigned to a name is read, if anything is. -/
theorem Legible.readAssigned_append (legible : entry.Legible) {rest : List Char}
    (follows : Follows rest) :
    readAssigned (entry.assigned ++ rest) = entry.value.map fun part => (part.2, rest) := by
  rw [assigned]
  cases valued : entry.value with
  | none =>
    rw [List.nil_append, readAssigned, Option.map_none]
    split
    · rename_i same
      exact absurd rfl (follows.unassigned '=' (by rw [same]; rfl))
    · rfl
  | some part =>
    obtain ⟨quote, value⟩ := part
    have equals (text : List Char) : trimStart ('=' :: text) = '=' :: text :=
      List.dropWhile_cons_of_neg (by decide)
    have unquoted : quote ∉ value := by
      intro member
      obtain ⟨noQuote, noTick, -⟩ := legible.plain _ valued quote member
      exact (legible.quotes _ valued).elim noQuote noTick
    have cuts := cut_single unquoted rest
    show readAssigned ('=' :: quote :: (value ++ [quote]) ++ rest) = some (value, rest)
    rw [List.cons_append, readAssigned, equals]
    rcases legible.quotes _ valued with same | same <;> (simp only at same; subst same)
    · have opens (text : List Char) : trimStart ('"' :: text) = '"' :: text :=
        List.dropWhile_cons_of_neg (by decide)
      simp [opens, readAttributeValue, cuts]
    · have opens (text : List Char) : trimStart ('\'' :: text) = '\'' :: text :=
        List.dropWhile_cons_of_neg (by decide)
      simp [opens, readAttributeValue, cuts]

/-- An attribute is read with its name in lower case and what it holds. -/
theorem Legible.readAttribute_append (legible : entry.Legible) {rest : List Char}
    (follows : Follows rest) :
    readAttribute (entry.name ++ (entry.assigned ++ rest)) =
      some ((entry.key, entry.content), rest) := by
  have front : cutFront isAttributeChar (entry.name ++ (entry.assigned ++ rest)) =
      (entry.name, entry.assigned ++ rest) := by
    refine cutFront_append
      (fun c member => (isAttributeChar_of_isNamePart (legible.parts c member)).1) fun c first => ?_
    rw [assigned] at first
    cases valued : entry.value with
    | none =>
      rw [valued] at first
      obtain rfl := follows.apart c first
      decide
    | some part =>
      rw [valued] at first
      obtain rfl := Option.some.inj first
      decide
  have lowers : entry.name.map lowerAttributeChar = entry.name.map Char.toLower :=
    List.map_congr_left fun c member => lowerAttributeChar_of_isNamePart (legible.parts c member)
  rw [readAttribute, front]
  obtain ⟨first, others, named⟩ := List.exists_cons_of_ne_nil legible.named
  simp only [named]
  rw [← named, lowers, legible.readAssigned_append follows]
  cases valued : entry.value with
  | none =>
    have bare : entry.assigned = [] := by rw [assigned, valued]
    simp [key, content, valued, bare]
  | some part => simp [key, content, valued]

/-- Attributes follow an attribute. -/
theorem follows_write {entries : List Attribute} (legible : ∀ entry ∈ entries, entry.Legible) :
    Follows (entries.flatMap write) := by
  cases entries with
  | nil => exact ⟨nofun, nofun⟩
  | cons entry entries =>
    have here := legible entry List.mem_cons_self
    obtain ⟨first, others, named⟩ := List.exists_cons_of_ne_nil here.named
    obtain ⟨-, filled, unassigned, -⟩ :=
      isAttributeChar_of_isNamePart (here.parts first (by rw [named]; exact List.mem_cons_self))
    have starts : (entry :: entries).flatMap write =
        [' '] ++ first :: (others ++ (entry.assigned ++ entries.flatMap write)) := by
      simp [write, named]
    have trims : trimStart ((entry :: entries).flatMap write) =
        first :: (others ++ (entry.assigned ++ entries.flatMap write)) := by
      rw [starts]
      refine trimStart_append (List.forall_mem_singleton.2 (by decide)) fun c same => ?_
      obtain rfl := Option.some.inj same
      exact filled
    constructor
    · intro c same
      rw [starts] at same
      exact (Option.some.inj same).symm
    · intro c same
      rw [trims] at same
      obtain rfl := Option.some.inj same
      exact unassigned

/-- The attributes of a tag are read in order. -/
theorem all_readAttribute {entries : List Attribute} (legible : ∀ entry ∈ entries, entry.Legible) :
    readAttribute.all (entries.flatMap write) =
      entries.map fun entry => (entry.key, entry.content) := by
  induction entries with
  | nil =>
    rw [List.flatMap_nil, Reader.all, Reader.pieces]
    rfl
  | cons entry entries ih =>
    obtain ⟨here, later⟩ := List.forall_mem_cons.1 legible
    have starts : (entry :: entries).flatMap write =
        ' ' :: (entry.name ++ (entry.assigned ++ entries.flatMap write)) := by simp [write]
    have unread (text : List Char) : readAttribute (' ' :: text) = none := rfl
    have shorter : (entries.flatMap write).length <
        (entry.name ++ (entry.assigned ++ entries.flatMap write)).length := by
      have := List.length_pos_of_ne_nil here.named
      simp only [List.length_append]
      omega
    have rest := ih later
    rw [Reader.all] at rest ⊢
    rw [starts, Reader.pieces_cons (unread _),
      Reader.pieces_of_read (here.readAttribute_append (follows_write later)) shorter]
    simp [rest]

/-- Under a name is held the last value that the attributes of a tag give it. -/
theorem find?_attributesOf {entries : List Attribute} (legible : ∀ entry ∈ entries, entry.Legible)
    (key : String) :
    Entries.find? key (attributesOf (entries.flatMap write)) = lastValue key entries := by
  rw [attributesOf, all_readAttribute legible, Entries.find?_ofList, ← List.map_reverse,
    List.find?_map, Option.map_map, lastValue]
  rfl

/-- The text of attributes does not end their tag, and does not go on with its name. -/
theorem unending_write {entries : List Attribute} (legible : ∀ entry ∈ entries, entry.Legible) :
    '>' ∉ entries.flatMap write ∧ endsWord (entries.flatMap write ++ ['>']) = true := by
  constructor
  · intro member
    obtain ⟨entry, listed, inside⟩ := List.mem_flatMap.1 member
    have here := legible entry listed
    rw [write, List.mem_cons, List.mem_append] at inside
    rcases inside with space | named | given
    · exact absurd space (by decide)
    · exact (isAttributeChar_of_isNamePart (here.parts _ named)).2.2.2 rfl
    · rw [assigned] at given
      cases valued : entry.value with
      | none =>
        rw [valued] at given
        cases given
      | some part =>
        rw [valued] at given
        have noQuote : '>' ≠ part.1 := by
          rcases here.quotes part valued with same | same <;> (rw [same]; decide)
        have inside : '>' ∈ part.2 := by simpa [noQuote] using given
        exact (here.plain part valued _ inside).2.2 rfl
  · cases entries with
    | nil => decide
    | cons entry entries => rfl

end Attribute

end Attributes

section Reading

variable {kind : Kind} {body more : List Char}

/-- In front of an angle bracket, no closing tag is read in a text that has none by itself. -/
theorem readClosing_append (closed : ¬ Closes kind.tag body) {before behind : List Char} {c : Char}
    (whole : body = before ++ c :: behind) (more : List Char) :
    readClosing kind.tag (c :: (behind ++ '<' :: more)) = none := by
  have alone : readClosing kind.tag (c :: behind) = none := by
    refine Option.eq_none_iff_forall_ne_some.2 fun found read => closed ?_
    exact closes_iff.2 ⟨c :: behind, ⟨before, whole.symm⟩, by rw [read]; rfl⟩
  by_cases angle : c = '<'
  case neg => exact readClosing.eq_2 _ _ fun rest same => angle (List.cons.inj same).1
  subst angle
  match behind with
  | [] => exact readClosing.eq_2 _ _ fun rest same => absurd (List.cons.inj same).2 (by simp)
  | d :: behind =>
    by_cases slash : d = '/'
    case neg =>
      exact readClosing.eq_2 _ _ fun rest same =>
        slash (List.cons.inj (List.cons.inj same).2).1
    subst slash
    have angles : ∀ letter ∈ kind.tag, foldsTo letter '<' = false :=
      fun letter member => (kind.letters letter member).1
    rw [List.cons_append, readClosing]
    rw [readClosing] at alone
    cases found : afterFolded kind.tag behind with
    | none => rw [afterFolded_append_angle angles found]; rfl
    | some rest =>
      rw [afterFolded_append found, Option.map_some, trimStart_append_cons (by decide)]
      rw [found, Option.map_some] at alone
      cases trims : trimStart rest with
      | nil => rfl
      | cons first after =>
        rw [trims] at alone
        split
        · rename_i same
          obtain rfl : first = '>' := (List.cons.inj (Option.some.inj same)).1
          cases alone
        · rfl

/-- The closing tag of a block is the first one in front of which no other stands. -/
theorem first_readClosing (closed : ¬ Closes kind.tag body) (more : List Char) :
    (readClosing kind.tag).first (body ++ '<' :: '/' :: (kind.tag ++ '>' :: more)) =
      some ⟨body, (), more⟩ := by
  have read : readClosing kind.tag ('<' :: '/' :: (kind.tag ++ '>' :: more)) = some ((), more) := by
    have trims : trimStart ('>' :: more) = '>' :: more := List.dropWhile_cons_of_neg (by decide)
    rw [readClosing, kind.afterFolded_tag, Option.map_some, trims]
    rfl
  rw [Reader.first_append fun before c behind whole => readClosing_append closed whole _,
    Reader.first_of_read read, Option.map_some, List.append_nil]

/-- A block is read with its attributes and its body. -/
theorem readBlock_write {attributes : List Char} (unending : '>' ∉ attributes)
    (ends : endsWord (attributes ++ ['>']) = true) (closed : ¬ Closes kind.tag body)
    (more : List Char) :
    readBlock kind.tag ('<' :: (kind.tag ++ (attributes ++ '>' ::
      (body ++ '<' :: '/' :: (kind.tag ++ '>' :: more))))) = some ((attributes, body), more) := by
  have bounded : endsWord (attributes ++ '>' ::
      (body ++ '<' :: '/' :: (kind.tag ++ '>' :: more))) = true := by
    cases attributes <;> exact ends
  have front : cutFront (· != '>') (attributes ++ '>' ::
      (body ++ '<' :: '/' :: (kind.tag ++ '>' :: more))) =
        (attributes, '>' :: (body ++ '<' :: '/' :: (kind.tag ++ '>' :: more))) := by
    refine cutFront_append (fun c member => ?_) fun c first => ?_
    · exact bne_iff_ne.2 fun same => unending (same ▸ member)
    · obtain rfl := Option.some.inj first
      rfl
  rw [readBlock, kind.afterFolded_tag]
  simp only [Option.bind_eq_bind, Option.bind_some, bounded, if_pos, front,
    first_readClosing closed]

end Reading

section Pieces

variable {kind : Kind} {pieces : List Piece}

/-- A legible piece that is neither a block of the kind nor a markup block opens no tag of the
kind. -/
theorem Piece.Legible.unopened {piece : Piece} (legible : piece.Legible)
    (other : piece.block? kind = none) (unmarked : piece.block? .markup = none) :
    Unopened kind.tag piece.write := by
  cases piece with
  | filler text => exact unopened_of_not_mem legible
  | block own attributes body =>
    have different : own ≠ kind := by
      rintro rfl
      simp [Piece.block?] at other
    have bare : attributes = [] ∧ ¬ Closes own.tag body ∧ ∀ other : Kind, ¬ Opens other.tag body := by
      cases own with
      | markup => simp [Piece.block?] at unmarked
      | style => exact legible
      | script => exact legible
    obtain ⟨rfl, -, closed⟩ := bare
    exact Kind.unopened_block different (closed kind)

/-- A legible block is read with its attributes and its body. -/
theorem Piece.Legible.readBlock_append {attributes : List Attribute} {body : List Char}
    (legible : (Piece.block kind attributes body).Legible) (rest : List Char) :
    readBlock kind.tag ((Piece.block kind attributes body).write ++ rest) =
      some ((attributes.flatMap Attribute.write, body), rest) := by
  have parts : (∀ entry ∈ attributes, entry.Legible) ∧ ¬ Closes kind.tag body := by
    cases kind with
    | markup => exact legible
    | style =>
      obtain ⟨rfl, closed, -⟩ := legible
      exact ⟨nofun, closed⟩
    | script =>
      obtain ⟨rfl, closed, -⟩ := legible
      exact ⟨nofun, closed⟩
  obtain ⟨entries, closed⟩ := parts
  obtain ⟨unending, ends⟩ := Attribute.unending_write entries
  simpa [Piece.write] using readBlock_write unending ends closed rest

/-- Pieces that are neither blocks of the kind nor markup blocks open no tag of the kind. -/
theorem unopened_writeAll (legible : ∀ piece ∈ pieces, piece.Legible)
    (other : ∀ piece ∈ pieces, piece.block? kind = none)
    (unmarked : ∀ piece ∈ pieces, piece.block? .markup = none) :
    Unopened kind.tag (writeAll pieces) := by
  induction pieces with
  | nil => exact unopened_of_not_mem List.not_mem_nil
  | cons piece pieces ih =>
    obtain ⟨here, later⟩ := List.forall_mem_cons.1 legible
    obtain ⟨otherHere, otherLater⟩ := List.forall_mem_cons.1 other
    obtain ⟨unmarkedHere, unmarkedLater⟩ := List.forall_mem_cons.1 unmarked
    exact (here.unopened otherHere unmarkedHere).append (ih later otherLater unmarkedLater)

/-- The first block of a kind is found between the texts of the pieces around it, if no markup block
is in front of it. -/
theorem first_writeAll {before after : List Piece} {attributes : List Attribute} {body : List Char}
    (legible : ∀ piece ∈ before ++ .block kind attributes body :: after, piece.Legible)
    (other : ∀ piece ∈ before, piece.block? kind = none)
    (unmarked : ∀ piece ∈ before, piece.block? .markup = none) :
    (readBlock kind.tag).first (writeAll (before ++ .block kind attributes body :: after)) =
      some ⟨writeAll before, (attributes.flatMap Attribute.write, body), writeAll after⟩ := by
  obtain ⟨front, later⟩ := List.forall_mem_append.1 legible
  have here := (List.forall_mem_cons.1 later).1
  have whole : writeAll (before ++ .block kind attributes body :: after) =
      writeAll before ++ ((Piece.block kind attributes body).write ++ writeAll after) := by
    simp [writeAll]
  rw [whole, (unopened_writeAll front other unmarked).first_append,
    Reader.first_of_read (here.readBlock_append _), Option.map_some, List.append_nil]

/-- No block of a kind is found in pieces without one, and without a markup block. -/
theorem first_writeAll_eq_none (legible : ∀ piece ∈ pieces, piece.Legible)
    (other : ∀ piece ∈ pieces, piece.block? kind = none)
    (unmarked : ∀ piece ∈ pieces, piece.block? .markup = none) :
    (readBlock kind.tag).first (writeAll pieces) = none := by
  have whole := (unopened_writeAll legible other unmarked).first_append []
  rw [List.append_nil] at whole
  rw [whole]
  rfl

/-- A block of the kind is a piece, and no other of the kind is in front of it. -/
theorem exists_of_block? {attributes : List Attribute} {body : List Char}
    (found : block? kind pieces = some (attributes, body)) :
    ∃ before after, pieces = before ++ .block kind attributes body :: after ∧
      ∀ piece ∈ before, piece.block? kind = none := by
  obtain ⟨before, piece, after, whole, here, other⟩ := List.findSome?_eq_some_iff.1 found
  refine ⟨before, after, ?_, other⟩
  cases piece with
  | filler text => cases here
  | block own entries text =>
    rw [Piece.block?] at here
    split at here
    · rename_i same
      obtain ⟨rfl, rfl⟩ := Prod.mk.inj (Option.some.inj here)
      rw [whole, same]
    · cases here

/-- Outside of markup blocks, the body of the first block of a kind is found. -/
theorem bodyOf_writeAll (legible : ∀ piece ∈ pieces, piece.Legible)
    (unmarked : ∀ piece ∈ pieces, piece.block? .markup = none) :
    bodyOf kind.tag (writeAll pieces) = (body? kind pieces).getD "" := by
  rw [bodyOf, body?]
  cases found : block? kind pieces with
  | none =>
    rw [first_writeAll_eq_none legible (List.findSome?_eq_none_iff.1 found) unmarked]
    rfl
  | some block =>
    obtain ⟨attributes, body⟩ := block
    obtain ⟨before, after, rfl, other⟩ := exists_of_block? found
    rw [first_writeAll legible other fun piece member => unmarked piece (by simp [member])]
    rfl

/-- The text in which the style and the script of a document are looked for. -/
def remainder (source : List Char) : List Char :=
  match findMarkup source with
  | some found => found.before ++ found.after
  | none => source

/-- The markup block of a document is found with its attributes and its body, and what remains of the
document are pieces with no markup block and the same style and script. -/
theorem exists_remainder (legible : ∀ piece ∈ pieces, piece.Legible)
    (single : (pieces.filterMap (Piece.block? .markup)).length ≤ 1) :
    (findMarkup (writeAll pieces)).map Found.item =
        (block? .markup pieces).map (fun block => (block.1.flatMap Attribute.write, block.2)) ∧
      (∀ entry ∈ markupAttributes pieces, entry.Legible) ∧
      ∃ others : List Piece, remainder (writeAll pieces) = writeAll others ∧
        (∀ piece ∈ others, piece.Legible) ∧ (∀ piece ∈ others, piece.block? .markup = none) ∧
        ∀ kind, kind ≠ .markup → body? kind others = body? kind pieces := by
  cases found : block? .markup pieces with
  | none =>
    have unmarked := List.findSome?_eq_none_iff.1 found
    have missing : findMarkup (writeAll pieces) = none :=
      first_writeAll_eq_none legible unmarked unmarked
    refine ⟨by rw [missing]; rfl, ?_, pieces, ?_, legible, unmarked, fun _ _ => rfl⟩
    · rw [markupAttributes, found]
      exact nofun
    · rw [remainder, missing]
  | some block =>
    obtain ⟨attributes, body⟩ := block
    obtain ⟨before, after, rfl, other⟩ := exists_of_block? found
    have finds : findMarkup (writeAll (before ++ .block .markup attributes body :: after)) =
        some ⟨writeAll before, (attributes.flatMap Attribute.write, body), writeAll after⟩ :=
      first_writeAll legible other other
    have unmarked : ∀ piece ∈ before ++ after, piece.block? .markup = none := by
      have none : after.filterMap (Piece.block? .markup) = [] := by
        rw [List.filterMap_append, List.filterMap_eq_nil_iff.2 other] at single
        simpa [Piece.block?] using single
      exact List.forall_mem_append.2 ⟨other, List.filterMap_eq_nil_iff.1 none⟩
    obtain ⟨front, later⟩ := List.forall_mem_append.1 legible
    obtain ⟨here, back⟩ := List.forall_mem_cons.1 later
    refine ⟨by rw [finds]; rfl, ?_, before ++ after, ?_, List.forall_mem_append.2 ⟨front, back⟩,
      unmarked, fun kind different => ?_⟩
    · rw [markupAttributes, found]
      exact here.1
    · rw [remainder, finds]
      simp [writeAll]
    · simp [body?, block?, List.findSome?_append, Piece.block?, different.symm]

end Pieces

/-- The blocks of a document are found again: the body of the markup block, if there is one, the
bodies of the style and the script, and under the name of each attribute in lower case the last value
with the name. So a wrapper without a box is asked for exactly if such a value is there for `unwrap`
and is not `false`, and the markup or the whole document is given as there is a markup block or none. -/
theorem ofSource_writeAll {pieces : List Piece} (legible : ∀ piece ∈ pieces, piece.Legible)
    (single : (pieces.filterMap (Piece.block? .markup)).length ≤ 1) :
    (Blocks.ofSource (String.ofList (writeAll pieces))).markup = body? .markup pieces ∧
      (Blocks.ofSource (String.ofList (writeAll pieces))).style = (body? .style pieces).getD "" ∧
      (Blocks.ofSource (String.ofList (writeAll pieces))).script = (body? .script pieces).getD "" ∧
      (∀ key, Entries.find? key (Blocks.ofSource (String.ofList (writeAll pieces))).attributes =
        lastValue key (markupAttributes pieces)) ∧
      ((Blocks.ofSource (String.ofList (writeAll pieces))).asksUnwrap = true ↔
        ∃ value, lastValue "unwrap" (markupAttributes pieces) = some value ∧ value ≠ "false") ∧
      markupOrWhole (String.ofList (writeAll pieces)) =
        (body? .markup pieces).getD (String.ofList (writeAll pieces)) := by
  obtain ⟨found, entries, others, remains, plain, unmarked, same⟩ := exists_remainder legible single
  have text : (String.ofList (writeAll pieces)).toList = writeAll pieces := String.toList_ofList
  have rest (kind : Kind) (other : kind ≠ .markup) :
      bodyOf kind.tag (remainder (String.ofList (writeAll pieces)).toList) =
        (body? kind pieces).getD "" := by
    rw [text, remains, bodyOf_writeAll plain unmarked, same kind other]
  have markup : (findMarkup (String.ofList (writeAll pieces)).toList).map
      (fun found => String.ofList found.item.2) = body? .markup pieces := by
    have bodies := congrArg (Option.map fun item => String.ofList item.2) found
    rw [Option.map_map, Option.map_map] at bodies
    rw [text]
    exact bodies
  have lookups (key : String) : Entries.find? key
      (Blocks.ofSource (String.ofList (writeAll pieces))).attributes =
        lastValue key (markupAttributes pieces) := by
    have texts := congrArg (Option.map fun item => attributesOf item.1) found
    rw [Option.map_map, Option.map_map] at texts
    show Entries.find? key (((findMarkup (String.ofList (writeAll pieces)).toList).map
      fun found => attributesOf found.item.1).getD []) = _
    rw [text]
    refine (congrArg (fun held => Entries.find? key (Option.getD held [])) texts).trans ?_
    rw [markupAttributes] at entries ⊢
    cases block : block? .markup pieces with
    | none => rfl
    | some parts =>
      rw [block] at entries
      exact Attribute.find?_attributesOf entries key
  refine ⟨markup, rest .style (by decide), rest .script (by decide), lookups, ?_, ?_⟩
  · rw [asksUnwrap, lookups]
    cases lastValue "unwrap" (markupAttributes pieces) <;> simp
  · rw [← markup, markupOrWhole]
    cases findMarkup (String.ofList (writeAll pieces)).toList <;> rfl

/-- A document whose script comes first, and whose markup block has a style, a script and what is
nearly its own closing tag in it. -/
def cardPieces : List Piece := [
  .filler "\n".toList,
  .block .script [] "if (a < b) '</ script>'".toList,
  .block .markup [⟨"ID".toList, some ('"', "<style".toList)⟩, ⟨"unwrap".toList, none⟩,
    ⟨"id".toList, some ('\'', "card".toList)⟩]
    "<p></templates><style></style><SCRIPT></SCRIPT></ template>".toList,
  .filler " text\n".toList,
  .block .style [] "p > a\x7b\x7d</ style>".toList]

/-- The text of the document. -/
def cardSource : String :=
  "\n<script>if (a < b) '</ script>'</script><template ID=\"<style\" unwrap id='card'>" ++
    "<p></templates><style></style><SCRIPT></SCRIPT></ template></template> text\n" ++
    "<style>p > a\x7b\x7d</ style></style>"

set_option maxRecDepth 4000 in
/-- The document is written as its pieces are. -/
theorem writeAll_cardPieces : String.ofList (writeAll cardPieces) = cardSource := rfl

/-- The blocks of the document are found, and the later of the two values of an attribute. -/
theorem ofSource_writeAll_card :
    (Blocks.ofSource cardSource).markup =
        some "<p></templates><style></style><SCRIPT></SCRIPT></ template>" ∧
      (Blocks.ofSource cardSource).style = "p > a\x7b\x7d</ style>" ∧
      (Blocks.ofSource cardSource).script = "if (a < b) '</ script>'" ∧
      Entries.find? "id" (Blocks.ofSource cardSource).attributes = some "card" ∧
      (Blocks.ofSource cardSource).asksUnwrap = true := by
  have legible : ∀ piece ∈ cardPieces, piece.Legible := by decide
  obtain ⟨markup, style, script, lookups, unwraps, -⟩ := ofSource_writeAll legible (by decide)
  rw [writeAll_cardPieces] at markup style script lookups unwraps
  exact ⟨markup, style, script, lookups "id", unwraps.2 ⟨"true", rfl, by decide⟩⟩

end ComponentPages.Document
