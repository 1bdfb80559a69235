/-!
# Scanning a text

A `Reader` reads one thing at the front of a text. Scanning looks for what it reads further
on: `Reader.first` finds the first place where it reads something, and `Reader.pieces` splits
the whole text into the characters passed over and the things read, from left to right and
without overlap. Finding a fixed word is the case of a reader for that word (`cut`).

A natural is read from its decimal digits (`natural?`). Only the digits `0` to `9` are read, and a
text without a digit is no natural.
-/
namespace ComponentPages.Text

/-- Reads something at the front of a text, and returns it with the text after it. -/
abbrev Reader (α : Type) := List Char → Option (α × List Char)

/-- What a reader found in a text, with the text around it. -/
structure Found (α : Type) where
  /-- The text passed over. -/
  before : List Char
  /-- What was read. -/
  item : α
  /-- The text after it. -/
  after : List Char

namespace Reader

variable {α : Type}

/-- The first place of a text where the reader reads something. -/
def first (read : Reader α) : List Char → Option (Found α)
  | [] => (read []).map fun (item, after) => ⟨[], item, after⟩
  | c :: rest =>
    match read (c :: rest) with
    | some (item, after) => some ⟨[], item, after⟩
    | none => (first read rest).map fun found => { found with before := c :: found.before }

/-- A text as the characters passed over and the things read, in order. Something is read
only if it takes at least one character. -/
def pieces (read : Reader α) : List Char → List (Char ⊕ α)
  | [] => []
  | c :: rest =>
    match read (c :: rest) with
    | none => .inl c :: pieces read rest
    | some (item, after) =>
      if after.length ≤ rest.length then .inr item :: pieces read after
      else .inl c :: pieces read rest
termination_by text => text.length

/-- The things read in a text, in order. -/
def all (read : Reader α) (text : List Char) : List α :=
  (read.pieces text).filterMap fun
    | .inl _ => none
    | .inr item => some item

/-- The text with everything read replaced by a text of its own. -/
def replace (read : Reader α) (write : α → List Char) (text : List Char) : List Char :=
  (read.pieces text).flatMap fun
    | .inl c => [c]
    | .inr item => write item

variable {β : Type} {read : Reader α} {c : Char} {text rest after : List Char} {item : α}

/-- A character at which nothing is read is passed over. -/
theorem pieces_cons (unread : read (c :: rest) = none) :
    read.pieces (c :: rest) = .inl c :: read.pieces rest := by
  rw [pieces, unread]

/-- What is read at the front of a text is its first piece. -/
theorem pieces_of_read (found : read text = some (item, after))
    (shorter : after.length < text.length) :
    read.pieces text = .inr item :: read.pieces after := by
  cases text with
  | nil => exact absurd shorter (Nat.not_lt_zero _)
  | cons c rest =>
    rw [pieces, found]
    simp only [if_pos (Nat.le_of_lt_succ shorter)]

/-- A text has no pieces only if it is empty. -/
theorem isEmpty_pieces (read : Reader α) (text : List Char) :
    (read.pieces text).isEmpty = text.isEmpty := by
  cases text with
  | nil => rw [pieces]; rfl
  | cons c rest =>
    rw [pieces]
    split
    · rfl
    · split <;> rfl

/-- What is found is read right after the text that is passed over. -/
theorem eq_append_of_first {found : Found α} (finds : read.first text = some found) :
    ∃ rest, text = found.before ++ rest ∧ read rest = some (found.item, found.after) := by
  induction text generalizing found with
  | nil =>
    obtain ⟨item, here, rfl⟩ := Option.map_eq_some_iff.1 finds
    exact ⟨[], rfl, here⟩
  | cons c text ih =>
    cases here : read (c :: text) with
    | some item =>
      simp only [first, here, Option.some.injEq] at finds
      exact finds ▸ ⟨c :: text, rfl, here⟩
    | none =>
      simp only [first, here] at finds
      obtain ⟨later, next, rfl⟩ := Option.map_eq_some_iff.1 finds
      obtain ⟨rest, rfl, reads⟩ := ih next
      exact ⟨rest, rfl, reads⟩

/-- What is read at the front of a text is the first thing found. -/
theorem first_of_read (found : read text = some (item, after)) :
    read.first text = some ⟨[], item, after⟩ := by
  cases text with
  | nil => rw [first, found, Option.map_some]
  | cons c rest => rw [first, found]

/-- A text at none of whose characters something is read is passed over. -/
theorem first_append {front : List Char}
    (unread : ∀ before c behind, front = before ++ c :: behind → read (c :: (behind ++ rest)) = none) :
    read.first (front ++ rest) =
      (read.first rest).map fun found => { found with before := front ++ found.before } := by
  induction front with
  | nil =>
    rw [List.nil_append]
    cases read.first rest <;> rfl
  | cons c front ih =>
    have later := ih fun before c behind same => unread (_ :: before) c behind (congrArg _ same)
    rw [List.cons_append, first, unread [] c front rfl]
    simp only [later, Option.map_map]
    rfl

/-- Nothing is read in an empty text. -/
theorem all_nil (read : Reader α) : read.all [] = [] := by
  rw [all, pieces]
  rfl

/-- Nothing more is read in a text with a character in front at which nothing is read. -/
theorem all_cons (unread : read (c :: rest) = none) : read.all (c :: rest) = read.all rest := by
  rw [all, pieces_cons unread]
  rfl

/-- What is read at the front of a text is the first thing read in it. -/
theorem all_of_read (found : read text = some (item, after)) (shorter : after.length < text.length) :
    read.all text = item :: read.all after := by
  rw [all, pieces_of_read found shorter]
  rfl

/-- Nothing more is read in a text with another in front at none of whose characters something is
read. -/
theorem all_append {front : List Char}
    (unread : ∀ before c behind, front = before ++ c :: behind → read (c :: (behind ++ rest)) = none) :
    read.all (front ++ rest) = read.all rest := by
  induction front with
  | nil => rfl
  | cons c front ih =>
    rw [List.cons_append, all_cons (unread [] c front rfl)]
    exact ih fun before c behind same => unread (_ :: before) c behind (congrArg _ same)

/-- The reader that changes what another reads. -/
def changing (read : Reader α) (change : α → β) : Reader β :=
  fun text => (read text).map fun (item, rest) => (change item, rest)

/-- A reader that changes what another reads reads it at the same places. -/
theorem pieces_changing (read : Reader α) (change : α → β) (text : List Char) :
    (read.changing change).pieces text = (read.pieces text).map fun
      | .inl c => .inl c
      | .inr item => .inr (change item) := by
  induction size : text.length using Nat.strongRecOn generalizing text with
  | _ size ih =>
    subst size
    cases text with
    | nil =>
      rw [pieces, pieces]
      rfl
    | cons c rest =>
      have passed := ih rest.length (Nat.lt_succ_self _) rest rfl
      rw [pieces, pieces]
      cases reads : read (c :: rest) with
      | none =>
        simp only [changing, reads, Option.map_none] at passed ⊢
        rw [passed]
        rfl
      | some found =>
        obtain ⟨item, after⟩ := found
        by_cases shorter : after.length ≤ rest.length
        · have later := ih after.length (Nat.lt_succ_of_le shorter) after rfl
          simp only [changing, reads, Option.map_some, if_pos shorter] at later ⊢
          rw [later]
          rfl
        · simp only [changing, reads, Option.map_some, if_neg shorter] at passed ⊢
          rw [passed]
          rfl

/-- What such a reader reads is what the other reads, changed. -/
theorem all_changing (read : Reader α) (change : α → β) (text : List Char) :
    (read.changing change).all text = (read.all text).map change := by
  rw [all, pieces_changing, all, List.filterMap_map, List.map_filterMap]
  refine congrArg (List.filterMap · (read.pieces text)) (funext fun piece => ?_)
  cases piece <;> rfl

end Reader

/-- The longest front of a text whose characters satisfy a test, and the text after it. -/
def cutFront (test : Char → Bool) (text : List Char) : List Char × List Char :=
  (text.takeWhile test, text.dropWhile test)

/-- Cutting off the front of a text loses nothing. -/
theorem eq_append_of_cutFront {test : Char → Bool} {text front rest : List Char}
    (h : cutFront test text = (front, rest)) : text = front ++ rest := by
  obtain ⟨rfl, rfl⟩ := Prod.mk.inj h
  exact List.takeWhile_append_dropWhile.symm

/-- A front is cut off where a character follows that does not satisfy the test. -/
theorem cutFront_append {test : Char → Bool} {front rest : List Char}
    (all : ∀ c ∈ front, test c = true) (stops : ∀ c ∈ rest.head?, test c = false) :
    cutFront test (front ++ rest) = (front, rest) := by
  rw [cutFront, List.takeWhile_append_of_pos all, List.dropWhile_append_of_pos all]
  cases rest with
  | nil => simp
  | cons c rest => simp [stops c rfl]

/-- Reads a fixed word. -/
def literal (word : List Char) : Reader Unit :=
  fun text => (word.isPrefixOf? text).map fun rest => ((), rest)

/-- The text before and after the first occurrence of a word. -/
def cut (word text : List Char) : Option (List Char × List Char) :=
  ((literal word).first text).map fun found => (found.before, found.after)

/-- The text before and after the last occurrence of a word. -/
def cutLast (word : List Char) : List Char → Option (List Char × List Char)
  | [] => (word.isPrefixOf? []).map fun after => ([], after)
  | c :: rest =>
    match cutLast word rest with
    | some (before, after) => some (c :: before, after)
    | none => (word.isPrefixOf? (c :: rest)).map fun after => ([], after)

/-- The natural with the given decimal digits, after those already read. -/
def readDigits : Nat → List Char → Option Nat
  | value, [] => some value
  | value, c :: rest =>
    if c.isDigit then readDigits (10 * value + (c.toNat - '0'.toNat)) rest else none

/-- The natural that a text of decimal digits stands for. -/
def natural? (text : List Char) : Option Nat :=
  if text.isEmpty then none else readDigits 0 text

/-- The decimal digits of a natural. -/
def digits (value : Nat) : List Char := Nat.toDigits 10 value

/-- Decimal digits are read one after the other. -/
theorem readDigits_eq {text : List Char} (digits : ∀ c ∈ text, c.isDigit = true) (value : Nat) :
    readDigits value text = some (Nat.ofDigitChars 10 text value) := by
  induction text generalizing value with
  | nil => rfl
  | cons c text ih =>
    obtain ⟨here, later⟩ := List.forall_mem_cons.1 digits
    rw [readDigits, if_pos here, ih later]
    rfl

/-- The decimal digits of a natural are read as the natural. -/
theorem natural?_digits (value : Nat) : natural? (digits value) = some value := by
  have decimal : ∀ c ∈ digits value, c.isDigit = true := fun c member =>
    Nat.isDigit_of_mem_toDigits (by decide) (by decide) member
  have written : (digits value).isEmpty = false :=
    List.isEmpty_eq_false_iff.2 Nat.toDigits_ne_nil
  rw [natural?, written, if_neg (by decide), readDigits_eq decimal, digits,
    Nat.ofDigitChars_toDigits (by decide) (by decide)]

end ComponentPages.Text
