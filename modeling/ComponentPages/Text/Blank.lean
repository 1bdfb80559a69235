/-!
# Blank characters

A character class is a table of closed ranges of code points, and `inRanges` is membership in such
a table. Here it is the class of the twenty-five blank characters, with what is done with them at
the ends of a text and between its words. Trimming removes blanks at an end and nothing else: what
remains neither starts (`trimStart_eq_cons`) nor ends with a blank.
-/
namespace ComponentPages.Text

/-- Whether a code point lies in one of the closed ranges of a table. -/
def inRanges (table : List (Nat × Nat)) (point : Nat) : Bool :=
  table.any fun range => Nat.ble range.1 point && Nat.ble point range.2

/-- Membership says that some range of the table holds the point. -/
theorem inRanges_iff {table : List (Nat × Nat)} {point : Nat} :
    inRanges table point = true ↔ ∃ range ∈ table, range.1 ≤ point ∧ point ≤ range.2 := by
  simp [inRanges]

/-- A point of one table lies in no table whose ranges are all apart from those of the first. -/
theorem inRanges_eq_false {table other : List (Nat × Nat)} {point : Nat}
    (inside : inRanges table point = true)
    (apart : ∀ range ∈ table, ∀ next ∈ other, range.2 < next.1 ∨ next.2 < range.1) :
    inRanges other point = false := by
  obtain ⟨range, listed, low, high⟩ := inRanges_iff.1 inside
  refine Bool.eq_false_iff.2 fun both => ?_
  obtain ⟨next, member, least, greatest⟩ := inRanges_iff.1 both
  have := apart range listed next member
  omega

/-- The blank characters, as ranges of code points. -/
def blanks : List (Nat × Nat) := [
  (0x9, 0xD), (0x20, 0x20), (0x85, 0x85), (0xA0, 0xA0), (0x1680, 0x1680), (0x2000, 0x200A),
  (0x2028, 0x2029), (0x202F, 0x202F), (0x205F, 0x205F), (0x3000, 0x3000)]

/-- A blank: a space, a tab, a line end or another character of that kind. -/
def isBlank (c : Char) : Bool := inRanges blanks c.toNat

/-- The text without the blanks at its front. -/
def trimStart (text : List Char) : List Char := text.dropWhile isBlank

/-- The text without the blanks at its end. -/
def trimEnd (text : List Char) : List Char := (text.reverse.dropWhile isBlank).reverse

/-- The text without the blanks at its two ends. -/
def trim (text : List Char) : List Char := trimEnd (trimStart text)

/-- A text that is trimmed at its front does not start with a blank. -/
theorem trimStart_eq_cons {text rest : List Char} {c : Char}
    (h : trimStart text = c :: rest) : isBlank c = false := by
  unfold trimStart at h
  induction text with
  | nil => simp at h
  | cons first others ih =>
    by_cases blank : isBlank first = true
    · simp only [List.dropWhile_cons, blank, ↓reduceIte] at h
      exact ih h
    · simp only [List.dropWhile_cons, blank, Bool.false_eq_true, ↓reduceIte, List.cons.injEq] at h
      simpa [← h.1] using blank

/-- What is trimmed off the end of a text is blank. -/
theorem eq_trimEnd_append (text : List Char) :
    ∃ blanks, text = trimEnd text ++ blanks ∧ ∀ c ∈ blanks, isBlank c = true := by
  refine ⟨(text.reverse.takeWhile isBlank).reverse, ?_, ?_⟩
  · rw [trimEnd, ← List.reverse_append, List.takeWhile_append_dropWhile, List.reverse_reverse]
  · intro c member
    exact List.all_eq_true.1 List.all_takeWhile c (List.mem_reverse.1 member)

/-- Blanks before a text that does not start with one are trimmed off. -/
theorem trimStart_append {front text : List Char} (blank : ∀ c ∈ front, isBlank c = true)
    (first : ∀ c ∈ text.head?, isBlank c = false) : trimStart (front ++ text) = text := by
  rw [trimStart, List.dropWhile_append_of_pos blank]
  cases text with
  | nil => rfl
  | cons c text => simp [first c rfl]

/-- Only what is in front of the first character that is no blank is trimmed off. -/
theorem trimStart_append_cons {c : Char} (filled : isBlank c = false) (front back : List Char) :
    trimStart (front ++ c :: back) = trimStart front ++ c :: back := by
  rw [trimStart, List.dropWhile_append, trimStart]
  split
  · rename_i blank
    rw [List.isEmpty_iff.1 blank, List.dropWhile_cons_of_neg (by simp [filled]), List.nil_append]
  · rfl

/-- Blanks after a text that does not end with one are trimmed off. -/
theorem trimEnd_append {text back : List Char} (blank : ∀ c ∈ back, isBlank c = true)
    (last : ∀ c ∈ text.getLast?, isBlank c = false) : trimEnd (text ++ back) = text := by
  have reversed : trimStart (back.reverse ++ text.reverse) = text.reverse :=
    trimStart_append (fun c member => blank c (List.mem_reverse.1 member))
      (fun c member => last c (List.head?_reverse ▸ member))
  rw [trimEnd, List.reverse_append]
  exact (congrArg List.reverse reversed).trans (List.reverse_reverse text)

/-- Only what follows the last character that is no blank is trimmed off. -/
theorem trimEnd_append_cons {c : Char} (filled : isBlank c = false) (front back : List Char) :
    trimEnd (front ++ c :: back) = front ++ c :: trimEnd back := by
  have reversed : (front ++ c :: back).reverse = back.reverse ++ c :: front.reverse := by simp
  rw [trimEnd, reversed, List.dropWhile_append, trimEnd]
  split
  · rename_i blank
    rw [List.isEmpty_iff.1 blank, List.dropWhile_cons_of_neg (by simp [filled])]
    simp
  · simp

/-- Blanks behind a text are trimmed off with those at its end. -/
theorem trimEnd_append_of_forall {text back : List Char} (blank : ∀ c ∈ back, isBlank c = true) :
    trimEnd (text ++ back) = trimEnd text := by
  have reversed : ∀ c ∈ back.reverse, isBlank c = true := fun c member =>
    blank c (List.mem_reverse.1 member)
  rw [trimEnd, List.reverse_append, List.dropWhile_append_of_pos reversed, trimEnd]

/-- Blanks around a text are trimmed off with those at its ends. -/
theorem trim_append_of_forall {front back : List Char} (before : ∀ c ∈ front, isBlank c = true)
    (after : ∀ c ∈ back, isBlank c = true) (text : List Char) :
    trim (front ++ text ++ back) = trim text := by
  have started : trimStart (front ++ text ++ back) = trimStart (text ++ back) := by
    rw [List.append_assoc, trimStart, List.dropWhile_append_of_pos before, trimStart]
  rw [trim, started, trimStart, List.dropWhile_append, trim, trimStart]
  split
  · rename_i empty
    have nothing : trimStart (back ++ []) = [] := trimStart_append after (by simp)
    rw [List.append_nil, trimStart] at nothing
    rw [nothing, List.isEmpty_iff.1 empty]
  · exact trimEnd_append_of_forall after

/-- A text with a character that is no blank is trimmed at its end alone, whatever is in front. -/
theorem trimEnd_append_of_exists {text : List Char} (filled : ∃ c ∈ text, isBlank c = false)
    (front : List Char) : trimEnd (front ++ text) = front ++ trimEnd text := by
  obtain ⟨c, member, other⟩ := filled
  obtain ⟨before, after, rfl⟩ := List.append_of_mem member
  rw [← List.append_assoc, trimEnd_append_cons other, trimEnd_append_cons other,
    List.append_assoc]

/-- A text of which nothing is left when its end is trimmed is blank. -/
theorem isEmpty_trimEnd (text : List Char) : (trimEnd text).isEmpty = text.all isBlank := by
  rw [Bool.eq_iff_iff, List.isEmpty_iff, List.all_eq_true]
  constructor
  · intro empty
    obtain ⟨blanks, whole, blank⟩ := eq_trimEnd_append text
    rw [empty, List.nil_append] at whole
    exact whole ▸ blank
  · intro blank
    have nothing : ∀ c ∈ ([] : List Char).getLast?, isBlank c = false := nofun
    exact trimEnd_append blank nothing

/-- A text without blanks at its two ends. -/
structure Trimmed (text : List Char) : Prop where
  first : ∀ c ∈ text.head?, isBlank c = false
  last : ∀ c ∈ text.getLast?, isBlank c = false

/-- Texts without blanks at their ends can be told. -/
instance (text : List Char) : Decidable (Trimmed text) :=
  have : Decidable (∀ c ∈ text.head?, isBlank c = false) := Option.decidableForallMem _
  have : Decidable (∀ c ∈ text.getLast?, isBlank c = false) := Option.decidableForallMem _
  decidable_of_iff ((∀ c ∈ text.head?, isBlank c = false) ∧
      ∀ c ∈ text.getLast?, isBlank c = false)
    ⟨fun both => ⟨both.1, both.2⟩, fun trimmed => ⟨trimmed.first, trimmed.last⟩⟩

/-- A text without blanks at its ends is what is left between blanks around it. -/
theorem Trimmed.trim_append {front text back : List Char} (trimmed : Trimmed text)
    (before : ∀ c ∈ front, isBlank c = true) (after : ∀ c ∈ back, isBlank c = true) :
    trim (front ++ text ++ back) = text := by
  rw [trim, List.append_assoc]
  cases text with
  | nil =>
    have blank : ∀ c ∈ front ++ ([] ++ back), isBlank c = true := by
      intro c member
      rcases List.mem_append.1 member with here | later
      · exact before c here
      · exact after c later
    have nothing : trimStart (front ++ ([] ++ back) ++ []) = [] := trimStart_append blank (by simp)
    rw [List.append_nil] at nothing
    rw [nothing]
    rfl
  | cons c text =>
    have started : trimStart (front ++ (c :: text ++ back)) = c :: text ++ back :=
      trimStart_append before (fun first member => trimmed.first first member)
    rw [started, trimEnd_append after trimmed.last]

/-- A text of which nothing is left when it is trimmed is blank. -/
theorem isBlank_of_trim_eq_nil {text : List Char} (empty : trim text = []) :
    ∀ c ∈ text, isBlank c = true := by
  obtain ⟨blanks, whole, blank⟩ := eq_trimEnd_append (trimStart text)
  change trimEnd (trimStart text) = [] at empty
  rw [empty, List.nil_append] at whole
  intro c member
  rw [← List.takeWhile_append_dropWhile (p := isBlank) (l := text), List.mem_append] at member
  rcases member with front | rest
  · exact List.all_eq_true.1 List.all_takeWhile c front
  · exact blank c (whole ▸ rest)

/-- A text has all characters that are left without the blanks around it. -/
theorem trim_subset (text : List Char) : trim text ⊆ text := by
  intro c member
  obtain ⟨blanks, whole, -⟩ := eq_trimEnd_append (trimStart text)
  have started : c ∈ trimStart text := by
    rw [whole]
    exact List.mem_append_left blanks member
  exact (List.dropWhile_sublist isBlank).subset started

/-- A text has the same characters that are no blanks when it is trimmed. -/
theorem mem_trim {text : List Char} {c : Char} (filled : isBlank c = false) (member : c ∈ text) :
    c ∈ trim text := by
  have start : c ∈ trimStart text := by
    rw [← List.takeWhile_append_dropWhile (p := isBlank) (l := text)] at member
    refine (List.mem_append.1 member).resolve_left fun blank => ?_
    exact nomatch filled.symm.trans (List.all_eq_true.1 List.all_takeWhile c blank)
  obtain ⟨blanks, whole, blank⟩ := eq_trimEnd_append (trimStart text)
  rw [whole] at start
  exact (List.mem_append.1 start).resolve_right fun last =>
    nomatch filled.symm.trans (blank c last)

/-- The pieces of a text between the characters that `cut` holds of; there is always one. -/
def splitWhere (cut : Char → Bool) : List Char → List (List Char)
  | [] => [[]]
  | c :: rest =>
    if cut c then [] :: splitWhere cut rest
    else match splitWhere cut rest with
      | [] => [[c]]
      | first :: others => (c :: first) :: others

/-- A text without such a character is one piece. -/
theorem splitWhere_of_forall {cut : Char → Bool} {text : List Char}
    (whole : ∀ c ∈ text, cut c = false) : splitWhere cut text = [text] := by
  induction text with
  | nil => rfl
  | cons c text ih =>
    obtain ⟨here, later⟩ := List.forall_mem_cons.1 whole
    simp [splitWhere, here, ih later]

/-- The text before a character that cuts is the first piece. -/
theorem splitWhere_append (cut : Char → Bool) {c : Char} {front : List Char}
    (cuts : cut c = true) (whole : ∀ c ∈ front, cut c = false) (rest : List Char) :
    splitWhere cut (front ++ c :: rest) = front :: splitWhere cut rest := by
  induction front with
  | nil => simp [splitWhere, cuts]
  | cons first front ih =>
    obtain ⟨here, later⟩ := List.forall_mem_cons.1 whole
    simp [splitWhere, here, ih later]

/-- A text has all characters of its pieces. -/
theorem subset_of_mem_splitWhere {cut : Char → Bool} {text piece : List Char}
    (member : piece ∈ splitWhere cut text) : piece ⊆ text := by
  induction text generalizing piece with
  | nil =>
    rw [List.mem_singleton.1 member]
    exact List.nil_subset []
  | cons c text ih =>
    rw [splitWhere] at member
    split at member
    · rcases List.mem_cons.1 member with rfl | later
      · exact List.nil_subset _
      · exact List.subset_cons_of_subset c (ih later)
    · split at member
      · rw [List.mem_singleton.1 member]
        exact List.cons_subset_cons c (List.nil_subset text)
      · rename_i first others pieces
        rcases List.mem_cons.1 member with rfl | later
        · exact List.cons_subset_cons c (ih (pieces ▸ List.mem_cons_self))
        · exact List.subset_cons_of_subset c (ih (pieces ▸ List.mem_cons_of_mem first later))

/-- The words of a text: its longest pieces without a blank. -/
def words (text : List Char) : List (List Char) :=
  (splitWhere isBlank text).filter fun piece => !piece.isEmpty

end ComponentPages.Text
