import ComponentPages.Text.Scan
import Mathlib.Data.List.Basic

/-!
# Cutting a text at a word

Cutting a text at a word loses only the word (`eq_append_of_cut`), and it is cut where the word is
for the first time (`length_le_of_cut`); the last cut is made where the word does not occur again
(`cutLast_eq_some_iff`).
-/
namespace ComponentPages.Text

/-- A word that a text starts with is where the text is cut. -/
theorem cut_append {word : List Char} (some_letter : word ≠ []) (rest : List Char) :
    cut word (word ++ rest) = some ([], rest) := by
  obtain ⟨letter, letters, rfl⟩ := List.exists_cons_of_ne_nil some_letter
  have read : (literal (letter :: letters)) (letter :: (letters ++ rest)) = some ((), rest) := by
    rw [literal, ← List.cons_append, List.isPrefixOf?_eq_some_iff_append_eq.2 rfl]
    rfl
  simp only [cut, List.cons_append, Reader.first, read, Option.map_some]

/-- A text that does not start with a word is cut after its first character. -/
theorem cut_cons {word text : List Char} {c : Char} (other : ¬ word <+: c :: text) :
    cut word (c :: text) = (cut word text).map fun (before, after) => (c :: before, after) := by
  have unread : (literal word) (c :: text) = none := by
    cases read : word.isPrefixOf? (c :: text) with
    | none => simp only [literal, read, Option.map_none]
    | some rest => exact absurd ⟨rest, List.append_eq_of_isPrefixOf?_eq_some read⟩ other
  simp only [cut, Reader.first, unread, Option.map_map]
  rfl

/-- Cutting a text at a word loses only the word. -/
theorem eq_append_of_cut {word text before after : List Char}
    (h : cut word text = some (before, after)) : text = before ++ word ++ after := by
  induction text generalizing before with
  | nil =>
    simp only [cut, Reader.first, literal, Option.map_map, Option.map_eq_some_iff,
      Function.comp_apply, Prod.mk.injEq] at h
    obtain ⟨rest, read, rfl, rfl⟩ := h
    simpa using (List.append_eq_of_isPrefixOf?_eq_some read).symm
  | cons c text ih =>
    cases read : word.isPrefixOf? (c :: text) with
    | some rest =>
      simp only [cut, Reader.first, literal, read, Option.map_some, Option.some.injEq,
        Prod.mk.injEq] at h
      obtain ⟨rfl, rfl⟩ := h
      simpa using (List.append_eq_of_isPrefixOf?_eq_some read).symm
    | none =>
      simp only [cut, Reader.first, literal, read, Option.map_none, Option.map_map,
        Option.map_eq_some_iff, Function.comp_apply, Prod.mk.injEq] at h
      obtain ⟨found, next, rfl, rfl⟩ := h
      have := @ih found.before (by simp [cut, next])
      simp [this]

/-- A text without a word is not cut at it. -/
theorem cut_eq_none {word text : List Char} (free : ¬ word <:+: text) : cut word text = none := by
  cases found : cut word text with
  | none => rfl
  | some parts => exact absurd ⟨parts.1, parts.2, (eq_append_of_cut found).symm⟩ free

/-- A text is cut at a word that it holds. -/
theorem exists_cut {word : List Char} (some_letter : word ≠ []) (before after : List Char) :
    ∃ found, cut word (before ++ word ++ after) = some found := by
  induction before with
  | nil => exact ⟨_, cut_append some_letter after⟩
  | cons c before ih =>
    by_cases here : word <+: c :: (before ++ word ++ after)
    · obtain ⟨rest, same⟩ := here
      refine ⟨([], rest), ?_⟩
      rw [List.cons_append, List.cons_append, ← same]
      exact cut_append some_letter rest
    · obtain ⟨found, cuts⟩ := ih
      refine ⟨(c :: found.1, found.2), ?_⟩
      rw [List.cons_append, List.cons_append, cut_cons here, cuts]
      rfl

/-- A text is cut where the word is for the first time. -/
theorem length_le_of_cut {word text before after front behind : List Char} (some_letter : word ≠ [])
    (cuts : cut word text = some (before, after)) (same : text = front ++ (word ++ behind)) :
    before.length ≤ front.length := by
  induction text generalizing before front with
  | nil => simp [some_letter] at same
  | cons c text ih =>
    by_cases here : word <+: c :: text
    · obtain ⟨others, starts⟩ := here
      rw [← starts, cut_append some_letter] at cuts
      obtain ⟨rfl, -⟩ := Prod.mk.inj (Option.some.inj cuts)
      exact Nat.zero_le _
    · rw [cut_cons here] at cuts
      obtain ⟨⟨others, later⟩, next, found⟩ := Option.map_eq_some_iff.1 cuts
      obtain ⟨rfl, rfl⟩ := Prod.mk.inj found
      cases front with
      | nil => exact absurd ⟨behind, same.symm⟩ here
      | cons first front => exact Nat.succ_le_succ (ih next (List.cons.inj same).2)

/-- A text is cut at the same place if others follow it. -/
theorem cut_append_right {word text before after : List Char} (some_letter : word ≠ [])
    (cuts : cut word text = some (before, after)) (others : List Char) :
    cut word (text ++ others) = some (before, after ++ others) := by
  induction text generalizing before with
  | nil => exact absurd (eq_append_of_cut cuts) (by simp [some_letter])
  | cons c text ih =>
    by_cases here : word <+: c :: text
    · obtain ⟨rest, same⟩ := here
      rw [← same, cut_append some_letter] at cuts
      obtain ⟨rfl, rfl⟩ := Prod.mk.inj (Option.some.inj cuts)
      rw [← same, List.append_assoc, cut_append some_letter]
    · rw [cut_cons here] at cuts
      obtain ⟨⟨front, rest⟩, later, same⟩ := Option.map_eq_some_iff.1 cuts
      obtain ⟨rfl, rfl⟩ := Prod.mk.inj same
      have other : ¬ word <+: c :: (text ++ others) := by
        intro starts
        refine here (List.prefix_of_prefix_length_le starts ⟨others, rfl⟩ ?_)
        rw [eq_append_of_cut later]
        simp only [List.length_cons, List.length_append]
        omega
      rw [List.cons_append, cut_cons other, ih later]
      rfl

/-- A text is cut where a character is doubled for the first time. -/
theorem cut_doubled {letter : Char} {front : List Char} (free : ¬ [letter, letter] <:+: front)
    (apart : front.getLast? ≠ some letter) (rest : List Char) :
    cut [letter, letter] (front ++ letter :: letter :: rest) = some (front, rest) := by
  induction front with
  | nil => exact cut_append (by simp) rest
  | cons c front ih =>
    have other : ¬ [letter, letter] <+: c :: (front ++ letter :: letter :: rest) := by
      rintro ⟨others, starts⟩
      obtain ⟨rfl, second⟩ := List.cons.inj starts
      cases front with
      | nil => exact apart rfl
      | cons next front =>
        obtain ⟨rfl, -⟩ := List.cons.inj second
        exact free ⟨[], front, rfl⟩
    have later : front.getLast? ≠ some letter := by
      intro last
      exact apart (by rw [List.getLast?_cons, last]; rfl)
    rw [List.cons_append, cut_cons other,
      ih (fun inside => free (List.infix_cons inside)) later]
    rfl

/-- A text is cut at a character where the character is for the first time. -/
theorem cut_single {letter : Char} {front : List Char} (absent : letter ∉ front)
    (rest : List Char) : cut [letter] (front ++ letter :: rest) = some (front, rest) := by
  induction front with
  | nil => exact cut_append (List.cons_ne_nil _ _) rest
  | cons c front ih =>
    obtain ⟨other, later⟩ := not_or.1 (mt List.mem_cons.2 absent)
    have apart : ¬ [letter] <+: c :: (front ++ letter :: rest) := by
      rintro ⟨others, starts⟩
      exact other (List.cons.inj starts).1
    rw [List.cons_append, cut_cons apart, ih later]
    rfl

/-- Where a text is cut at a character, the character is not before. -/
theorem not_mem_of_cut {letter : Char} {text front rest : List Char}
    (cuts : cut [letter] text = some (front, rest)) : letter ∉ front := by
  induction text generalizing front with
  | nil => exact nomatch cuts
  | cons c text ih =>
    by_cases same : letter = c
    · subst same
      have first : cut [letter] ([letter] ++ text) = some ([], text) := cut_append (by simp) text
      obtain ⟨rfl, -⟩ := Prod.mk.inj (Option.some.inj (cuts.symm.trans first))
      exact List.not_mem_nil
    · have other : ¬ [letter] <+: c :: text := by
        rintro ⟨others, starts⟩
        exact same (List.cons.inj starts).1
      rw [cut_cons other] at cuts
      obtain ⟨⟨before, after⟩, later, ends⟩ := Option.map_eq_some_iff.1 cuts
      obtain ⟨rfl, rfl⟩ := Prod.mk.inj ends
      exact List.not_mem_cons_of_ne_of_not_mem same (ih later)

/-- Where a text is cut at a doubled character, the character is not doubled before. -/
theorem single_of_cut {letter : Char} {text front rest : List Char}
    (cuts : cut [letter, letter] text = some (front, rest)) :
    ¬ [letter, letter] <:+: front ∧ front.getLast? ≠ some letter := by
  induction text generalizing front with
  | nil => exact nomatch cuts
  | cons c text ih =>
    by_cases here : [letter, letter] <+: c :: text
    · obtain ⟨others, starts⟩ := here
      have first : cut [letter, letter] ([letter, letter] ++ others) = some ([], others) :=
        cut_append (by simp) others
      rw [starts, cuts] at first
      obtain ⟨rfl, -⟩ := Prod.mk.inj (Option.some.inj first)
      exact ⟨by simp, nofun⟩
    · rw [cut_cons here] at cuts
      obtain ⟨⟨before, after⟩, later, same⟩ := Option.map_eq_some_iff.1 cuts
      obtain ⟨rfl, rfl⟩ := Prod.mk.inj same
      obtain ⟨free, apart⟩ := ih later
      have whole : c :: text = c :: before ++ letter :: letter :: after := by
        simp [eq_append_of_cut later]
      refine ⟨fun inside => ?_, fun last => ?_⟩
      · rcases List.infix_cons_iff.1 inside with ⟨others, starts⟩ | further
        · refine here ⟨others ++ letter :: letter :: after, ?_⟩
          rw [whole, ← starts, List.append_assoc]
        · exact free further
      · cases before with
        | nil =>
          have same : c = letter := Option.some.inj last
          exact here ⟨letter :: after, by rw [whole, same]; rfl⟩
        | cons next before => exact apart (by simpa using last)

/-- Cutting a text at the last such word loses only the word. -/
theorem eq_append_of_cutLast {word text before after : List Char}
    (cuts : cutLast word text = some (before, after)) : text = before ++ word ++ after := by
  induction text generalizing before with
  | nil =>
    obtain ⟨rest, read, same⟩ := Option.map_eq_some_iff.1 cuts
    obtain ⟨rfl, rfl⟩ := Prod.mk.inj same
    exact (List.append_eq_of_isPrefixOf?_eq_some read).symm
  | cons c text ih =>
    rw [cutLast] at cuts
    split at cuts
    · rename_i front rest later
      obtain ⟨rfl, rfl⟩ := Prod.mk.inj (Option.some.inj cuts)
      rw [ih later]
      rfl
    · obtain ⟨rest, read, same⟩ := Option.map_eq_some_iff.1 cuts
      obtain ⟨rfl, rfl⟩ := Prod.mk.inj same
      exact (List.append_eq_of_isPrefixOf?_eq_some read).symm

/-- A text without the first letter of a word is not cut at the last such word. -/
theorem cutLast_eq_none {letter : Char} {word text : List Char} (absent : letter ∉ text) :
    cutLast (letter :: word) text = none := by
  cases cuts : cutLast (letter :: word) text with
  | none => rfl
  | some found =>
    rw [eq_append_of_cutLast cuts] at absent
    exact absurd (by simp) absent

/-- A text that holds a word is cut at the last such word. -/
theorem exists_cutLast {word text : List Char} (inside : word <:+: text) :
    ∃ found, cutLast word text = some found := by
  induction text with
  | nil =>
    obtain rfl := List.eq_nil_of_infix_nil inside
    exact ⟨([], []), rfl⟩
  | cons c text ih =>
    rw [cutLast]
    split
    · exact ⟨_, rfl⟩
    · rename_i none
      rcases List.infix_cons_iff.1 inside with ⟨rest, same⟩ | later
      · rw [← same, List.isPrefixOf?_eq_some_iff_append_eq.2 rfl]
        exact ⟨_, rfl⟩
      · obtain ⟨found, cuts⟩ := ih later
        exact nomatch none.symm.trans cuts

/-- A word is not in a text without its first letter, and does not start there. -/
theorem infix_of_infix_append {letter : Char} {word left right : List Char}
    (absent : letter ∉ left) (inside : letter :: word <:+: left ++ right) :
    letter :: word <:+: right := by
  induction left with
  | nil => exact inside
  | cons first left ih =>
    obtain ⟨other, later⟩ := not_or.1 (mt List.mem_cons.2 absent)
    rcases List.infix_cons_iff.1 inside with ⟨rest, starts⟩ | further
    · exact absurd (List.cons.inj starts).1 other
    · exact ih later further

/-- A text is cut at a word after which the word does not occur again, where the first letter of
the word is not among its others. -/
theorem cutLast_eq_some_iff {letter : Char} {word text before after : List Char}
    (single : letter ∉ word) : cutLast (letter :: word) text = some (before, after) ↔
      text = before ++ letter :: (word ++ after) ∧ ¬ letter :: word <:+: after := by
  induction text generalizing before with
  | nil =>
    constructor
    · intro cuts
      cases cuts
    · rintro ⟨whole, -⟩
      simp at whole
  | cons c text ih =>
    rw [cutLast]
    constructor
    · intro cuts
      split at cuts
      · rename_i front rest later
        obtain ⟨rfl, rfl⟩ := Prod.mk.inj (Option.some.inj cuts)
        obtain ⟨rfl, free⟩ := ih.1 later
        exact ⟨rfl, free⟩
      · rename_i none
        obtain ⟨rest, read, same⟩ := Option.map_eq_some_iff.1 cuts
        obtain ⟨rfl, rfl⟩ := Prod.mk.inj same
        have whole := (List.append_eq_of_isPrefixOf?_eq_some read).symm
        refine ⟨whole, fun inside => ?_⟩
        obtain rfl := (List.cons.inj whole).2
        obtain ⟨found, cuts⟩ := exists_cutLast (inside.trans (List.suffix_append word rest).isInfix)
        cases none.symm.trans cuts
    · rintro ⟨whole, free⟩
      cases before with
      | nil =>
        obtain ⟨rfl, rfl⟩ := List.cons.inj whole
        have unread : cutLast (c :: word) (word ++ after) = none := by
          cases cuts : cutLast (c :: word) (word ++ after) with
          | none => rfl
          | some found =>
            refine absurd (infix_of_infix_append single ?_) free
            exact ⟨found.1, found.2, (eq_append_of_cutLast cuts).symm⟩
        have read : (c :: word).isPrefixOf? (c :: (word ++ after)) = some after :=
          List.isPrefixOf?_eq_some_iff_append_eq.2 rfl
        rw [unread, read]
        rfl
      | cons first before =>
        obtain ⟨rfl, rfl⟩ := List.cons.inj whole
        rw [ih.2 ⟨rfl, free⟩]

/-- A text is cut at a word after which the first letter of the word does not occur again. -/
theorem cutLast_append {letter : Char} {word after : List Char} (absent : letter ∉ word ++ after)
    (before : List Char) :
    cutLast (letter :: word) (before ++ letter :: (word ++ after)) = some (before, after) := by
  obtain ⟨single, free⟩ := not_or.1 (mt List.mem_append.2 absent)
  exact (cutLast_eq_some_iff single).2 ⟨rfl, fun inside => free (inside.subset List.mem_cons_self)⟩

end ComponentPages.Text
