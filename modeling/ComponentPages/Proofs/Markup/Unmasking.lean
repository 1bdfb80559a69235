import ComponentPages.Proofs.Markup.Masking
import Mathlib

/-!
# Markup brought back from its mask

Masked markup has no expression (`mask_expressionless`), and putting the expressions back restores
the markup just where it is `Faithful`: where each text that looks like a placeholder is a whole
one, of a number that no expression has (`unmask_mask`). What looks like a placeholder is read from
left to right, and may take its last underscores from the placeholder of an expression behind it.
Markup without the reserved text is faithful.
-/
namespace ComponentPages.Markup

open Text

/-- A text of digits is the number of none of so many expressions. -/
def RefersToNone (count : Nat) (number : List Char) : Prop :=
  ∀ index, natural? number = some index → count ≤ index

/-- Pieces start with a text that looks like a placeholder, or like the start of one that the
placeholder of an expression completes. -/
def StartsLookalike (pieces : List Piece) : Prop :=
  ∃ number tail behind, pieces = plain (placeholderHead ++ number ++ tail) ++ behind ∧
    number ≠ [] ∧ (∀ c ∈ number, isDecimalDigit c = true) ∧
      (tail = placeholderTail ∨
        (tail = [] ∨ tail = ['_']) ∧ ∃ expression after, behind = .inr expression :: after)

/-- Pieces of which each text that looks like a placeholder is a whole one of a number that none of
so many expressions has. -/
inductive Faithful (count : Nat) : List Piece → Prop
  | nil : Faithful count []
  | expression {pieces : List Piece} (text : List Char) (later : Faithful count pieces) :
    Faithful count (.inr text :: pieces)
  | character {pieces : List Piece} (c : Char) (other : ¬ StartsLookalike (.inl c :: pieces))
    (later : Faithful count pieces) : Faithful count (.inl c :: pieces)
  | lookalike {pieces : List Piece} (number : List Char) (some_digit : number ≠ [])
    (decimal : ∀ c ∈ number, isDecimalDigit c = true) (free : RefersToNone count number)
    (later : Faithful count pieces) :
    Faithful count (plain (placeholderHead ++ number ++ placeholderTail) ++ pieces)

section Reading

variable {pieces behind : List Piece} {first : Nat} {number tail rest : List Char}

/-- The reserved text and the tail of a placeholder start with underscores. -/
theorem placeholder_eq : placeholderHead = '_' :: '_' :: "SCOPED_EXPR_".toList ∧
    placeholderTail = ['_', '_'] := by
  constructor <;> decide

/-- What is read as a placeholder is the reserved text, digits and two underscores. -/
theorem readPlaceholder_append (some_digit : number ≠ [])
    (decimal : ∀ c ∈ number, isDecimalDigit c = true) (rest : List Char) :
    readPlaceholder (placeholderHead ++ (number ++ '_' :: '_' :: rest)) = some (number, rest) := by
  have cuts : cutFront isDecimalDigit (number ++ '_' :: '_' :: rest) =
      (number, '_' :: '_' :: rest) :=
    cutFront_append decimal (by simp [show isDecimalDigit '_' = false by decide])
  rw [readPlaceholder, List.isPrefixOf?_eq_some_iff_append_eq.2 rfl, Option.bind_some]
  unfold readNumberTail
  rw [cuts]
  split
  · rename_i none
    exact absurd (Prod.mk.inj none).1 some_digit
  · rename_i same
    obtain ⟨rfl, rfl⟩ := Prod.mk.inj same
    rw [placeholder_eq.2]
    rfl

/-- A text of the reserved text and digits is read as a placeholder in masked markup where two
underscores follow there. -/
theorem readPlaceholder_maskPieces (some_digit : number ≠ [])
    (decimal : ∀ c ∈ number, isDecimalDigit c = true)
    (closed : tail ++ maskPieces first behind = '_' :: '_' :: rest) :
    readPlaceholder (maskPieces first (plain (placeholderHead ++ number ++ tail) ++ behind)) =
      some (number, rest) := by
  have masked : maskPieces first (plain (placeholderHead ++ number ++ tail) ++ behind) =
      placeholderHead ++ (number ++ '_' :: '_' :: rest) := by
    rw [maskPieces_append, maskPieces_plain, expressionsOf_plain, ← closed]
    simp
  rw [masked, readPlaceholder_append some_digit decimal]

/-- The placeholder of an expression completes a tail that lacks underscores. -/
theorem exists_closed (first : Nat) (ends : tail = placeholderTail ∨
    (tail = [] ∨ tail = ['_']) ∧ ∃ expression after, behind = .inr expression :: after) :
    ∃ rest, tail ++ maskPieces first behind = '_' :: '_' :: rest := by
  rcases ends with rfl | ⟨rfl | rfl, expression, after, rfl⟩
  · exact ⟨_, by rw [placeholder_eq.2]; rfl⟩
  · exact ⟨_, by rw [maskPieces, placeholder, placeholder_eq.1]; rfl⟩
  · exact ⟨_, by rw [maskPieces, placeholder, placeholder_eq.1]; rfl⟩

/-- What looks like a placeholder is read as one in masked markup. -/
theorem StartsLookalike.exists_read (starts : StartsLookalike pieces) (first : Nat) :
    ∃ found, readPlaceholder (maskPieces first pieces) = some found := by
  obtain ⟨number, tail, behind, rfl, some_digit, decimal, ends⟩ := starts
  obtain ⟨rest, closed⟩ := exists_closed first ends
  exact ⟨_, readPlaceholder_maskPieces some_digit decimal closed⟩

/-- Where a placeholder is read at a text of masked markup, the text looks like one. -/
theorem exists_of_readPlaceholder {c : Char}
    (read : readPlaceholder (maskPieces first (.inl c :: pieces)) = some (number, rest)) :
    ∃ tail behind, .inl c :: pieces = plain (placeholderHead ++ number ++ tail) ++ behind ∧
      number ≠ [] ∧ (∀ c ∈ number, isDecimalDigit c = true) ∧
        (tail = placeholderTail ∧ rest = maskPieces first behind ∨
          (tail = [] ∨ tail = ['_']) ∧ ∃ expression after, behind = .inr expression :: after) := by
  obtain ⟨masked, some_digit, decimal⟩ := readPlaceholder_eq_some read
  obtain ⟨digit, more, rfl⟩ := List.exists_cons_of_ne_nil some_digit
  obtain ⟨here, others⟩ := List.forall_mem_cons.1 decimal
  have found : afterFolded reserved (maskPieces first (.inl c :: pieces)) =
      some (digit :: (more ++ (placeholderTail ++ rest))) := by
    rw [masked, afterFolded_placeholderHead]
    rfl
  rcases cases_of_afterFolded found here with ⟨expression, after, starts⟩ |
    ⟨front, behind, starts, -, ends⟩
  · cases starts
  rw [starts, maskPieces_append, maskPieces_plain, expressionsOf_plain] at masked
  -- The text is the reserved text itself, since what follows it is the same.
  have whole : front ++ digit :: maskPieces first behind =
      placeholderHead ++ digit :: (more ++ (placeholderTail ++ rest)) := masked
  rw [← ends] at whole
  obtain rfl := List.append_cancel_right whole
  have free : '_' ∉ more := fun member => absurd (others _ member) (by decide)
  obtain ⟨later, rfl, closes⟩ := eq_plain_append_of_maskPieces free ends.symm
  have shown (tail : List Char) (behind : List Piece) (same : later = plain tail ++ behind) :
      .inl c :: pieces = plain (placeholderHead ++ (digit :: more) ++ tail) ++ behind := by
    rw [starts, same]
    simp [plain]
  have tail : placeholderTail = ['_', '_'] := placeholder_eq.2
  rw [tail] at closes ⊢
  cases later with
  | nil => cases closes
  | cons piece later =>
    cases piece with
    | inr expression =>
      exact ⟨[], _, shown [] _ rfl, some_digit, decimal, .inr ⟨.inl rfl, expression, later, rfl⟩⟩
    | inl letter =>
      obtain ⟨rfl, closed⟩ := List.cons.inj closes
      cases later with
      | nil => cases closed
      | cons piece later =>
        cases piece with
        | inr expression =>
          exact ⟨['_'], _, shown ['_'] _ rfl, some_digit, decimal,
            .inr ⟨.inr rfl, expression, later, rfl⟩⟩
        | inl last =>
          obtain ⟨rfl, rfl⟩ := List.cons.inj closed
          exact ⟨['_', '_'], later, shown ['_', '_'] _ rfl, some_digit, decimal, .inl ⟨rfl, rfl⟩⟩

end Reading

section Faithful

variable {count : Nat} {pieces behind : List Piece} {number tail : List Char}

/-- A whole placeholder is read as it is written, with its digits. -/
theorem read_lookalike (some_digit : number ≠ []) (decimal : ∀ c ∈ number, isDecimalDigit c = true)
    (first : Nat) (behind : List Piece) : readPlaceholder (maskPieces first
      (plain (placeholderHead ++ number ++ placeholderTail) ++ behind)) =
        some (number, maskPieces first behind) :=
  readPlaceholder_maskPieces some_digit decimal (by rw [placeholder_eq.2]; rfl)

/-- A whole placeholder is a text that looks like one. -/
theorem startsLookalike_plain (some_digit : number ≠ [])
    (decimal : ∀ c ∈ number, isDecimalDigit c = true) :
    StartsLookalike (plain (placeholderHead ++ number ++ placeholderTail) ++ behind) :=
  ⟨number, placeholderTail, behind, rfl, some_digit, decimal, .inl rfl⟩

/-- Where a text looks like a placeholder, faithful pieces have a whole one of a number that no
expression has. -/
theorem Faithful.exists_number (faithful : Faithful count pieces) (starts : StartsLookalike pieces) :
    ∃ number behind, pieces = plain (placeholderHead ++ number ++ placeholderTail) ++ behind ∧
      number ≠ [] ∧ (∀ c ∈ number, isDecimalDigit c = true) ∧ RefersToNone count number ∧
        Faithful count behind := by
  cases faithful with
  | nil =>
    obtain ⟨number, tail, behind, same, -⟩ := starts
    simp [plain, placeholder_eq.1] at same
  | expression text later =>
    obtain ⟨number, tail, behind, same, -⟩ := starts
    simp [plain, placeholder_eq.1] at same
  | character c other later => exact absurd starts other
  | @lookalike pieces number some_digit decimal free later =>
    exact ⟨number, pieces, rfl, some_digit, decimal, free, later⟩

/-- A character at which no text looks like a placeholder does not matter. -/
theorem faithful_cons {c : Char} (other : ¬ StartsLookalike (.inl c :: pieces)) :
    Faithful count (.inl c :: pieces) ↔ Faithful count pieces := by
  refine ⟨fun faithful => ?_, .character c other⟩
  generalize same : Sum.inl c :: pieces = whole at faithful
  cases faithful with
  | nil => cases same
  | expression text later => cases same
  | character letter apart later =>
    obtain ⟨-, rfl⟩ := List.cons.inj same
    exact later
  | @lookalike rest number some_digit decimal free later =>
    exact absurd (same ▸ startsLookalike_plain some_digit decimal) other

/-- An expression does not matter. -/
theorem faithful_expression {text : List Char} :
    Faithful count (.inr text :: pieces) ↔ Faithful count pieces := by
  refine ⟨fun faithful => ?_, .expression text⟩
  generalize same : Sum.inr text :: pieces = whole at faithful
  cases faithful with
  | nil => cases same
  | expression other later =>
    obtain ⟨-, rfl⟩ := List.cons.inj same
    exact later
  | character letter apart later => cases same
  | lookalike number some_digit decimal free later => simp [plain, placeholder_eq.1] at same

/-- A whole placeholder is faithful if no expression has its number. -/
theorem faithful_lookalike (some_digit : number ≠ [])
    (decimal : ∀ c ∈ number, isDecimalDigit c = true) :
    Faithful count (plain (placeholderHead ++ number ++ placeholderTail) ++ behind) ↔
      RefersToNone count number ∧ Faithful count behind := by
  refine ⟨fun faithful => ?_, fun ⟨free, later⟩ => .lookalike number some_digit decimal free later⟩
  obtain ⟨other, rest, same, some_other, decimals, free, later⟩ :=
    faithful.exists_number (startsLookalike_plain some_digit decimal)
  have read := read_lookalike some_other decimals 0 rest
  rw [← same, read_lookalike some_digit decimal] at read
  obtain ⟨rfl, -⟩ := Prod.mk.inj (Option.some.inj read)
  obtain rfl := List.append_cancel_left same
  exact ⟨free, later⟩

/-- What the placeholder of an expression completes is not faithful. -/
theorem not_faithful_unfinished {text : List Char} (some_digit : number ≠ [])
    (decimal : ∀ c ∈ number, isDecimalDigit c = true) (short : tail = [] ∨ tail = ['_']) :
    ¬ Faithful count (plain (placeholderHead ++ number ++ tail) ++ .inr text :: behind) := by
  intro faithful
  have ends : tail = placeholderTail ∨ (tail = [] ∨ tail = ['_']) ∧
      ∃ expression after, (.inr text :: behind : List Piece) = .inr expression :: after :=
    .inr ⟨short, text, behind, rfl⟩
  obtain ⟨rest, closed⟩ := exists_closed 0 ends
  obtain ⟨other, more, same, some_other, decimals, -⟩ :=
    faithful.exists_number ⟨number, tail, _, rfl, some_digit, decimal, ends⟩
  have read := readPlaceholder_maskPieces some_digit decimal closed
  rw [same, read_lookalike some_other decimals] at read
  obtain ⟨rfl, -⟩ := Prod.mk.inj (Option.some.inj read)
  rw [placeholder_eq.2] at same
  rcases short with rfl | rfl
  · simp [plain] at same
  · simp [plain] at same

end Faithful

section Unmasking

variable {expressions : List (List Char)} {pieces : List Piece} {first : Nat}
  {text number rest : List Char} {c : Char}

/-- A character at which no placeholder is read stays. -/
theorem unmask_cons (unread : readPlaceholder (c :: text) = none) :
    unmask (c :: text) expressions = c :: unmask text expressions := by
  rw [unmask, Reader.replace, Reader.pieces_cons unread]
  rfl

/-- A placeholder that is read is replaced. -/
theorem unmask_of_read (read : readPlaceholder text = some (number, rest)) :
    unmask text expressions = unmaskPlaceholder expressions number ++ unmask rest expressions := by
  rw [unmask, Reader.replace, Reader.pieces_of_read read (readPlaceholder_shorter read)]
  rfl

/-- A placeholder of a number that no expression has stays. -/
theorem unmaskPlaceholder_of_none (free : RefersToNone expressions.length number) :
    unmaskPlaceholder expressions number = placeholderHead ++ number ++ placeholderTail := by
  have absent : ((natural? number).bind fun index => expressions[index]?) = none := by
    cases read : natural? number with
    | none => rfl
    | some index => exact List.getElem?_eq_none (free index read)
  rw [unmaskPlaceholder, absent, Option.getD_none]

/-- A placeholder of the number of an expression becomes the expression. -/
theorem exists_unmaskPlaceholder (refers : ¬ RefersToNone expressions.length number) :
    ∃ expression ∈ expressions, unmaskPlaceholder expressions number = expression := by
  obtain ⟨index, read, short⟩ : ∃ index, natural? number = some index ∧
      index < expressions.length := by
    simpa [RefersToNone] using refers
  refine ⟨expressions[index], List.getElem_mem short, ?_⟩
  rw [unmaskPlaceholder, read, Option.bind_some, List.getElem?_eq_getElem short, Option.getD_some]

/-- A text that looks like a placeholder is lost if an expression has its number. -/
theorem unmaskPlaceholder_append_ne
    (isExpression : ∀ expression ∈ expressions, IsExpression expression)
    (refers : ¬ RefersToNone expressions.length number) (more : List Char) :
    unmaskPlaceholder expressions number ++ text ≠ placeholderHead ++ more := by
  obtain ⟨expression, listed, put⟩ := exists_unmaskPlaceholder refers
  obtain ⟨inner, rfl, -⟩ := isExpression expression listed
  rw [put, placeholder_eq.1]
  intro same
  exact absurd (List.cons.inj same).1 (by decide)

/-- An expression whose placeholder completes a text that looks like one is lost. -/
theorem unmaskPlaceholder_append_ne_of_short {tail expression : List Char}
    (isExpression : ∀ expression ∈ expressions, IsExpression expression)
    (short : tail = [] ∨ tail = ['_']) (next : IsExpression expression) (more : List Char) :
    unmaskPlaceholder expressions number ++ text ≠
      placeholderHead ++ number ++ tail ++ (expression ++ more) := by
  intro same
  by_cases free : RefersToNone expressions.length number
  · obtain ⟨inner, rfl, -⟩ := next
    rw [unmaskPlaceholder_of_none free, placeholder_eq.2] at same
    rcases short with rfl | rfl
    · simp at same
    · simp at same
  · rw [List.append_assoc, List.append_assoc] at same
    exact unmaskPlaceholder_append_ne isExpression free _ same

/-- Putting the expressions back gives the markup just where its pieces are faithful. -/
theorem unmask_eq_written_iff (isExpression : ∀ expression ∈ expressions, IsExpression expression)
    (listed : expressions.drop first = expressionsOf pieces) :
    unmask (maskPieces first pieces) expressions = written pieces ↔
      Faithful expressions.length pieces := by
  induction size : pieces.length using Nat.strong_induction_on generalizing pieces first with
  | _ size ih =>
    subst size
    cases pieces with
    | nil =>
      refine ⟨fun _ => .nil, fun _ => ?_⟩
      rw [maskPieces, unmask, Reader.replace, Reader.pieces]
      rfl
    | cons piece pieces =>
      cases piece with
      | inr expression =>
        have later : expressions.drop (first + 1) = expressionsOf pieces := by
          rw [← List.tail_drop, listed]
          rfl
        have read := readPlaceholder_placeholder first (maskPieces (first + 1) pieces)
        rw [faithful_expression, ← ih pieces.length (Nat.lt_succ_self _) later rfl, maskPieces,
          unmask_of_read read, unmaskPlaceholder_digits listed]
        exact List.append_right_inj expression
      | inl c =>
        cases read : readPlaceholder (maskPieces first (.inl c :: pieces)) with
        | none =>
          have other : ¬ StartsLookalike (.inl c :: pieces) := by
            intro starts
            obtain ⟨found, reads⟩ := starts.exists_read first
            cases read.symm.trans reads
          have later : expressions.drop first = expressionsOf pieces := listed
          rw [faithful_cons other, ← ih pieces.length (Nat.lt_succ_self _) later rfl, maskPieces,
            unmask_cons read]
          exact List.cons_inj_right c
        | some found =>
          obtain ⟨number, rest⟩ := found
          obtain ⟨tail, behind, starts, some_digit, decimal, ends⟩ := exists_of_readPlaceholder read
          rw [unmask_of_read read, starts, written_append, written_plain]
          have within : expressionsOf (.inl c :: pieces) = expressionsOf behind := by
            rw [starts, expressionsOf_append, expressionsOf_plain, List.nil_append]
          rw [within] at listed
          rcases ends with ⟨rfl, rfl⟩ | ⟨short, expression, after, rfl⟩
          · -- The whole placeholder stays if it has the number of no expression.
            rw [faithful_lookalike some_digit decimal]
            by_cases free : RefersToNone expressions.length number
            · have shorter : behind.length < (.inl c :: pieces : List Piece).length := by
                rw [starts, placeholder_eq.1]
                simp only [plain, List.length_append, List.length_map, List.length_cons]
                omega
              rw [unmaskPlaceholder_of_none free, and_iff_right free,
                ← ih behind.length shorter listed rfl]
              exact List.append_right_inj _
            · refine iff_of_false ?_ (fun faithful => free faithful.1)
              rw [List.append_assoc placeholderHead, List.append_assoc]
              exact unmaskPlaceholder_append_ne isExpression free _
          · -- The placeholder of the expression is broken up, and the expression lost.
            refine iff_of_false ?_ (not_faithful_unfinished some_digit decimal short)
            have next : expression ∈ expressions := by
              have member : expression ∈ expressions.drop first := listed ▸ List.mem_cons_self
              exact List.drop_subset first expressions member
            exact unmaskPlaceholder_append_ne_of_short isExpression short (isExpression _ next) _

end Unmasking

/-- Masked markup has no expression. -/
theorem mask_expressionless (markup inner : List Char) :
    ¬ '{' :: '{' :: (inner ++ ['}', '}']) <:+: mask markup := by
  rintro ⟨left, right, masked⟩
  have brace : isPlaceholderChar '{' = false ∧ isPlaceholderChar '}' = false := by decide
  have whole : maskPieces 0 (readExpression.pieces markup) =
      left ++ '{' :: '{' :: (inner ++ '}' :: '}' :: right) := by
    rw [← mask, ← masked]
    simp
  -- The four braces are characters of the markup, which is then told to have an expression there.
  obtain ⟨before, opened, split, -, opens⟩ := split_of_maskPieces brace.1 whole
  obtain ⟨body, rfl, inside⟩ := eq_plain_append_of_maskPieces (show '_' ∉ ['{'] by decide) opens
  obtain ⟨between, closed, rfl, -, closes⟩ := split_of_maskPieces brace.2 inside
  obtain ⟨after, rfl, -⟩ := eq_plain_append_of_maskPieces (show '_' ∉ ['}'] by decide) closes
  have told := told_pieces markup
  rw [split, told_append] at told
  refine readExpression_eq_none_iff.1 told.2.1
    (written (between ++ .inl '}' :: (plain ['}'] ++ after)) ++ []) rfl
    ⟨written between, written after, ?_⟩
  rw [List.append_nil, written_append, List.append_assoc]
  rfl

/-- Putting the expressions back restores markup just where each of its texts that looks like a
placeholder is a whole one, of a number that no expression has; no text starts like one in markup
without the reserved text and a digit. Masked markup has no expression. -/
theorem unmask_mask (markup : List Char) :
    (unmask (mask markup) (expressions markup) = markup ↔
        Faithful (expressions markup).length (readExpression.pieces markup)) ∧
      (Unmarked (textsOf (readExpression.pieces markup)) →
        unmask (mask markup) (expressions markup) = markup) ∧
      ∀ inner, ¬ '{' :: '{' :: (inner ++ ['}', '}']) <:+: mask markup := by
  have listed : (expressions markup).drop 0 = expressionsOf (readExpression.pieces markup) :=
    expressions_eq markup
  have isExpression : ∀ expression ∈ expressions markup, IsExpression expression := by
    intro expression member
    rw [expressions_eq] at member
    exact (told_pieces markup).isExpression member
  refine ⟨?_, fun free => ?_, mask_expressionless markup⟩
  · have restores := unmask_eq_written_iff isExpression listed
    rwa [written_pieces] at restores
  · have restored := unmask_maskPieces free listed
    rwa [written_pieces] at restored

/-- A placeholder of a number that no expression has stays a text. -/
example : unmask (mask "__SCOPED_EXPR_7__\x7b\x7ba\x7d\x7d".toList) [['a']] =
    "__SCOPED_EXPR_7__a".toList := by decide +kernel

/-- A text of markup that reads like the placeholder of its expression becomes the expression. -/
theorem unmask_mask_reserved :
    unmask (mask "<b title=\"__SCOPED_EXPR_0__\" id=\x7b\x7ba\x7d\x7d>x</b>".toList)
        (expressions "<b title=\"__SCOPED_EXPR_0__\" id=\x7b\x7ba\x7d\x7d>x</b>".toList) =
      "<b title=\"\x7b\x7ba\x7d\x7d\" id=\x7b\x7ba\x7d\x7d>x</b>".toList ∧
    "<b title=\"\x7b\x7ba\x7d\x7d\" id=\x7b\x7ba\x7d\x7d>x</b>".toList ≠
      "<b title=\"__SCOPED_EXPR_0__\" id=\x7b\x7ba\x7d\x7d>x</b>".toList := by
  constructor
  · decide +kernel
  · decide

end ComponentPages.Markup
