import ComponentPages.Proofs.Markup.Rooted

/-!
# Restoring masked markup

Expressions that are put back in masked markup are masked again, in order. If no expression comes
about where a text meets one (`Restorable`), this brings back the masked markup up to the numbers of
its placeholders (`Restorable.told`), also when a placeholder was lost in between. Mask and edits
give such markup (`Told.restorable`, `Edits.restorable`), and other numbers leave the root of markup
as it is (`HasRoot.remask`).
-/
namespace ComponentPages.Markup

open Text

/-- Masked markup that stays told from expressions when the expressions are put back: no
placeholder is right behind a brace, and behind two braces there is neither a placeholder nor an
end mark. -/
structure Restorable (text : List Char) : Prop where
  apart : ∀ digit, isDecimalDigit digit = true → ¬ '{' :: (placeholderHead ++ [digit]) <:+: text
  unended : ∀ rest, '{' :: '{' :: rest <:+ text → ¬ ['}', '}'] <:+: rest ∧ Unmarked rest

/-- The pieces that stand for a placeholder with the given digits: the expression of that number, or
the placeholder itself if there is none. -/
def restoredPlaceholder (expressions : List (List Char)) (number : List Char) : List Piece :=
  match (natural? number).bind fun index => expressions[index]? with
  | some expression => [.inr expression]
  | none => plain (placeholderHead ++ number ++ placeholderTail)

/-- The pieces of masked markup with the expressions put back. -/
def restored (expressions : List (List Char)) (text : List Char) : List Piece :=
  (readPlaceholder.pieces text).flatMap
    (Sum.elim (fun c => [.inl c]) (restoredPlaceholder expressions))

section Restored

variable {expressions : List (List Char)} {text rest number after : List Char} {c : Char}

/-- What stands for a placeholder is written in its place. -/
theorem written_restoredPlaceholder (expressions : List (List Char)) (number : List Char) :
    written (restoredPlaceholder expressions number) = unmaskPlaceholder expressions number := by
  rw [restoredPlaceholder, unmaskPlaceholder]
  cases (natural? number).bind fun index => expressions[index]? with
  | none => exact written_plain _
  | some expression => exact List.append_nil expression

/-- Pieces with the expressions put back are written as the markup with them. -/
theorem written_restored (expressions : List (List Char)) (text : List Char) :
    written (restored expressions text) = unmask text expressions := by
  rw [restored, unmask, Reader.replace]
  induction readPlaceholder.pieces text with
  | nil => rfl
  | cons piece pieces ih =>
    rw [List.flatMap_cons, List.flatMap_cons, written_append, ih]
    cases piece with
    | inl c => rfl
    | inr number => exact congrArg (· ++ _) (written_restoredPlaceholder expressions number)

/-- Where no placeholder is read, a character is a piece. -/
theorem restored_cons (unread : readPlaceholder (c :: rest) = none) :
    restored expressions (c :: rest) = .inl c :: restored expressions rest := by
  rw [restored, Reader.pieces_cons unread]
  rfl

/-- A placeholder is the piece of its expression, or a text if it has none. -/
theorem restored_of_read (expressions : List (List Char))
    (read : readPlaceholder text = some (number, after)) :
    (∃ expression ∈ expressions,
      restored expressions text = .inr expression :: restored expressions after) ∨
    restored expressions text =
      plain (placeholderHead ++ number ++ placeholderTail) ++ restored expressions after := by
  have here : restored expressions text =
      restoredPlaceholder expressions number ++ restored expressions after := by
    rw [restored, Reader.pieces_of_read read (readPlaceholder_shorter read)]
    rfl
  rw [here, restoredPlaceholder]
  split
  · rename_i expression found
    obtain ⟨index, -, listed⟩ := Option.bind_eq_some_iff.1 found
    exact .inl ⟨expression, List.mem_of_getElem? listed, rfl⟩
  · exact .inr rfl

/-- Nothing is put back in a text without placeholders. -/
theorem unmask_of_unmarked (free : Unmarked text) : unmask text expressions = text := by
  have texts : Unmarked (textsOf (plain text)) := by rwa [textsOf_plain]
  have listed : expressions.drop expressions.length = expressionsOf (plain text) := by
    rw [List.drop_length, expressionsOf_plain]
  have put := unmask_maskPieces texts listed
  rwa [maskPieces_plain, written_plain] at put

/-- A part at the end of restorable markup is restorable. -/
theorem Restorable.later {front : List Char} (restorable : Restorable (front ++ text)) :
    Restorable text where
  apart digit decimal inside :=
    restorable.apart digit decimal (inside.trans (List.suffix_append front text).isInfix)
  unended rest suffix := restorable.unended rest (suffix.trans (List.suffix_append front text))

/-- No expression starts at a character when the expressions behind it are put back. -/
theorem Restorable.unread (restorable : Restorable (c :: rest)) :
    readExpression (c :: unmask rest expressions) = none := by
  refine readExpression_eq_none_iff.2 fun body same inside => ?_
  obtain ⟨rfl, put⟩ := List.cons.inj same
  cases rest with
  | nil =>
    rw [unmask, Reader.replace, Reader.pieces] at put
    cases put
  | cons next rest =>
    cases read : readPlaceholder (next :: rest) with
    | some found =>
      -- A placeholder is not right behind a brace.
      obtain ⟨whole, nonempty, decimal⟩ := readPlaceholder_eq_some read
      obtain ⟨digit, digits, same⟩ := List.exists_cons_of_ne_nil nonempty
      refine restorable.apart digit (decimal digit (same ▸ List.mem_cons_self)) ?_
      rw [whole, same]
      exact ⟨[], digits ++ (placeholderTail ++ found.2), by simp⟩
    | none =>
      rw [← written_restored, restored_cons read] at put
      obtain ⟨rfl, behind⟩ : next = '{' ∧ written (restored expressions rest) = body :=
        List.cons.inj put
      obtain ⟨unended, free⟩ := restorable.unended rest (List.suffix_refl _)
      rw [written_restored, unmask_of_unmarked free] at behind
      exact unended (behind ▸ inside)

/-- When expressions are put back in restorable markup, the pieces are told from each other. -/
theorem Restorable.told (restorable : Restorable text)
    (closed : ∀ expression ∈ expressions, IsExpression expression) :
    Told (restored expressions text) [] := by
  induction size : text.length using Nat.strongRecOn generalizing text with
  | ind size ih =>
    cases text with
    | nil =>
      rw [restored, Reader.pieces]
      trivial
    | cons c rest =>
      cases read : readPlaceholder (c :: rest) with
      | none =>
        have later : Restorable rest :=
          (show Restorable ([c] ++ rest) from restorable).later
        rw [restored_cons read]
        refine ⟨?_, ih rest.length (by simp [← size]) later rfl⟩
        rw [List.append_nil, written_restored]
        exact restorable.unread
      | some found =>
        obtain ⟨number, after⟩ := found
        obtain ⟨whole, -, decimal⟩ := readPlaceholder_eq_some read
        have shape : c :: rest = placeholderHead ++ number ++ placeholderTail ++ after := by
          rw [whole]
          simp
        have shorter := readPlaceholder_shorter read
        have behind : Told (restored expressions after) [] :=
          ih after.length (size ▸ shorter) (shape ▸ restorable).later rfl
        rcases restored_of_read expressions read with ⟨expression, listed, same⟩ | same
        · rw [same]
          exact ⟨closed expression listed, behind⟩
        · have braceless : '{' ∉ placeholderHead ++ number ++ placeholderTail := by
            have digits : '{' ∉ number := fun member => absurd (decimal _ member) (by decide)
            exact List.not_mem_append (List.not_mem_append (by decide) digits) (by decide)
          rw [same]
          exact told_append.2 ⟨told_plain braceless, behind⟩

end Restored

section Masked

variable {pieces : List Piece} {number : Nat} {rest : List Char}

/-- Masked markup is restorable. -/
theorem Told.restorable (told : Told pieces []) (free : Unmarked (textsOf pieces)) :
    Restorable (maskPieces number pieces) := by
  have brace : isPlaceholderChar '{' = false := by decide
  constructor
  · rintro digit decimal ⟨front, back, same⟩
    have masked : maskPieces number pieces =
        front ++ '{' :: (placeholderHead ++ digit :: back) := by
      rw [← same]
      simp
    obtain ⟨before, after, rfl, -, rest⟩ := split_of_maskPieces brace masked
    obtain ⟨unread, told⟩ := (told_append.1 told).2
    have texts : Unmarked (textsOf after) :=
      free.within ⟨textsOf before ++ ['{'], [], by simp [textsOf]⟩
    obtain ⟨expression, more, rfl⟩ := exists_expression texts rest decimal
    obtain ⟨inner, rfl, -⟩ := told.1
    refine readExpression_eq_none_iff.1 unread ('{' :: (inner ++ '}' :: '}' :: written more)) ?_
      ⟨'{' :: inner, written more, by simp⟩
    simp [written]
  · rintro rest ⟨front, same⟩
    obtain ⟨before, after, rfl, -, masked⟩ := split_of_maskPieces brace same.symm
    obtain ⟨behind, rfl, shown⟩ :=
      eq_plain_append_of_maskPieces (by decide : '_' ∉ ['{']) (show _ = ['{'] ++ rest from masked)
    obtain ⟨unread, told⟩ := (told_append.1 told).2
    have unended : ¬ ['}', '}'] <:+: written behind := by
      refine readExpression_eq_none_iff.1 unread (written behind) ?_
      rw [List.append_nil]
      rfl
    obtain ⟨text, rfl⟩ := (told_append.1 told).2.exists_plain unended
    rw [maskPieces_plain] at shown
    rw [written_plain] at unended
    have texts : Unmarked text := by
      refine free.within ⟨textsOf before ++ ['{', '{'], [], ?_⟩
      rw [textsOf_append]
      simp [textsOf, plain]
    exact shown ▸ ⟨unended, texts⟩

/-- A framed text takes the place of another one in restorable markup. -/
theorem Restorable.replace {left old new right : List Char}
    (restorable : Restorable (left ++ (old ++ right))) (framed : Framed new) :
    Restorable (left ++ (new ++ right)) := by
  obtain ⟨c, tail, rfl, separate⟩ := framed.front
  obtain ⟨brace, braces⟩ := not_or.1 (mt List.mem_cons.2 framed.brace)
  obtain ⟨closing, closings⟩ := not_or.1 (mt List.mem_cons.2 framed.closing)
  have behind : Restorable right := by
    rw [← List.append_assoc] at restorable
    exact restorable.later
  constructor
  · intro digit decimal inside
    have apart : c ∉ '{' :: (placeholderHead ++ [digit]) :=
      List.not_mem_cons_of_ne_of_not_mem (Ne.symm brace) (not_mem_of_separates separate decimal)
    rcases infix_append_cons apart inside with front | back
    · exact restorable.apart digit decimal
        (front.trans (List.prefix_append left (old ++ right)).isInfix)
    · exact behind.apart digit decimal (infix_of_infix_append braces back)
  · rintro rest ⟨front, same⟩
    rcases List.append_eq_append_iff.1 same with ⟨middle, rfl, ends⟩ | ⟨middle, rfl, ends⟩
    · rcases middle with _ | ⟨first, _ | ⟨second, middle⟩⟩
      · exact absurd (List.cons.inj ends).1 brace
      · exact absurd (List.cons.inj (List.cons.inj ends).2).1 brace
      · obtain ⟨rfl, next⟩ := List.cons.inj ends
        obtain ⟨rfl, rfl⟩ := List.cons.inj next
        obtain ⟨unended, free⟩ := restorable.unended (middle ++ (old ++ right)) ⟨front, by simp⟩
        have first : Unmarked middle := free.within (List.prefix_append _ _).isInfix
        have last : Unmarked right := by
          rw [← List.append_assoc] at free
          exact free.within (List.suffix_append _ _).isInfix
        refine ⟨fun inside => ?_, first.append separate ?_ last⟩
        · have apart : c ∉ ['}', '}'] := by simpa using Ne.symm closing
          rcases infix_append_cons apart inside with here | later
          · exact unended (here.trans (List.prefix_append _ _).isInfix)
          · refine unended ((infix_of_infix_append closings later).trans ?_)
            rw [← List.append_assoc]
            exact (List.suffix_append _ _).isInfix
        · exact (not_or.1 (mt List.mem_cons.2 framed.underscore)).2
    · obtain ⟨middle, rfl, rfl⟩ := append_of_append_eq_cons framed.brace ends
      exact behind.unended rest (List.suffix_append middle _)

/-- Edits leave texts restorable. -/
theorem Edits.restorable {edited : List Piece} (edits : Edits pieces edited)
    (restorable : Restorable (textsOf pieces)) : Restorable (textsOf edited) := by
  induction edits with
  | refl => exact restorable
  | tail _ edit ih =>
    obtain ⟨before, after, old, framed⟩ := edit
    rw [textsOf_append, textsOf_append, textsOf_plain, List.append_assoc] at ih ⊢
    exact ih.replace framed

end Masked

section Numbers

variable {kind : RootKind} {tag : Option String} {front old new back : List Char}

/-- The digits of a placeholder can be exchanged for others. -/
theorem exchange_digits (underscore : front.getLast? = some '_') (filledOld : old ≠ [])
    (filledNew : new ≠ []) (digitsOld : ∀ c ∈ old, isDecimalDigit c = true)
    (digitsNew : ∀ c ∈ new, isDecimalDigit c = true) (behind : back ≠ []) :
    Exchange front old new back := by
  have sealedFront : Sealed front := ⟨'_', underscore, by decide, by decide, by decide⟩
  have apart {text : List Char} (digits : ∀ c ∈ text, isDecimalDigit c = true) {signs : List Char}
      (others : ∀ c ∈ signs, isDecimalDigit c = false) : ∀ c ∈ text, c ∉ signs :=
    fun c member listed => nomatch (digits c member).symm.trans (others c listed)
  have others : ∀ c ∈ ['<', '>', '/'], isDecimalDigit c = false :=
    List.all_iff_forall_prop.1 (by decide)
  have signs : ∀ c ∈ ['"', '\'', '>'], isDecimalDigit c = false :=
    List.all_iff_forall_prop.1 (by decide)
  have passes {text : List Char} (digits : ∀ c ∈ text, isDecimalDigit c = true)
      {quote : Option Char} (isQuote : IsQuote quote) :
      quoteBehind quote (plain text) = some quote :=
    quoteBehind_of_forall isQuote fun c member => apart digits signs c (mem_plain.1 member)
  refine ⟨.inr (.inl sealedFront), .inr (.inl sealedFront), apart digitsOld others,
    apart digitsNew others, fun quote isQuote => ?_, fun none => absurd none filledOld, ?_, behind⟩
  · rw [passes digitsOld isQuote, passes digitsNew isQuote]
  · obtain ⟨c, rest, rfl⟩ := List.exists_cons_of_ne_nil filledNew
    refine ⟨c, List.mem_cons_self, Bool.eq_false_iff.2 fun blank => ?_⟩
    have digit := digitsNew c List.mem_cons_self
    exact nomatch digit.symm.trans (separates_iff.1 (separates_of_isBlank blank)).2

/-- Markup with a placeholder is trimmed on the two sides of its number. -/
theorem trim_placeholder (front number back : List Char) :
    trim (front ++ (placeholderHead ++ (number ++ (placeholderTail ++ back)))) =
      trimStart front ++ placeholderHead ++ (number ++ trimEnd (placeholderTail ++ back)) := by
  obtain ⟨head, same⟩ : ∃ head, placeholderHead = '_' :: head := ⟨_, rfl⟩
  have filled : ∃ c ∈ placeholderTail ++ back, isBlank c = false :=
    ⟨'_', List.mem_append_left back (by decide), by decide⟩
  have start := trimStart_append_cons (by decide : isBlank '_' = false) front
    (head ++ (number ++ (placeholderTail ++ back)))
  rw [← List.cons_append, ← same] at start
  rw [trim, start]
  have ends := trimEnd_append_of_exists filled (trimStart front ++ placeholderHead ++ number)
  simpa only [List.append_assoc] using ends

/-- Markup keeps the kind and the name of its root when a placeholder gets another number. -/
theorem HasRoot.renumber {number others : List Char} (filled : number ≠ []) (fill : others ≠ [])
    (decimal : ∀ c ∈ number, isDecimalDigit c = true)
    (decimals : ∀ c ∈ others, isDecimalDigit c = true)
    (hasRoot : HasRoot kind tag (trim (front ++ (placeholderHead ++ (number ++
      (placeholderTail ++ back)))))) :
    HasRoot kind tag (trim (front ++ (placeholderHead ++ (others ++
      (placeholderTail ++ back))))) := by
  rw [trim_placeholder] at hasRoot ⊢
  have some_letter : placeholderHead ≠ [] := by decide
  have underscore : (trimStart front ++ placeholderHead).getLast? = some '_' := by
    rw [List.getLast?_append_of_ne_nil _ some_letter]
    decide
  have behind : trimEnd (placeholderTail ++ back) ≠ [] := by
    have trims := trimEnd_append_cons (by decide : isBlank '_' = false) [] ('_' :: back)
    rw [show placeholderTail ++ back = [] ++ '_' :: '_' :: back from rfl, trims]
    exact List.cons_ne_nil _ _
  have exchange := exchange_digits underscore filled fill decimal decimals behind
  exact hasRoot.exchange exchange (by simp [some_letter]) fun _ => underscore

/-- Markup keeps the kind and the name of its root when its expressions are put back and masked
again. -/
theorem HasRoot.remask {expressions : List (List Char)} {text : List Char} (number : Nat)
    (hasRoot : HasRoot kind tag (trim (front ++ text))) :
    HasRoot kind tag (trim (front ++ maskPieces number (restored expressions text))) := by
  induction size : text.length using Nat.strongRecOn generalizing front number text with
  | ind size ih =>
    cases text with
    | nil => rwa [restored, Reader.pieces]
    | cons c rest =>
      cases read : readPlaceholder (c :: rest) with
      | none =>
        rw [List.append_cons] at hasRoot
        rw [restored_cons read, maskPieces, List.append_cons]
        exact ih rest.length (by simp [← size]) number hasRoot rfl
      | some found =>
        obtain ⟨digits, after⟩ := found
        obtain ⟨whole, filled, decimal⟩ := readPlaceholder_eq_some read
        have shorter := readPlaceholder_shorter read
        rw [whole] at hasRoot
        rcases restored_of_read expressions read with ⟨expression, -, same⟩ | same
        · have written : ∀ c ∈ Text.digits number, isDecimalDigit c = true := fun c member =>
            isDecimalDigit_of_isDigit (Nat.isDigit_of_mem_toDigits (by decide) (by decide) member)
          have next := hasRoot.renumber filled Nat.toDigits_ne_nil decimal written
          have shape : front ++ (placeholderHead ++ (Text.digits number ++
              (placeholderTail ++ after))) = front ++ placeholder number ++ after := by
            simp [placeholder]
          rw [same, maskPieces, ← List.append_assoc]
          exact ih after.length (size ▸ shorter) (number + 1) (shape ▸ next) rfl
        · have shape : front ++ (placeholderHead ++ (digits ++ (placeholderTail ++ after))) =
              front ++ (placeholderHead ++ digits ++ placeholderTail) ++ after := by simp
          rw [same, maskPieces_append, maskPieces_plain, expressionsOf_plain, ← List.append_assoc]
          exact ih after.length (size ▸ shorter) number (shape ▸ hasRoot) rfl

end Numbers

end ComponentPages.Markup
