import ComponentPages.Proofs.Style.Balance
import Mathlib

/-!
# Style sheets one after the other

A sheet that ends outside of comments and blocks is put in a scope independently of what follows
it. Comments go from both sheets alone, since no comment starts across their seam
(`withoutComments_append`). The parts of the first sheet then end at its own braces
(`scopeParts_append`): in a text without open blocks every body is closed in the text.
-/
namespace ComponentPages.Style

open Text Markup

/-- How many blocks are open after a text that is read with some open. A closing brace closes a
block if any is open. -/
def depthOf (depth : Nat) (text : List Char) : Nat :=
  text.foldl (fun depth c => if c = '{' then depth + 1 else if c = '}' then depth - 1 else depth)
    depth

/-- A text in which every comment that is opened is closed. -/
inductive CommentsClosed : List Char → Prop where
  | nil : CommentsClosed []
  | comment {text inner rest : List Char} (cuts : cut ['*', '/'] text = some (inner, rest))
    (closed : CommentsClosed rest) : CommentsClosed ('/' :: '*' :: text)
  | char {c : Char} {rest : List Char} (plain : ¬ ['/', '*'] <+: c :: rest)
    (closed : CommentsClosed rest) : CommentsClosed (c :: rest)

/-- A sheet that ends with a closing brace and with all its blocks closed, or is empty. -/
def EndsClosed (css : List Char) : Prop :=
  css = [] ∨ css.getLast? = some '}' ∧ depthOf 0 css = 0

section Comments

/-- A comment is left out. -/
theorem withoutComments_comment {text inner rest : List Char}
    (cuts : cut ['*', '/'] text = some (inner, rest)) :
    withoutComments ('/' :: '*' :: text) = withoutComments rest := by
  have read : readComment ('/' :: '*' :: text) = some ((), rest) := by
    rw [readComment, cuts]
    rfl
  have shorter : rest.length < ('/' :: '*' :: text).length := by
    rw [eq_append_of_cut cuts]
    simp only [List.length_cons, List.length_append]
    omega
  rw [withoutComments, Reader.replace, Reader.pieces_of_read read shorter]
  rfl

/-- Comments go from sheets one after the other as from each alone, if those of the first are
closed and no comment starts with its last character. -/
theorem withoutComments_append {css : List Char} (closed : CommentsClosed css)
    (ends : (withoutComments css).getLast? ≠ some '/') (others : List Char) :
    withoutComments (css ++ others) = withoutComments css ++ withoutComments others := by
  induction closed with
  | nil => rw [withoutComments_nil, List.nil_append, List.nil_append]
  | comment cuts _ ih =>
    rw [withoutComments_comment cuts] at ends ⊢
    rw [List.cons_append, List.cons_append,
      withoutComments_comment (cut_append_right (by simp) cuts others), ih ends]
  | @char c rest plain closed ih =>
    rw [withoutComments_cons plain] at ends ⊢
    have stays : ¬ ['/', '*'] <+: c :: (rest ++ others) := by
      rintro ⟨more, same⟩
      obtain ⟨rfl, next⟩ := List.cons.inj same
      cases rest with
      | nil => exact ends (by rw [withoutComments_nil]; rfl)
      | cons d rest =>
        obtain ⟨rfl, -⟩ := List.cons.inj next
        exact plain ⟨rest, rfl⟩
    have later : (withoutComments rest).getLast? ≠ some '/' := by
      intro last
      exact ends (by rw [List.getLast?_cons, last]; rfl)
    rw [List.cons_append, withoutComments_cons stays, ih later, List.cons_append]

end Comments

section Parts

variable {text : List Char} {reached : Nat}

/-- The blocks that are open after a text are those in which the next text is read. -/
theorem depthOf_append (depth : Nat) (text others : List Char) :
    depthOf depth (text ++ others) = depthOf (depthOf depth text) others :=
  List.foldl_append

/-- A text that closes only open blocks leaves those open that it does not close. -/
theorem depthOf_of_depthAfter {depth : Nat} (reaches : depthAfter depth text = some reached) :
    depthOf depth text = reached := by
  fun_induction depthAfter depth text with
  | case1 depth => exact Option.some.inj reaches
  | case2 depth rest ih => rw [← ih reaches, depthOf, List.foldl_cons, if_pos rfl, ← depthOf]
  | case3 rest other => cases reaches
  | case4 depth rest filled other ih =>
    rw [← ih reaches, depthOf, List.foldl_cons, if_neg other, if_pos rfl, ← depthOf]
  | case5 depth c rest noOpening noClosing ih =>
    rw [← ih reaches, depthOf, List.foldl_cons, if_neg noOpening, if_neg noClosing, ← depthOf]

/-- What follows a closing brace outside of all blocks, in a sheet that ends closed, ends closed. -/
theorem EndsClosed.rest {front rest : List Char} (ends : EndsClosed (front ++ '}' :: rest))
    (outside : depthOf 0 (front ++ ['}']) = 0) : EndsClosed rest := by
  rcases ends with none | ⟨last, closed⟩
  · exact absurd none (by simp)
  · rw [List.append_cons] at last closed
    rw [depthOf_append, outside] at closed
    by_cases filled : rest = []
    · exact .inl filled
    · rw [List.getLast?_append_of_ne_nil _ filled] at last
      exact .inr ⟨last, closed⟩

/-- The parts of sheets one after the other are those of each, if the first ends closed. -/
theorem scopeParts_append (scope : List Char) (root : Root) {css : List Char}
    (ends : EndsClosed css) (others : List Char) :
    scopeParts scope root (css ++ others) =
      scopeParts scope root css ++ scopeParts scope root others := by
  induction css using sheetInduction with
  | ends text plain =>
    rcases ends with rfl | ⟨last, -⟩
    · rw [scopeParts_text (lacks_nil _)]
      rfl
    · exact absurd (List.mem_of_getLast? last) fun member => plain _ member (by decide)
  | stray text rest plain ih =>
    have outside : depthOf 0 (text ++ ['}']) = 0 := by
      rw [depthOf_append, depthOf_of_depthAfter (depthAfter_of_lacks plain 0)]
      rfl
    rw [List.append_assoc, List.cons_append, scopeParts_stray plain, scopeParts_stray plain,
      ih (ends.rest outside), List.append_assoc]
  | block text body rest plain closed inner outer =>
    have outside : depthOf 0 (text ++ '{' :: body ++ ['}']) = 0 := by
      refine depthOf_of_depthAfter ?_
      rw [List.append_assoc, depthAfter_append, depthAfter_of_lacks plain]
      exact (depthAfter_writeRule (lacks_nil _) closed)
    have later : EndsClosed rest := by
      rw [← List.cons_append, ← List.append_assoc] at ends
      exact ends.rest outside
    have balanced := balanced_of_depthAfter closed
    rw [List.append_assoc, List.cons_append, List.append_assoc, List.cons_append,
      scopeParts_rule plain balanced rfl, scopeParts_rule plain balanced rfl, outer later,
      List.append_assoc, List.cons_append]
  | unclosed text body reached plain leaves inner =>
    have inside : depthOf 0 (text ++ '{' :: body) = reached + 1 := by
      refine depthOf_of_depthAfter ?_
      rw [depthAfter_append, depthAfter_of_lacks plain, Option.bind_some, depthAfter_opening]
      exact depthAfter_add leaves 1
    rcases ends with none | ⟨-, closed⟩
    · exact absurd none (by simp)
    · exact absurd (closed.symm.trans inside) (by simp)

/-- No text that is kept is empty. -/
theorem nil_notMem_kept (text : List Char) : [] ∉ kept text := by
  intro member
  rw [kept] at member
  split at member
  · cases member
  · rename_i filled
    exact filled (by rw [← List.mem_singleton.1 member]; rfl)

/-- No statements in front of a head are empty. -/
theorem nil_notMem_statements (text : List Char) : [] ∉ (cutStatements text).1 := by
  unfold cutStatements
  split
  · exact nil_notMem_kept _
  · exact List.not_mem_nil

/-- No part of a sheet is empty. -/
theorem nil_notMem_scopeParts (scope : List Char) (root : Root) (css : List Char) :
    [] ∉ scopeParts scope root css := by
  have written (head body : List Char) : [] ≠ writeRule head body := by simp [writeRule]
  induction css using sheetInduction with
  | ends text plain =>
    rw [scopeParts_text plain]
    exact nil_notMem_kept text
  | stray text rest plain ih =>
    rw [scopeParts_stray plain, List.mem_append, not_or]
    exact ⟨nil_notMem_kept text, ih⟩
  | block text body rest plain closed inner outer =>
    rw [scopeParts_rule plain (balanced_of_depthAfter closed) rfl, List.mem_append, not_or,
      List.mem_cons, not_or]
    exact ⟨nil_notMem_statements text, written _ _, outer⟩
  | unclosed text body reached plain leaves inner =>
    rw [scopeParts_unclosed plain leaves, List.mem_append, not_or, List.mem_singleton]
    exact ⟨nil_notMem_statements text, written _ _⟩

end Parts

section Sheets

/-- Texts that are not empty are joined to an empty text only if there are none. -/
theorem eq_nil_of_intercalate {parts : List (List Char)} (filled : [] ∉ parts) {text : List Char}
    (empty : text.intercalate parts = []) : parts = [] := by
  cases parts with
  | nil => rfl
  | cons part parts =>
    obtain ⟨blank, -⟩ := not_or.1 (mt List.mem_cons.2 filled)
    cases parts with
    | nil => exact absurd (List.intercalate_singleton ▸ empty).symm blank
    | cons next parts =>
      rw [List.intercalate_cons_cons, List.append_eq_nil_iff, List.append_eq_nil_iff] at empty
      exact absurd empty.1.1.symm blank

/-- Texts are joined with others by joining each of the two lists first. -/
theorem intercalate_append {front parts : List (List Char)} (some_front : front ≠ [])
    (some_parts : parts ≠ []) (text : List Char) :
    text.intercalate (front ++ parts) =
      text.intercalate front ++ text ++ text.intercalate parts := by
  induction front with
  | nil => exact absurd rfl some_front
  | cons part front ih =>
    cases front with
    | nil => rw [List.singleton_append, List.intercalate_cons_of_ne_nil some_parts,
        List.intercalate_singleton]
    | cons next front =>
      rw [List.cons_append, List.intercalate_cons_of_ne_nil (by simp), ih (by simp),
        List.intercalate_cons_cons]
      simp only [List.append_assoc]

/-- A sheet in a scope is empty only if it has no parts. -/
theorem scopeStyles_eq_empty (css scope : String) (root : Root) :
    scopeStyles css scope root = "" ↔
      scopeParts scope.toList root (withoutComments css.toList) = [] := by
  rw [scopeStyles, String.ofList_eq_empty_iff]
  refine ⟨eq_nil_of_intercalate (nil_notMem_scopeParts _ _ _), fun none => ?_⟩
  rw [none, List.intercalate_nil]

/-- A sheet whose comments are closed and which ends closed is put in a scope by itself, whatever
follows it: what follows is put in the scope as it is alone, on a new line. -/
theorem scopeStyles_append {css : String} (comments : CommentsClosed css.toList)
    (ends : EndsClosed (withoutComments css.toList)) (others scope : String) (root : Root) :
    scopeStyles (css ++ others) scope root =
      scopeStyles css scope root ++
        (if scopeStyles css scope root ≠ "" ∧ scopeStyles others scope root ≠ "" then "\n"
          else "") ++
        scopeStyles others scope root := by
  have seam : (withoutComments css.toList).getLast? ≠ some '/' := by
    rcases ends with none | ⟨last, -⟩
    · rw [none]
      exact nofun
    · rw [last]
      decide
  have joined : scopeStyles (css ++ others) scope root =
      String.ofList (['\n'].intercalate
        (scopeParts scope.toList root (withoutComments css.toList) ++
          scopeParts scope.toList root (withoutComments others.toList))) := by
    rw [scopeStyles, String.toList_append, withoutComments_append comments seam,
      scopeParts_append _ _ ends]
  by_cases first : scopeStyles css scope root = ""
  · rw [if_neg fun both => both.1 first, first, joined, (scopeStyles_eq_empty _ _ _).1 first,
      List.nil_append, String.empty_append, String.empty_append, scopeStyles]
  by_cases second : scopeStyles others scope root = ""
  · rw [if_neg fun both => both.2 second, second, joined, (scopeStyles_eq_empty _ _ _).1 second,
      List.append_nil, String.append_empty, String.append_empty, scopeStyles]
  · have lines := intercalate_append (mt (scopeStyles_eq_empty css scope root).2 first)
      (mt (scopeStyles_eq_empty others scope root).2 second) ['\n']
    rw [if_pos ⟨first, second⟩, joined, lines, String.ofList_append, String.ofList_append,
      ← scopeStyles, ← scopeStyles]

/-- A rule and a comment, and then the end of a rule, a comment without an end and a rule without
one. -/
theorem scopeStyles_append_rules :
    CommentsClosed "a\x7bb\x7d/* c */".toList ∧
      EndsClosed (withoutComments "a\x7bb\x7d/* c */".toList) ∧
      scopeStyles ("a\x7bb\x7d/* c */" ++ "/d\x7d/*e\x7bf") "s-1" .normal =
        scopeStyles "a\x7bb\x7d/* c */" "s-1" .normal ++ "\n" ++
          scopeStyles "/d\x7d/*e\x7bf" "s-1" .normal := by
  have comments : CommentsClosed "a\x7bb\x7d/* c */".toList := by
    have letters : "a\x7bb\x7d/* c */".toList =
        ['a', '{', 'b', '}', '/', '*', ' ', 'c', ' ', '*', '/'] := by decide
    rw [letters]
    refine .char (by decide) (.char (by decide) (.char (by decide) (.char (by decide) ?_)))
    exact .comment (show _ = some ([' ', 'c', ' '], []) by decide) .nil
  have ends : EndsClosed (withoutComments "a\x7bb\x7d/* c */".toList) := by
    have plain : withoutComments "a\x7bb\x7d/* c */".toList = "a\x7bb\x7d".toList := by cbv
    rw [plain]
    exact .inr (by decide)
  have joins := scopeStyles_append comments ends "/d\x7d/*e\x7bf" "s-1" .normal
  rw [if_pos (by constructor <;> cbv)] at joins
  exact ⟨comments, ends, joins⟩

end Sheets

end ComponentPages.Style
