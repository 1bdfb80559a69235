import ComponentPages.Proofs.Style.Scoping
import Mathlib

/-!
# Braces of a style sheet in a scope

`depthAfter` counts the blocks that are open after a text, and gives nothing for a text that
closes more than it opens. A sheet in a scope never does (`depthAfter_scopeParts`), however its
text breaks off: a body is cut off where its block is closed, or else takes all the text
(`cutBody_cases`), and `openInside` counts the blocks that the second case leaves open. The parts of
a group are put in the scope one by one, so that each of its blocks is closed; the body of any other
rule is kept as it is, with all that is open inside.
-/
namespace ComponentPages.Style

open Text Markup

/-- How many blocks are open after a text that is read with some open; none if the text closes a
block that is not open. -/
def depthAfter (depth : Nat) : List Char → Option Nat
  | [] => some depth
  | c :: rest =>
    if c = '{' then depthAfter (depth + 1) rest
    else if c = '}' then if depth = 0 then none else depthAfter (depth - 1) rest
    else depthAfter depth rest

/-- The heads of the blocks that are open after a text, from the outermost inwards: `heads` are
those that are open before it, and `head` is the text since the last brace. A closing brace that
closes no block ends the text in front of it. -/
def openBlocks (heads : List (List Char)) (head : List Char) : List Char → List (List Char)
  | [] => heads
  | c :: rest =>
    if c = '{' then openBlocks (heads ++ [head]) [] rest
    else if c = '}' then openBlocks heads.dropLast [] rest
    else openBlocks heads (head ++ [c]) rest

/-- Whether the text in front of a block ends with the head of an at-rule that groups rules. -/
def opensGroup (front : List Char) : Bool := isGrouping (cutStatements front).2

/-- How many blocks are open at the end of a sheet inside of a block that does not group rules. -/
def openInside (css : List Char) : Nat :=
  ((openBlocks [] [] css).dropWhile opensGroup).tail.length

section Depth

variable {depth reached : Nat} {text others : List Char} {c : Char}

/-- An opening brace opens a block. -/
@[simp] theorem depthAfter_opening (depth : Nat) (text : List Char) :
    depthAfter depth ('{' :: text) = depthAfter (depth + 1) text := by
  rw [depthAfter, if_pos rfl]

/-- A closing brace closes an open block. -/
@[simp] theorem depthAfter_closing (depth : Nat) (text : List Char) :
    depthAfter (depth + 1) ('}' :: text) = depthAfter depth text := by
  rw [depthAfter, if_neg (by decide), if_pos rfl, if_neg (Nat.succ_ne_zero depth),
    Nat.add_sub_cancel]

/-- A text without braces opens no block and closes none. -/
theorem depthAfter_of_lacks (plain : Lacks ['{', '}'] text) (depth : Nat) :
    depthAfter depth text = some depth := by
  induction text with
  | nil => rw [depthAfter]
  | cons c text ih =>
    obtain ⟨here, later⟩ := List.forall_mem_cons.1 plain
    obtain ⟨noOpening, noClosing⟩ : c ≠ '{' ∧ c ≠ '}' := by simpa using here
    rw [depthAfter, if_neg noOpening, if_neg noClosing, ih later]

/-- The blocks that are open after a text are those in which the next text is read. -/
theorem depthAfter_append (depth : Nat) (text others : List Char) :
    depthAfter depth (text ++ others) =
      (depthAfter depth text).bind fun depth => depthAfter depth others := by
  fun_induction depthAfter depth text with
  | case1 depth => rfl
  | case2 depth rest ih => rw [List.cons_append, depthAfter_opening, ih]
  | case3 rest other => rfl
  | case4 depth rest filled other ih =>
    obtain ⟨depth, rfl⟩ := Nat.exists_eq_succ_of_ne_zero filled
    rw [List.cons_append, depthAfter_closing]
    exact ih
  | case5 depth c rest noOpening noClosing ih =>
    rw [List.cons_append, depthAfter, if_neg noOpening, if_neg noClosing, ih]

/-- A text that closes only open blocks does the same where more blocks are open. -/
theorem depthAfter_add (reaches : depthAfter depth text = some reached) (more : Nat) :
    depthAfter (depth + more) text = some (reached + more) := by
  fun_induction depthAfter depth text with
  | case1 depth => rw [depthAfter, Option.some.inj reaches]
  | case2 depth rest ih => rw [depthAfter_opening, Nat.add_right_comm, ih reaches]
  | case3 rest other => exact nomatch reaches
  | case4 depth rest filled other ih =>
    obtain ⟨depth, rfl⟩ := Nat.exists_eq_succ_of_ne_zero filled
    rw [Nat.succ_add, depthAfter_closing]
    exact ih reaches
  | case5 depth c rest noOpening noClosing ih =>
    rw [depthAfter, if_neg noOpening, if_neg noClosing, ih reaches]

/-- The blocks that a text leaves open are the opening braces that have no partner in it. -/
theorem count_of_depthAfter (reaches : depthAfter depth text = some reached) :
    text.count '{' + depth = text.count '}' + reached := by
  fun_induction depthAfter depth text with
  | case1 depth => simpa using reaches
  | case2 depth rest ih =>
    have later := ih reaches
    rw [List.count_cons_self, List.count_cons_of_ne (by decide)]
    omega
  | case3 rest other => exact nomatch reaches
  | case4 depth rest filled other ih =>
    have later := ih reaches
    rw [List.count_cons_self, List.count_cons_of_ne (by decide)]
    omega
  | case5 depth c rest noOpening noClosing ih =>
    rw [List.count_cons_of_ne noOpening, List.count_cons_of_ne noClosing]
    exact ih reaches

/-- A text that closes only open blocks has no front that closes others. -/
theorem count_of_isPrefix (reaches : depthAfter 0 text = some reached) {front : List Char}
    (starts : front <+: text) : front.count '}' ≤ front.count '{' := by
  obtain ⟨rest, rfl⟩ := starts
  rw [depthAfter_append] at reaches
  obtain ⟨between, early, -⟩ := Option.bind_eq_some_iff.1 reaches
  have := count_of_depthAfter early
  omega

/-- A rule closes one of the blocks that its body leaves open. -/
theorem depthAfter_writeRule {head body : List Char} (plain : Lacks ['{', '}'] head)
    (reaches : depthAfter 0 body = some reached) :
    depthAfter 0 (writeRule head body) = some reached := by
  have inside : depthAfter 1 body = some (reached + 1) := by
    simpa using depthAfter_add reaches 1
  rw [writeRule, List.append_assoc, depthAfter_append, depthAfter_of_lacks plain,
    Option.bind_some, List.cons_append, depthAfter_opening, depthAfter_append, inside,
    Option.bind_some, depthAfter_closing, depthAfter]

end Depth

section Blocks

variable {depth reached : Nat} {text : List Char}

/-- A text that closes only open blocks leaves the blocks around it open: those that are read with
it are open after it, whatever is open around them. -/
theorem openBlocks_append {inner : List (List Char)}
    (reaches : depthAfter inner.length text = some reached) (head : List Char) :
    ∃ left last, left.length = reached ∧ ∀ heads rest,
      openBlocks (heads ++ inner) head (text ++ rest) = openBlocks (heads ++ left) last rest := by
  induction text generalizing inner head with
  | nil => exact ⟨inner, head, Option.some.inj reaches, fun heads rest => rfl⟩
  | cons c text ih =>
    by_cases opening : c = '{'
    · subst opening
      rw [depthAfter_opening] at reaches
      obtain ⟨left, last, size, same⟩ := @ih (inner ++ [head]) (by simpa using reaches) []
      refine ⟨left, last, size, fun heads rest => ?_⟩
      rw [← same, List.cons_append, openBlocks, if_pos rfl, List.append_assoc]
    · by_cases closing : c = '}'
      · subst closing
        cases inner using List.reverseRecOn with
        | nil => exact nomatch reaches
        | append_singleton inner deepest =>
          rw [List.length_append, List.length_singleton, depthAfter_closing] at reaches
          obtain ⟨left, last, size, same⟩ := ih reaches []
          refine ⟨left, last, size, fun heads rest => ?_⟩
          rw [← same, List.cons_append, openBlocks, if_neg opening, if_pos rfl,
            ← List.append_assoc, List.dropLast_concat]
      · rw [depthAfter, if_neg opening, if_neg closing] at reaches
        obtain ⟨left, last, size, same⟩ := ih reaches (head ++ [c])
        refine ⟨left, last, size, fun heads rest => ?_⟩
        rw [← same, List.cons_append, openBlocks, if_neg opening, if_neg closing]

/-- A text without braces goes on with the head of the next block. -/
theorem openBlocks_of_lacks (plain : Lacks ['{', '}'] text) (heads : List (List Char))
    (head rest : List Char) :
    openBlocks heads head (text ++ rest) = openBlocks heads (head ++ text) rest := by
  induction text generalizing head with
  | nil => rw [List.nil_append, List.append_nil]
  | cons c text ih =>
    obtain ⟨here, later⟩ := List.forall_mem_cons.1 plain
    obtain ⟨noOpening, noClosing⟩ : c ≠ '{' ∧ c ≠ '}' := by simpa using here
    rw [List.cons_append, openBlocks, if_neg noOpening, if_neg noClosing, ih later,
      List.append_assoc, List.singleton_append]

/-- A brace that closes the block of a body ends the body; any other character is in the body, and
the rest of the body is cut off as deep as the character leads. -/
theorem cutBody_cons {depth : Nat} {c : Char} (inside : ¬ (depth = 0 ∧ c = '}')) :
    ∃ inner, ∀ text, depthAfter depth (c :: text) = depthAfter inner text ∧
      cutBody depth (c :: text) = (c :: (cutBody inner text).1, (cutBody inner text).2) := by
  by_cases opening : c = '{'
  · subst opening
    exact ⟨depth + 1, fun text => ⟨depthAfter_opening depth text, by rw [cutBody]⟩⟩
  · by_cases closing : c = '}'
    · subst closing
      obtain ⟨outer, rfl⟩ := Nat.exists_eq_succ_of_ne_zero fun none => inside ⟨none, rfl⟩
      exact ⟨outer, fun text => ⟨depthAfter_closing outer text, by rw [cutBody]⟩⟩
    · refine ⟨depth, fun text => ⟨?_, ?_⟩⟩
      · rw [depthAfter, if_neg opening, if_neg closing]
      · rw [cutBody.eq_def]
        split <;> simp_all

/-- A body is cut off at the brace that closes its block, or is all the text if the block is not
closed. -/
theorem cutBody_cases (depth : Nat) (text : List Char) :
    (∃ body after, cutBody depth text = (body, after) ∧ text = body ++ '}' :: after ∧
      depthAfter depth body = some 0) ∨
    (cutBody depth text = (text, []) ∧ ∃ reached, depthAfter depth text = some reached) := by
  induction text generalizing depth with
  | nil => exact .inr ⟨by rw [cutBody], depth, by rw [depthAfter]⟩
  | cons c text ih =>
    by_cases closing : depth = 0 ∧ c = '}'
    · obtain ⟨rfl, rfl⟩ := closing
      exact .inl ⟨[], text, by rw [cutBody], rfl, by rw [depthAfter]⟩
    · obtain ⟨inner, steps⟩ := cutBody_cons closing
      rw [(steps text).1, (steps text).2]
      rcases ih inner with ⟨body, after, same, rfl, closed⟩ | ⟨same, reached, leaves⟩
      · exact .inl ⟨c :: body, after, by rw [same], rfl, (steps body).1.trans closed⟩
      · exact .inr ⟨by rw [same], reached, leaves⟩

/-- A text that closes all the blocks that it opens, and no others, is balanced. -/
theorem balanced_of_depthAfter {text : List Char} (closed : depthAfter 0 text = some 0) :
    Balanced text := by
  match text with
  | [] => exact .nil
  | c :: text =>
    by_cases opening : c = '{'
    · subst opening
      rw [depthAfter_opening] at closed
      rcases cutBody_cases 0 text with ⟨inner, rest, -, rfl, inside⟩ | ⟨-, left, leaves⟩
      · rw [depthAfter_append, depthAfter_add inside 1, Option.bind_some,
          depthAfter_closing] at closed
        exact .block (balanced_of_depthAfter inside) (balanced_of_depthAfter closed)
      · exact absurd (closed.symm.trans (depthAfter_add leaves 1)) (by simp)
    · by_cases closing : c = '}'
      · subst closing
        exact nomatch closed
      · rw [depthAfter, if_neg opening, if_neg closing] at closed
        exact .char opening closing (balanced_of_depthAfter closed)
termination_by text.length

/-- A sheet has no braces in front of the first one. -/
theorem exists_braceless (css : List Char) :
    ∃ text, Lacks ['{', '}'] text ∧
      (css = text ∨ ∃ rest, css = text ++ '{' :: rest ∨ css = text ++ '}' :: rest) := by
  induction css with
  | nil => exact ⟨[], lacks_nil _, .inl rfl⟩
  | cons c css ih =>
    by_cases opening : c = '{'
    · exact ⟨[], lacks_nil _, .inr ⟨css, .inl (by rw [opening]; rfl)⟩⟩
    by_cases closing : c = '}'
    · exact ⟨[], lacks_nil _, .inr ⟨css, .inr (by rw [closing]; rfl)⟩⟩
    obtain ⟨text, plain, cases⟩ := ih
    refine ⟨c :: text, List.forall_mem_cons.2 ⟨by simp [opening, closing], plain⟩, ?_⟩
    rcases cases with rfl | ⟨rest, rfl | rfl⟩
    · exact .inl rfl
    · exact .inr ⟨rest, .inl rfl⟩
    · exact .inr ⟨rest, .inr rfl⟩

/-- Induction on a sheet as it is cut: a text without braces, a closing brace without a partner, a
block that is closed, or one that is not, with the text in front and the rest of the sheet. -/
@[elab_as_elim] theorem sheetInduction {motive : List Char → Prop}
    (ends : ∀ text, Lacks ['{', '}'] text → motive text)
    (stray : ∀ text rest, Lacks ['{', '}'] text → motive rest → motive (text ++ '}' :: rest))
    (block : ∀ text body rest, Lacks ['{', '}'] text → depthAfter 0 body = some 0 →
      motive body → motive rest → motive (text ++ '{' :: (body ++ '}' :: rest)))
    (unclosed : ∀ text body reached, Lacks ['{', '}'] text → depthAfter 0 body = some reached →
      motive body → motive (text ++ '{' :: body)) (css : List Char) : motive css := by
  obtain ⟨text, plain, rfl | ⟨rest, rfl | rfl⟩⟩ := exists_braceless css
  · exact ends css plain
  · rcases cutBody_cases 0 rest with ⟨body, later, -, rfl, closed⟩ | ⟨-, reached, leaves⟩
    · exact block text body later plain closed (sheetInduction ends stray block unclosed body)
        (sheetInduction ends stray block unclosed later)
    · exact unclosed text rest reached plain leaves
        (sheetInduction ends stray block unclosed rest)
  · exact stray text rest plain (sheetInduction ends stray block unclosed rest)
termination_by css.length
decreasing_by all_goals (simp_all; omega)

/-- A body leaves its own blocks open inside of those around it. -/
theorem openBlocks_body (leaves : depthAfter 0 text = some reached) :
    (openBlocks [] [] text).length = reached ∧ ∀ heads, ∃ last, ∀ rest,
      openBlocks heads [] (text ++ rest) =
        openBlocks (heads ++ openBlocks [] [] text) last rest := by
  obtain ⟨left, last, size, same⟩ := @openBlocks_append reached text [] leaves []
  have alone : openBlocks [] [] text = left := by
    have read := same [] []
    rwa [List.append_nil, List.append_nil, List.nil_append] at read
  refine ⟨alone ▸ size, fun heads => ⟨last, fun rest => ?_⟩⟩
  have read := same heads rest
  rwa [List.append_nil, ← alone] at read

/-- A text without open blocks has none inside of others. -/
theorem openInside_of_closed (closed : depthAfter 0 text = some 0) : openInside text = 0 := by
  rw [openInside, List.eq_nil_of_length_eq_zero (openBlocks_body closed).1]
  rfl

/-- A closing brace without a partner, with the text in front of it, has no part in what is open
at the end. -/
theorem openInside_stray (plain : Lacks ['{', '}'] text) (rest : List Char) :
    openInside (text ++ '}' :: rest) = openInside rest := by
  have same : openBlocks [] [] (text ++ '}' :: rest) = openBlocks [] [] rest := by
    rw [openBlocks_of_lacks plain, openBlocks, if_neg (by decide), if_pos rfl, List.dropLast_nil]
  rw [openInside, same, ← openInside]

/-- A block that is closed has no part in what is open at the end. -/
theorem openInside_block (plain : Lacks ['{', '}'] text) {body : List Char}
    (closed : depthAfter 0 body = some 0) (rest : List Char) :
    openInside (text ++ '{' :: (body ++ '}' :: rest)) = openInside rest := by
  obtain ⟨size, reads⟩ := openBlocks_body closed
  obtain ⟨last, read⟩ := reads [text]
  have same : openBlocks [] [] (text ++ '{' :: (body ++ '}' :: rest)) =
      openBlocks [] [] rest := by
    rw [openBlocks_of_lacks plain, openBlocks, if_pos rfl, List.nil_append, List.nil_append, read,
      List.eq_nil_of_length_eq_zero size, openBlocks, if_neg (by decide), if_pos rfl]
    rfl
  rw [openInside, same, ← openInside]

/-- In a block that is not closed, the blocks of its body are open at the end; those that are open
in groups only are open inside of no other block. -/
theorem openInside_unclosed (plain : Lacks ['{', '}'] text) {body : List Char}
    (leaves : depthAfter 0 body = some reached) :
    openInside (text ++ '{' :: body) = if opensGroup text then openInside body else reached := by
  obtain ⟨size, reads⟩ := openBlocks_body leaves
  obtain ⟨last, read⟩ := reads [text]
  have whole : openBlocks [] [] (text ++ '{' :: body) = text :: openBlocks [] [] body := by
    have ends := read []
    rw [List.append_nil, List.singleton_append] at ends
    rw [openBlocks_of_lacks plain, openBlocks, if_pos rfl, List.nil_append, List.nil_append, ends,
      openBlocks]
  rw [openInside, whole, List.dropWhile_cons]
  split
  · rw [openInside]
  · exact size

end Blocks

section Parts

variable {marks text : List Char}

/-- A text without given characters has no text with some of them in it. -/
theorem Lacks.of_subset {part : List Char} (lacks : Lacks marks text) (inside : part ⊆ text) :
    Lacks marks part :=
  fun c member => lacks c (inside member)

/-- A text that is kept has the characters that it had. -/
theorem Lacks.kept (lacks : Lacks marks text) : ∀ part ∈ kept text, Lacks marks part := by
  intro part member
  rw [Style.kept] at member
  split at member
  · cases member
  · exact List.mem_singleton.1 member ▸ lacks.of_subset (trim_subset text)

/-- Statements and the head behind them have the characters that they had. -/
theorem Lacks.cutStatements (lacks : Lacks marks text) :
    (∀ part ∈ (cutStatements text).1, Lacks marks part) ∧ Lacks marks (cutStatements text).2 := by
  rw [Style.cutStatements]
  split
  · rename_i before after cuts
    rw [eq_append_of_cutLast cuts] at lacks
    obtain ⟨front, back⟩ := List.forall_mem_append.1 lacks
    exact ⟨Lacks.kept front, Lacks.of_subset back (trim_subset after)⟩
  · exact ⟨List.forall_mem_nil _, lacks.of_subset (trim_subset text)⟩

/-- The selectors of a head have the characters that it has. -/
theorem Lacks.selectors (lacks : Lacks marks text) :
    ∀ selector ∈ selectors text, Lacks marks selector := by
  intro selector member
  obtain ⟨piece, cut, rfl⟩ := List.mem_map.1 (List.mem_of_mem_filter member)
  exact lacks.of_subset (List.Subset.trans (trim_subset piece) (subset_of_mem_splitWhere cut))

/-- Texts without given characters are joined without them. -/
theorem Lacks.intercalate {parts : List (List Char)} (lacks : Lacks marks text)
    (all : ∀ part ∈ parts, Lacks marks part) : Lacks marks (text.intercalate parts) := by
  induction parts with
  | nil => exact lacks_nil marks
  | cons part parts ih =>
    obtain ⟨here, later⟩ := List.forall_mem_cons.1 all
    cases parts with
    | nil => rwa [List.intercalate_singleton]
    | cons next parts =>
      rw [List.intercalate_cons_cons]
      exact (here.append lacks).append (ih later)

/-- A selector without braces has none in a scope. -/
theorem Lacks.scopeSelector {scope selector : List Char} {root : Root}
    (plainClass : Lacks ['{', '}'] scope)
    (plainTag : ∀ tag ∈ root.tag, Lacks ['{', '}'] tag.toList)
    (lacks : Lacks ['{', '}'] selector) :
    Lacks ['{', '}'] (scopeSelector scope root selector) := by
  have marked : Lacks ['{', '}'] ('.' :: scope) := List.forall_mem_cons.2 ⟨by decide, plainClass⟩
  have inside : Lacks ['{', '}'] (descendant scope selector) :=
    marked.append (List.forall_mem_cons.2 ⟨by decide, lacks⟩)
  have tagged : Lacks ['{', '}'] ((root.tag.map String.toList).getD []) := by
    cases tag : root.tag with
    | none => exact lacks_nil _
    | some name => exact plainTag name tag
  unfold Style.scopeSelector
  split
  · exact inside
  · split
    · exact lacks.append marked
    · split
      · split
        · exact marked.append lacks
        · exact inside
      · exact (tagged.append marked).append lacks
      · exact inside

/-- A head without braces has none in a scope. -/
theorem Lacks.scopeHead {scope head : List Char} {root : Root}
    (plainClass : Lacks ['{', '}'] scope)
    (plainTag : ∀ tag ∈ root.tag, Lacks ['{', '}'] tag.toList) (lacks : Lacks ['{', '}'] head) :
    Lacks ['{', '}'] (scopeHead scope root head) := by
  unfold Style.scopeHead
  split
  · exact lacks
  · refine Lacks.intercalate (by decide) fun part member => ?_
    obtain ⟨selector, listed, rfl⟩ := List.mem_map.1 member
    exact Lacks.scopeSelector plainClass plainTag (lacks.selectors selector listed)

end Parts

section Sheets

variable {reached : Nat}

/-- What is open after texts of which only the last leaves blocks open is what that leaves. -/
theorem depthAfter_intercalate {part : List Char} {parts : List (List Char)}
    (closed : depthAfter 0 part = some 0)
    (leaves : depthAfter 0 (['\n'].intercalate parts) = some reached) :
    depthAfter 0 (['\n'].intercalate (part :: parts)) = some reached := by
  cases parts with
  | nil =>
    have none : reached = 0 := by simpa [depthAfter] using leaves.symm
    rw [List.intercalate_singleton, closed, none]
  | cons next parts =>
    rw [List.intercalate_cons_cons, List.append_assoc, depthAfter_append, closed,
      Option.bind_some, depthAfter_append, depthAfter_of_lacks (by decide), Option.bind_some,
      leaves]

/-- What is open after texts without braces and others is what the others leave. -/
theorem depthAfter_intercalate_append {front parts : List (List Char)}
    (plain : ∀ part ∈ front, Lacks ['{', '}'] part)
    (leaves : depthAfter 0 (['\n'].intercalate parts) = some reached) :
    depthAfter 0 (['\n'].intercalate (front ++ parts)) = some reached := by
  induction front with
  | nil => exact leaves
  | cons part front ih =>
    obtain ⟨here, later⟩ := List.forall_mem_cons.1 plain
    exact depthAfter_intercalate (depthAfter_of_lacks here 0) (ih later)

/-- A block that is not closed takes the rest of the sheet as its body. -/
theorem scopeParts_unclosed {text body : List Char} (plain : Lacks ['{', '}'] text)
    (leaves : depthAfter 0 body = some reached) (scope : List Char) (root : Root) :
    scopeParts scope root (text ++ '{' :: body) = (cutStatements text).1 ++
      [writeRule (scopeHead scope root (cutStatements text).2)
        (if opensGroup text then ['\n'].intercalate (scopeParts scope root body) else body)] := by
  have taken : cutBody 0 body = (body, []) := by
    rcases cutBody_cases 0 body with ⟨inner, after, -, rfl, closed⟩ | ⟨same, -⟩
    · rw [depthAfter_append, closed, Option.bind_some] at leaves
      exact nomatch leaves
    · exact same
  have alone : scopeParts scope root [] = [] := scopeParts_text (lacks_nil _) scope root
  rw [scopeParts_opening plain, taken, alone, opensGroup]

/-- What is open after the parts of a sheet is what is open in the sheet inside of a block that does
not group rules. -/
theorem depthAfter_scopeParts {scope : List Char} {root : Root}
    (plainClass : Lacks ['{', '}'] scope)
    (plainTag : ∀ tag ∈ root.tag, Lacks ['{', '}'] tag.toList) (css : List Char) :
    depthAfter 0 (['\n'].intercalate (scopeParts scope root css)) = some (openInside css) := by
  have headed {text : List Char} (plain : Lacks ['{', '}'] text) :
      Lacks ['{', '}'] (scopeHead scope root (cutStatements text).2) :=
    Lacks.scopeHead plainClass plainTag plain.cutStatements.2
  induction css using sheetInduction with
  | ends text plain =>
    have closed : depthAfter 0 (['\n'].intercalate (kept text ++ [])) = some 0 :=
      depthAfter_intercalate_append plain.kept rfl
    rw [List.append_nil] at closed
    rw [scopeParts_text plain, closed, openInside_of_closed (depthAfter_of_lacks plain 0)]
  | stray text rest plain ih =>
    rw [scopeParts_stray plain, openInside_stray plain]
    exact depthAfter_intercalate_append plain.kept ih
  | block text body rest plain closed inner outer =>
    rw [scopeParts_rule plain (balanced_of_depthAfter closed) rfl, openInside_block plain closed]
    refine depthAfter_intercalate_append plain.cutStatements.1
      (depthAfter_intercalate (depthAfter_writeRule (headed plain) ?_) outer)
    split_ifs
    · rwa [openInside_of_closed closed] at inner
    · exact closed
  | unclosed text body reached plain leaves inner =>
    rw [scopeParts_unclosed plain leaves, openInside_unclosed plain leaves]
    refine depthAfter_intercalate_append plain.cutStatements.1 ?_
    rw [List.intercalate_singleton]
    refine depthAfter_writeRule (headed plain) ?_
    split_ifs
    · exact inner
    · exact leaves

/-- A sheet in a scope closes no block that it does not open. It leaves as many blocks open as are
open at its end inside of a block that does not group rules, for of such a block and those inside
only one is closed: in so many blocks is read what comes after the sheet. -/
theorem scopeStyles_balance {scope : String} {root : Root}
    (plainClass : Lacks ['{', '}'] scope.toList)
    (plainTag : ∀ tag ∈ root.tag, Lacks ['{', '}'] tag.toList) (css : String) :
    (∀ front, front <+: (scopeStyles css scope root).toList →
      front.count '}' ≤ front.count '{') ∧
    (scopeStyles css scope root).toList.count '{' =
      (scopeStyles css scope root).toList.count '}' + openInside (withoutComments css.toList) ∧
    ∀ others, depthAfter 0 ((scopeStyles css scope root).toList ++ others) =
      depthAfter (openInside (withoutComments css.toList)) others := by
  rw [scopeStyles, String.toList_ofList]
  have reaches := depthAfter_scopeParts plainClass plainTag (withoutComments css.toList)
  refine ⟨fun front => count_of_isPrefix reaches, count_of_depthAfter reaches, fun others => ?_⟩
  rw [depthAfter_append, reaches, Option.bind_some]

/-- A rule that breaks off inside of a group leaves no block open. -/
theorem scopeStyles_balance_media :
    let css := "@media x\x7ba\x7bb"
    scopeStyles css "s-1" ⟨.single, some "b", []⟩ = "@media x\x7b.s-1 a\x7bb\x7d\x7d" ∧
      openInside (withoutComments css.toList) = 0 ∧
      ∀ others, depthAfter 0
        ((scopeStyles css "s-1" ⟨.single, some "b", []⟩).toList ++ others) =
          depthAfter 0 others := by
  have balance := @scopeStyles_balance "s-1" ⟨.single, some "b", []⟩ (by decide) (by decide)
    "@media x\x7ba\x7bb"
  have closed : openInside (withoutComments "@media x\x7ba\x7bb".toList) = 0 := by cbv
  rw [closed] at balance
  exact ⟨by cbv, closed, balance.2.2⟩

/-- A rule that breaks off inside of a rule leaves a block open. -/
theorem scopeStyles_leaves_open :
    scopeStyles "a\x7bb\x7bc" "s-1" .normal = ".s-1 a\x7bb\x7bc\x7d" ∧
      (scopeStyles "a\x7bb\x7bc" "s-1" .normal).toList.count '{' ≠
        (scopeStyles "a\x7bb\x7bc" "s-1" .normal).toList.count '}' := by
  have written : scopeStyles "a\x7bb\x7bc" "s-1" .normal = ".s-1 a\x7bb\x7bc\x7d" := by cbv
  refine ⟨written, ?_⟩
  rw [written]
  decide

end Sheets

end ComponentPages.Style
