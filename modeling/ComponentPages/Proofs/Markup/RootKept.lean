import ComponentPages.Proofs.Markup.Restoring

/-!
# The root of markup with a class on it

The analysis of a root and the injection of a class look for the end of the first tag in two
different texts, the trimmed mask of the markup and the mask itself, and agree on it. So the class
is injected into all markup that has a root, and no such markup is wrapped. In its tag, the class
takes the place of a text that can be exchanged for it (`exists_exchange`), wherever what looks
like a class attribute is found; then the expressions are put back and masked again. Markup
without the reserved text of placeholders keeps the kind and the name of its root by that
(`compile_keeps_root`), even where it loses an expression.
-/

namespace ComponentPages.Markup

open Text

variable {kind : RootKind} {tag : Option String} {scope : List Char}

/-- No name and no start of a tag goes on to a blank or to the end of a tag. -/
theorem seam_cons {front : List Char} {c : Char} (ends : isBlank c = true ∨ c = '>')
    (rest : List Char) : Seam front (c :: rest) := by
  rcases ends with blank | rfl
  · refine .inr (.inr ⟨endsName_of_isBlank blank rest, fun slash => ?_⟩)
    obtain rfl := Option.some.inj slash
    exact absurd blank (by decide)
  · exact .inr (.inr ⟨endsName_bracket rest, by simp⟩)

/-- A class is put on a text in one of the ways that it is put on a tag. -/
theorem exists_classed_plain (plainClass : PlainClass scope) (text : List Char) :
    ∃ before, Classed scope before (plain (text ++ ['>'])) (plain (classTag scope text)) := by
  have whole : plain text ++ [.inl '>'] = plain (text ++ ['>']) := by simp [plain]
  have legible : Legible (plain text ++ [.inl '>']) := by
    intro before others expression after same
    have member : .inr expression ∈ plain (text ++ ['>']) := by
      rw [← whole, same]
      simp
    exact absurd member (by simp [plain])
  obtain ⟨before, edited, put, -, classed⟩ :=
    @exists_classed _ 0 scope _ legible (maskPieces_plain 0 text)
  rw [whole] at classed
  have kept := (classed.edits plainClass.tame).keeps.expressions
  obtain ⟨shown, rfl⟩ := exists_plain (kept.trans (expressionsOf_plain _))
  rw [maskPieces_plain] at put
  exact ⟨before, put ▸ classed⟩

/-- A class on a tag takes the place of a text in the tag that can be exchanged for it, if the tag
does not close itself. -/
theorem exists_exchange {text : List Char} (plainClass : PlainClass scope)
    (passes : quoteBehind none (plain text) = some none) (head : text.head? = some '<')
    (unslashed : text.getLast? ≠ some '/') :
    ∃ front old new back, text = front ++ (old ++ back) ∧
      classTag scope text = front ++ (new ++ (back ++ ['>'])) ∧ front.head? = some '<' ∧
      quoteBehind none (plain front) ≠ none ∧
      ∀ rest, Exchange front old new (back ++ '>' :: rest) := by
  obtain ⟨before, classed⟩ := exists_classed_plain plainClass text
  have starts : before.head? = some (.inl '<') := by
    obtain ⟨others, rfl⟩ := List.head?_eq_some_iff.1 head
    exact classed.head rfl
  obtain ⟨old, new, after, same, put, swaps⟩ := classed.region plainClass.neutral
  have whole : plain text ++ [.inl '>'] = plain (text ++ ['>']) := by simp [plain]
  obtain ⟨behind, rfl, inside⟩ := swaps.exists_after (whole.trans same)
  -- All of these pieces are texts, since the tag has no expressions.
  have before := expressionsOf_plain text
  have behind := expressionsOf_plain (classTag scope text)
  rw [inside] at before
  rw [put] at behind
  simp only [expressionsOf_append, List.append_eq_nil_iff] at before behind
  obtain ⟨front, rfl⟩ := exists_plain before.1.1
  obtain ⟨old, rfl⟩ := exists_plain before.1.2
  obtain ⟨new, rfl⟩ := exists_plain behind.1.2
  obtain ⟨back, rfl⟩ := exists_plain before.2
  obtain rfl : text = front ++ (old ++ back) := eq_of_plain (inside.trans (by simp [plain]))
  have last : old = [] → back = [] := by
    rintro rfl
    rcases swaps.startsOld with ⟨piece, same, -⟩ | ⟨-, ends | ends⟩
    · cases same
    · have texts : back ++ ['>'] = [] ++ ['>'] := eq_of_plain (Eq.trans (by simp [plain]) ends)
      exact (List.append_inj' texts rfl).1
    · have texts : back ++ ['>'] = ['/'] ++ ['>'] := eq_of_plain (Eq.trans (by simp [plain]) ends)
      obtain rfl := (List.append_inj' texts rfl).1
      exact absurd (by simp) unslashed
  refine ⟨front, old, new, back, rfl, eq_of_plain (put.trans (by simp [plain])), ?_, ?_,
    fun rest => ?_⟩
  · cases front with
    | nil => cases starts
    | cons c front => exact congrArg some (Sum.inl.inj (Option.some.inj starts))
  · intro none
    rw [quoteBehind_plain_append, none] at passes
    cases passes
  · refine ⟨?_, ?_, fun c member => swaps.withinOld c (mem_plain.2 member),
      fun c member => swaps.withinNew c (mem_plain.2 member), swaps.quotes, ?_, ?_, by simp⟩
    · cases old with
      | nil =>
        rw [last rfl]
        exact seam_cons (.inr rfl) _
      | cons c old =>
        rcases swaps.startsOld with ⟨piece, same, blank⟩ | ⟨none, -⟩
        · obtain rfl := Option.some.inj same
          exact seam_cons (.inl blank) _
        · cases none
    · obtain ⟨piece, same, blank⟩ := swaps.startsNew
      cases new with
      | nil => cases same
      | cons c new =>
        obtain rfl := Option.some.inj same
        exact seam_cons (.inl blank) _
    · rintro rfl
      rwa [last rfl, List.append_nil, List.append_nil] at unslashed
    · obtain ⟨c, member, other⟩ := swaps.filled
      exact ⟨c, mem_plain.1 member, other⟩

/-- A body keeps the kind and the name of its root when a class is put on its first tag, and the
tag starts and ends as it did. -/
theorem HasRoot.put_class {text rest : List Char} (plainClass : PlainClass scope)
    (hasRoot : HasRoot kind tag (text ++ '>' :: rest)) (head : text.head? = some '<')
    (unslashed : text.getLast? ≠ some '/') (passes : quoteBehind none (plain text) = some none) :
    ∃ shown, classTag scope text = shown ++ ['>'] ∧ shown.head? = some '<' ∧
      HasRoot kind tag (shown ++ '>' :: rest) := by
  obtain ⟨front, old, new, back, rfl, put, starts, unended, exchange⟩ :=
    exists_exchange plainClass passes head unslashed
  have filled : front ≠ [] := by
    rintro rfl
    exact nomatch starts
  refine ⟨front ++ (new ++ back), by rw [put]; simp, ?_, ?_⟩
  · obtain ⟨others, rfl⟩ := List.head?_eq_some_iff.1 starts
    rfl
  · simp only [List.append_assoc] at hasRoot ⊢
    exact hasRoot.exchange (exchange rest) filled fun ended => absurd ended unended

/-- A text that starts with a tag is what is left when the blanks in front of it are trimmed. -/
theorem trimStart_blanks {blanks text : List Char} (blank : ∀ c ∈ blanks, isBlank c = true)
    (head : text.head? = some '<') (rest : List Char) :
    trimStart (blanks ++ (text ++ rest)) = text ++ rest := by
  obtain ⟨others, rfl⟩ := List.head?_eq_some_iff.1 head
  refine trimStart_append blank fun c member => ?_
  obtain rfl := Option.some.inj member
  decide

/-- The injection of a class in terms of the tag that the masked markup starts with. -/
theorem injectClass_of_mask {body scope : String} {blanks text rest : List Char}
    (masked : mask body.toList = blanks ++ (text ++ '>' :: rest))
    (blank : ∀ c ∈ blanks, isBlank c = true) (head : text.head? = some '<')
    (passes : quoteBehind none (plain text) = some none) :
    injectClass body scope = some (String.ofList
      (unmask (blanks ++ (classTag scope.toList text ++ rest)) (expressions body.toList))) := by
  have behind := trimStart_blanks blank head ('>' :: rest)
  obtain ⟨others, rfl⟩ := List.head?_eq_some_iff.1 head
  have cuts : cutTag none ('<' :: (others ++ '>' :: rest)) = some ('<' :: others, rest) :=
    cutTag_eq_some_iff.2 ⟨rfl, passes⟩
  have front : (blanks ++ ('<' :: others ++ '>' :: rest)).takeWhile isBlank = blanks := by
    rw [List.takeWhile_append_of_pos blank, List.cons_append,
      List.takeWhile_cons_of_neg (by decide), List.append_nil]
  rw [injectClass, masked, front, behind, List.cons_append]
  simp only [cuts, Option.map_some, List.append_assoc]

/-- Masked markup stays restorable when a class is put on a tag in it. -/
theorem Restorable.put_class {blanks text rest : List Char} (plainClass : PlainClass scope)
    (restorable : Restorable (blanks ++ (text ++ '>' :: rest))) :
    Restorable (blanks ++ (classTag scope text ++ rest)) := by
  obtain ⟨before, classed⟩ := exists_classed_plain plainClass text
  have edits := (classed.edits plainClass.tame).between (plain blanks) (plain rest)
  have texts (text : List Char) : textsOf (plain blanks ++ plain text ++ plain rest) =
      blanks ++ (text ++ rest) := by
    simp only [textsOf_append, textsOf_plain, List.append_assoc]
  have whole : Restorable (textsOf (plain blanks ++ plain (text ++ ['>']) ++ plain rest)) := by
    rw [texts, List.append_assoc]
    exact restorable
  have kept := edits.restorable whole
  rwa [texts] at kept

/-- A class is injected into all markup that has a root, and the markup with the class has a root
of the same kind and name, if the markup does not hold the reserved text of placeholders. -/
theorem exists_injectClass_of_root {body : String} {scope : String}
    (plainClass : PlainClass scope.toList) (rooted : (analyze body).kind ≠ .normal) :
    ∃ markup, injectClass body scope = some markup ∧
      (¬ placeholderHead <:+: body.toList →
        (analyze markup).kind = (analyze body).kind ∧
          (analyze markup).tag = (analyze body).tag) := by
  have hasRoot := hasRoot_analyze rooted
  obtain ⟨blanks, text, rest, masked, blank, head, unslashed, passes, trims⟩ :=
    hasRoot.exists_opening
  refine ⟨_, injectClass_of_mask masked blank head passes, fun free => HasRoot.analyze ?_⟩
  have told := told_pieces body.toList
  have unmarked : Unmarked (textsOf (readExpression.pieces body.toList)) :=
    unmarked_textsOf (by rwa [written_pieces])
  have closed : ∀ expression ∈ expressions body.toList, IsExpression expression := fun _ member =>
    told.isExpression (expressions_eq body.toList ▸ member)
  have restorable : Restorable (blanks ++ (text ++ '>' :: rest)) :=
    masked ▸ told.restorable unmarked
  have again := ((restorable.put_class plainClass).told closed).read
  rw [trims] at hasRoot
  obtain ⟨shown, put, start, kept⟩ := hasRoot.put_class plainClass head unslashed passes
  have trimsAgain : trim ([] ++ (blanks ++ (classTag scope.toList text ++ rest))) =
      shown ++ '>' :: trimEnd rest := by
    rw [List.nil_append, put, List.append_assoc]
    show trimEnd (trimStart (blanks ++ (shown ++ '>' :: rest))) = _
    rw [trimStart_blanks blank start]
    exact trimEnd_append_cons (by decide) shown rest
  rw [← trimsAgain] at kept
  rw [String.toList_ofList, mask, ← written_restored, again]
  exact kept.remask 0

/-- Whatever body is analysed to have a root, and whatever component the class of the scope is that
of, the class is injected, and the markup with it is analysed to have a root of the same kind with
the same tag, if the body does not hold the reserved text of placeholders. A document with the body
for its markup compiles to the markup with the class, and to the kind of root of the analysis. -/
theorem compile_keeps_root (name body : String) :
    ((analyze body).kind ≠ .normal →
      ∃ markup, injectClass body (scopeClassOf name) = some markup ∧
        (¬ placeholderHead <:+: body.toList →
          (analyze markup).kind = (analyze body).kind ∧
            (analyze markup).tag = (analyze body).tag)) ∧
    ∀ source options, (Blocks.ofSource source).markup = some body →
      (Component.compile name source options).rootKind = (analyze body).kind ∧
      ((analyze body).kind ≠ .normal → injectClass body (scopeClassOf name) =
        some (Component.compile name source options).markup) := by
  have plainClass := plainClass_scopeClassOf name
  refine ⟨exists_injectClass_of_root plainClass, fun source options block => ?_⟩
  simp only [Component.compile, block, Component.scopeMarkup]
  by_cases rootless : (analyze body).kind = .normal
  · simp [rootless]
  · obtain ⟨markup, injected, -⟩ := exists_injectClass_of_root plainClass rootless
    simp [rootless, injected]

/-- A badge keeps its root, though its class takes the start of the placeholder of an expression, so
that another number is put in the next one. -/
theorem compile_keeps_root_badge :
    let body := "\n<b title='1 > 0' class=__scoped_expr_0\x7b\x7b.a\x7d\x7d>\x7b\x7b.b\x7d\x7d</b>"
    let source := "<template>" ++ body ++ "</template>"
    let markup := "\n<b title='1 > 0' class=\"s-ca9781 __scoped_expr_0__\"SCOPED_EXPR_0__>" ++
      "\x7b\x7b.b\x7d\x7d</b>"
    (analyze body).kind = .single ∧ ¬ placeholderHead <:+: body.toList ∧
    (Blocks.ofSource source).markup = some body ∧
    injectClass body (scopeClassOf "a") = some markup ∧
    (analyze markup).kind = .single ∧ (analyze markup).tag = some "b" ∧
    (Component.compile "a" source .default).rootKind = .single ∧
    (Component.compile "a" source .default).markup = markup := by
  intro body source markup
  have analyzed : analyze body = ⟨.single, some "b", []⟩ := by decide +kernel
  have rooted : (analyze body).kind ≠ .normal := by
    rw [analyzed]
    decide
  have free : ¬ placeholderHead <:+: body.toList := by decide +kernel
  have block : (Blocks.ofSource source).markup = some body := by decide +kernel
  have made : injectClass body (scopeClassOf "a") = some markup := by decide +kernel
  obtain ⟨injects, compiles⟩ := compile_keeps_root "a" body
  obtain ⟨given, injected, keeps⟩ := injects rooted
  obtain rfl := Option.some.inj (made.symm.trans injected)
  obtain ⟨kind, tag⟩ := keeps free
  obtain ⟨compiled, written⟩ := compiles source .default block
  rw [analyzed] at kind tag compiled
  exact ⟨by rw [analyzed], free, block, made, kind, tag, compiled,
    (Option.some.inj (made.symm.trans (written rooted))).symm⟩

end ComponentPages.Markup
