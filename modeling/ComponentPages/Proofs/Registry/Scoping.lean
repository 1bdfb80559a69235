import ComponentPages.Proofs.Markup.OpeningTag
import ComponentPages.Proofs.Markup.ScopeClass
import ComponentPages.Proofs.Template.Actions
import ComponentPages.Registry

/-!
# Scoping and the actions of a template

Scoping puts a class into markup that is going to be parsed as a template. What it puts there is
no part of an action, so the actions of the markup are kept as long as the class does not land
inside of one. Markup without a root is wrapped, and keeps its actions always. Markup with a root
keeps them if it can be injected safely (`Injectable`): its texts do not start like placeholders,
and each expression in the tag of the root is a whole action. Then the scoped markup parses, and
to the same actions (`compile_keeps_actions`). The second condition is needed, since an
expression ends at the first two closing braces, also in a quoted text, and an action does not
(`compile_splits_action`).
-/
namespace ComponentPages

open Text Markup Template

namespace Markup

/-- Markup on whose root a class can be put without touching an action. -/
structure Injectable (markup : List Char) : Prop where
  /-- No text outside of the expressions starts like a placeholder. -/
  unreserved : Unreserved (textsOf (readExpression.pieces markup))
  /-- Each expression in the tag of the root ends where an action does. -/
  whole : ∀ expression ∈ openingExpressions markup, (actionTexts expression).isSome = true

section Actions

variable {pieces others : List Piece} {rest source : List Char}

/-- An expression that is a whole action, and ends with a brace. -/
structure Whole (expression : List Char) : Prop where
  closed : (actionTexts expression).isSome = true
  brace : expression.getLast? = some '}'

/-- The actions of an expression. -/
def actionsIn (expression : List Char) : List (List Char) := (actionTexts expression).getD []

/-- The first actions of a whole expression and what follows it are those of the expression. -/
theorem Whole.actionTexts_append {expression : List Char} (whole : Whole expression)
    (rest : List Char) :
    actionTexts (expression ++ rest) = (actionTexts rest).map (actionsIn expression ++ ·) := by
  obtain ⟨inners, closed⟩ := Option.isSome_iff_exists.1 whole.closed
  have apart : expression.getLast? ≠ some '{' ∨ rest.head? ≠ some '{' := by
    rw [whole.brace]
    exact .inl (by decide)
  rw [Template.actionTexts_append closed apart, actionsIn, closed, Option.getD_some]

/-- The actions of pieces that are apart are those of their expressions. -/
theorem actionTexts_written (apart : Apart pieces rest)
    (whole : ∀ expression ∈ expressionsOf pieces, Whole expression) :
    actionTexts (written pieces ++ rest) =
      (actionTexts rest).map ((expressionsOf pieces).flatMap actionsIn ++ ·) := by
  induction pieces with
  | nil => exact (congrFun Option.map_id (actionTexts rest)).symm
  | cons piece pieces ih =>
    cases piece with
    | inl c =>
      show actionTexts (c :: (written pieces ++ rest)) = _
      rw [actionTexts_cons apart.1]
      exact ih apart.2 whole
    | inr expression =>
      obtain ⟨first, later⟩ := List.forall_mem_cons.1 whole
      have here : written (.inr expression :: pieces) ++ rest =
          expression ++ (written pieces ++ rest) := List.append_assoc _ _ _
      rw [here, first.actionTexts_append, ih apart later, Option.map_map]
      show _ = (actionTexts rest).map ((expression :: expressionsOf pieces).flatMap actionsIn ++ ·)
      rw [List.flatMap_cons]
      congr 1
      funext inners
      exact (List.append_assoc _ _ _).symm

/-- Where an action starts and ends, an expression is read. -/
theorem exists_readExpression (closed : (actionTexts ('{' :: '{' :: rest)).isSome = true) :
    ∃ found, readExpression ('{' :: '{' :: rest) = some found := by
  obtain ⟨inners, texts⟩ := Option.isSome_iff_exists.1 closed
  cases cuts : cutAction none rest with
  | none =>
    rw [actionTexts] at texts
    split at texts
    · cases texts
    · rename_i found
      cases cuts.symm.trans found
  | some found =>
    obtain ⟨inner, after⟩ := found
    obtain ⟨⟨before, behind⟩, ends⟩ : ∃ found, cut ['}', '}'] (inner ++ ['}', '}'] ++ after) =
      some found := exists_cut (by simp) inner after
    have whole : rest = inner ++ ['}', '}'] ++ after := by
      rw [eq_append_of_cutAction cuts]
      simp
    rw [← whole] at ends
    exact ⟨_, by rw [readExpression, ends]; rfl⟩

/-- Where every action of a source ends, no text among the pieces that whole expressions are
between starts like an expression. -/
theorem apart_of_closed (closed : (actionTexts source).isSome = true)
    (split : readExpression.pieces source = pieces ++ others)
    (whole : ∀ expression ∈ expressionsOf pieces, Whole expression) :
    Apart pieces (written others) := by
  induction pieces generalizing source with
  | nil => trivial
  | cons piece pieces ih =>
    cases source with
    | nil =>
      rw [Reader.pieces] at split
      cases split
    | cons c source =>
      cases read : readExpression (c :: source) with
      | none =>
        rw [Reader.pieces_cons read] at split
        obtain ⟨rfl, rest⟩ := List.cons.inj split
        have text : source = written pieces ++ written others := by
          rw [← written_append]
          exact (rest ▸ written_pieces source).symm
        have unopened : ¬ ['{', '{'] <+: c :: source := by
          rintro ⟨after, starts⟩
          rw [← starts] at closed read
          obtain ⟨found, reads⟩ := exists_readExpression closed
          cases read.symm.trans reads
        rw [actionTexts_cons unopened] at closed
        exact ⟨text ▸ unopened, ih closed rest whole⟩
      | some found =>
        obtain ⟨expression, after⟩ := found
        rw [Reader.pieces_of_read read (readExpression_shorter read)] at split
        obtain ⟨rfl, rest⟩ := List.cons.inj split
        obtain ⟨first, later⟩ := List.forall_mem_cons.1 whole
        obtain ⟨-, -, same⟩ := readExpression_eq_some read
        rw [same, first.actionTexts_append, Option.isSome_map] at closed
        exact ih closed rest later

/-- Expressions end with a brace. -/
theorem getLast?_of_mem {expression : List Char}
    (member : expression ∈ expressionsOf (readExpression.pieces source)) :
    expression.getLast? = some '}' := by
  obtain ⟨inner, rfl, -⟩ := (told_pieces source).isExpression member
  rw [List.getLast?_append]
  rfl

/-- A class that is injected safely leaves the actions as they are. -/
theorem actionTexts_injectClass {body scope markup : String} {inners : List (List Char)}
    (closed : actionTexts body.toList = some inners) (injectable : Injectable body.toList)
    (tame : Tame scope.toList) (injected : injectClass body scope = some markup) :
    actionTexts markup.toList = some inners := by
  obtain ⟨opening, edited, rest, split, listed, edits, made⟩ :=
    injectClass_edits tame injectable.unreserved injected
  have whole : ∀ expression ∈ expressionsOf opening, Whole expression := by
    intro expression member
    have among : expression ∈ expressionsOf (readExpression.pieces body.toList) := by
      rw [split, expressionsOf_append]
      exact List.mem_append_left _ member
    exact ⟨injectable.whole expression (listed ▸ member), getLast?_of_mem among⟩
  have apart : Apart opening (written rest) :=
    apart_of_closed (Option.isSome_iff_exists.2 ⟨inners, closed⟩) split whole
  have before : body.toList = written opening ++ written rest := by
    rw [← written_append, ← split, written_pieces]
  have same : expressionsOf edited = expressionsOf opening := edits.keeps.expressions
  rw [before, actionTexts_written apart whole] at closed
  rw [made, written_append, actionTexts_written (edits.keeps.apart _ apart) (same ▸ whole), same]
  exact closed

/-- Texts around a source without an opening brace leave its actions as they are. -/
theorem actionTexts_between {front back : List Char} {inners : List (List Char)}
    (closed : actionTexts source = some inners) (before : '{' ∉ front) (after : '{' ∉ back) :
    actionTexts (front ++ (source ++ back)) = some inners := by
  have frontApart : front.getLast? ≠ some '{' ∨ (source ++ back).head? ≠ some '{' :=
    .inl fun last => before (List.mem_of_getLast? last)
  have backApart : source.getLast? ≠ some '{' ∨ back.head? ≠ some '{' :=
    .inr fun head => after (List.mem_of_head? head)
  rw [Template.actionTexts_append (actionTexts_of_not_mem before) frontApart,
    Template.actionTexts_append closed backApart, actionTexts_of_not_mem after]
  simp

/-- A wrapper leaves the actions as they are. -/
theorem actionTexts_wrap {body scope tag : String} {inners : List (List Char)}
    (closed : actionTexts body.toList = some inners) (unbraced : '{' ∉ tag.toList)
    (tame : Tame scope.toList) (unwrapped : Bool) :
    actionTexts (wrap body scope tag unwrapped).toList = some inners := by
  have style : '{' ∉ (if unwrapped then " style=\"display: contents\"" else "").toList := by
    cases unwrapped with
    | false => decide
    | true => decide
  have opens : '{' ∉ "<".toList := by decide
  have classes : '{' ∉ " class=\"".toList := by decide
  have quote : '{' ∉ "\"".toList := by decide
  have closes : '{' ∉ ">".toList := by decide
  have ends : '{' ∉ "</".toList := by decide
  unfold wrap
  generalize (if unwrapped then " style=\"display: contents\"" else "") = shown at style ⊢
  have whole : ("<" ++ tag ++ " class=\"" ++ scope ++ "\"" ++ shown ++ ">" ++ body ++ "</" ++
      tag ++ ">").toList =
      ("<" ++ tag ++ " class=\"" ++ scope ++ "\"" ++ shown ++ ">").toList ++
        (body.toList ++ ("</" ++ tag ++ ">").toList) := by
    simp only [String.toList_append, List.append_assoc]
  rw [whole]
  refine actionTexts_between closed ?_ ?_
  · simp only [String.toList_append, List.mem_append, not_or]
    exact ⟨⟨⟨⟨⟨⟨opens, unbraced⟩, classes⟩, tame.brace⟩, quote⟩, style⟩, closes⟩
  · simp only [String.toList_append, List.mem_append, not_or]
    exact ⟨⟨ends, unbraced⟩, closes⟩

end Actions

end Markup

namespace Component

/-- The markup of a component is its body in the scope of the component. -/
theorem markup_compile {name source body : String} {options : Options}
    (block : (Blocks.ofSource source).markup = some body) :
    (compile name source options).markup =
      (scopeMarkup body (scopeClassOf name) options.wrapperTag
        (Blocks.ofSource source).asksUnwrap).1 := by
  unfold compile
  simp only [block]

/-- A body in a scope has a wrapper, or it has a root that the class is injected into. -/
theorem scopeMarkup_cases (body scope tag : String) (unwrapped : Bool) :
    (scopeMarkup body scope tag unwrapped).1 = wrap body scope tag unwrapped ∨
      (analyze body).kind ≠ .normal ∧
        injectClass body scope = some (scopeMarkup body scope tag unwrapped).1 := by
  unfold scopeMarkup
  simp only
  split
  · rename_i markup injected
    split at injected
    · cases injected
    · rename_i rooted
      exact .inr ⟨rooted, injected⟩
  · exact .inl rfl

/-- The markup of a component has the actions of its body, if there is no root or a class can be
put on it. -/
theorem actionTexts_compile {name source body : String} {options : Options}
    {inners : List (List Char)} (block : (Blocks.ofSource source).markup = some body)
    (closed : actionTexts body.toList = some inners) (unbraced : '{' ∉ options.wrapperTag.toList)
    (safe : (analyze body).kind = .normal ∨ Injectable body.toList) :
    actionTexts (compile name source options).markup.toList = some inners := by
  have tame := (plainClass_scopeClassOf name).tame
  rw [markup_compile block]
  rcases scopeMarkup_cases body (scopeClassOf name) options.wrapperTag
    (Blocks.ofSource source).asksUnwrap with wrapped | ⟨rooted, injected⟩
  · rw [wrapped]
    exact actionTexts_wrap closed unbraced tame _
  · exact actionTexts_injectClass closed (safe.resolve_left rooted) tame injected

end Component

namespace Registry

/-- A document whose markup parses in its scope compiles. -/
theorem exists_compile {registry : Registry} {name source : String} {template : Template}
    (parsed : Template.parse name (Component.compile name source registry.options).markup =
      .ok template) :
    ∃ after, registry.compile name source =
      .ok (Component.compile name source registry.options, after) := by
  have named := Component.name_compile name source registry.options
  have registers : ∃ after,
      registry.register (Component.compile name source registry.options) = .ok after := by
    unfold register
    rw [named, parsed]
    exact ⟨_, rfl⟩
  obtain ⟨after, registered⟩ := registers
  refine ⟨after, ?_⟩
  unfold compile
  simp only [registered]
  rfl

/-- Whatever registry, name and plain wrapper are used, a document whose markup is a template
compiles, and its markup in the scope has the same actions, if the markup has no root or the
class can be put on the root without touching an action. -/
theorem compile_keeps_actions (registry : Registry) {name other source body : String}
    {template : Template} (block : (Blocks.ofSource source).markup = some body)
    (accepted : Template.parse other body = .ok template)
    (wrapper : ∀ c ∈ registry.options.wrapperTag.toList, c.isAlphanum = true ∨ c = '-')
    (safe : (analyze body).kind = .normal ∨ Injectable body.toList) :
    ∃ component after tokens, registry.compile name source = .ok (component, after) ∧
      actions body.toList = .ok tokens ∧ actions component.markup.toList = .ok tokens := by
  have unbraced : '{' ∉ registry.options.wrapperTag.toList := fun member =>
    (wrapper '{' member).elim (by decide) (by decide)
  obtain ⟨inners, tokens, closed, read⟩ := exists_of_parse accepted
  have inScope : actionTexts (Component.compile name source registry.options).markup.toList =
      some inners := Component.actionTexts_compile block closed unbraced safe
  have same : actions (Component.compile name source registry.options).markup.toList =
      actions body.toList := by rw [actions_eq inScope, actions_eq closed]
  obtain ⟨made, parsed⟩ := parse_of_actions_eq accepted same
  obtain ⟨after, compiled⟩ := exists_compile parsed
  exact ⟨_, after, tokens, compiled, read, same.trans read⟩

/-- The wrapper that is not chosen is plain. -/
theorem wrapperTag_default :
    ∀ c ∈ Options.default.wrapperTag.toList, c.isAlphanum = true ∨ c = '-' := by
  have all : (Options.default.wrapperTag.toList.all fun c =>
      decide (c.isAlphanum = true ∨ c = '-')) = true := by decide
  exact fun c member => of_decide_eq_true (List.all_eq_true.1 all c member)

/-- Markup whose root has an expression for its class and another in quotes. -/
def badge : String :=
  "<p class=\x7b\x7b.kind\x7d\x7d id=\"\x7b\x7b.id\x7d\x7d\">" ++
    "\x7b\x7bif .on\x7d\x7don\x7b\x7bend\x7d\x7d</p>"

/-- The class of a badge can be put on its root without touching an action. -/
theorem badge_injectable : Injectable badge.toList :=
  ⟨unreserved_of_not_mem (by decide +kernel), by decide +kernel⟩

/-- A badge compiles with the actions that it has. -/
theorem compile_keeps_actions_badge :
    let source := "<template>" ++ badge ++ "</template>"
    (analyze badge).kind = .single ∧ (Blocks.ofSource source).markup = some badge ∧
    (∃ template, Template.parse "badge" badge = .ok template) ∧
    (∀ c ∈ Options.default.wrapperTag.toList, c.isAlphanum = true ∨ c = '-') ∧
    Injectable badge.toList ∧
    ∃ component after tokens,
      (Registry.new .default).compile "badge" source = .ok (component, after) ∧
      actions badge.toList = .ok tokens ∧ actions component.markup.toList = .ok tokens := by
  intro source
  have block : (Blocks.ofSource source).markup = some badge := by decide +kernel
  have parses : (Template.parse "badge" badge).map (fun _ => ()) = .ok () := by decide +kernel
  have wrapper := wrapperTag_default
  obtain ⟨template, parsed, -⟩ := exists_of_map_ok parses
  exact ⟨by decide +kernel, block, ⟨template, parsed⟩, wrapper, badge_injectable,
    compile_keeps_actions (Registry.new .default) block parsed wrapper (.inr badge_injectable)⟩

/-- Markup with a quoted text in the tag of its root that holds two closing braces and the end
of a tag is a template, but does not compile: the class is put into the text. -/
theorem compile_splits_action :
    let body := "<b data-n=\x7b\x7b \"\x7d\x7d>\" \x7d\x7d>x</b>"
    let source := "<template>" ++ body ++ "</template>"
    (Blocks.ofSource source).markup = some body ∧
    (∀ c ∈ Options.default.wrapperTag.toList, c.isAlphanum = true ∨ c = '-') ∧
    (Template.parse "a" body).map (fun _ => ()) = .ok () ∧
    ((Registry.new .default).compile "a" source).map (fun _ => ()) =
      .error (.templateParse "a"
        (.unexpectedCharacter '-' "\"\x7d\x7d class=\"s-ca9781\">\"")) :=
  ⟨by decide +kernel, wrapperTag_default, by decide +kernel, by decide +kernel⟩

/-- The other condition is needed as well: a text that reads like a placeholder is replaced by an
expression, so that markup with one action has two. -/
example :
    ((Registry.new .default).compile "a"
      "<template><p>\x7b\x7b.x\x7d\x7d__SCOPED_EXPR_0__</p></template>").map
        (fun compiled => compiled.1.markup) =
      .ok "<p class=\"s-ca9781\">\x7b\x7b.x\x7d\x7d\x7b\x7b.x\x7d\x7d</p>" := by
  decide +kernel

end Registry

end ComponentPages
