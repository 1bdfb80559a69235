import ComponentPages.Proofs.Template.Actions
import Mathlib

/-!
# Texts around a template

A text in front of a template, or behind it, is written as it is when no action reaches it. An
action reaches a text by trimming its blanks, or if a brace of the text starts or ends it; `Leading`
and `Trailing` exclude both. Such a text goes with the text that the template starts or ends with
(`exists_readSegments_leading`, `exists_readSegments_trailing`), and the blocks of the template are
read independently of the nodes in front of them (`Reading.foldlM_behind`).
-/

namespace ComponentPages.Template

open Text

/-- A text that no action behind it reaches: it starts none, and does not end with a blank. -/
structure Leading (front : List Char) : Prop where
  plain : '{' ∉ front
  solid : ∃ others c, front = others ++ [c] ∧ isBlank c = false

/-- A text that no action in front of it reaches: it starts and ends none, and does not start with a
blank. -/
structure Trailing (back : List Char) : Prop where
  plain : '{' ∉ back
  unclosing : '}' ∉ back
  solid : ∃ c others, back = c :: others ∧ isBlank c = false

/-- The text of an action without the mark that asks to trim the text before it. -/
def withoutFrontMark (inner : List Char) : List Char :=
  if trimsBefore inner then inner.drop 1 else inner

/-- What is kept of a text that follows an action, if that asks to trim it. -/
def keptAfter (trimming : Bool) (text : List Char) : List Char :=
  if trimming then trimStart text else text

/-- What is kept of a text in front of an action. -/
def keptBefore (inner text : List Char) : List Char :=
  if trimsBefore inner then trimEnd text else text

/-- The segments of an action and of the text after it. -/
def segmentsFrom (inner after : List Char) : Except ParseFault (List Segment) := do
  let here ← actionSegment (trim (withoutMarks inner))
  let others ← readSegments (trimsAfter (withoutFrontMark inner)) after
  .ok (here ++ others)

section Reading

/-- The mark of an action for the text before it has effect on that text and goes from the
action. -/
theorem frontMark_eq (inner text : List Char) :
    (if trimsBefore inner then (trimEnd text, inner.drop 1) else (text, inner)) =
      (keptBefore inner text, withoutFrontMark inner) := by
  rw [keptBefore, withoutFrontMark]
  split <;> rfl

/-- The mark of an action for the text after it has effect on that text and goes from the action. -/
theorem backMark_eq (inner : List Char) :
    (if trimsAfter (withoutFrontMark inner) then (true, (withoutFrontMark inner).dropLast)
      else (false, withoutFrontMark inner)) =
      (trimsAfter (withoutFrontMark inner), withoutMarks inner) := by
  show _ = (_, if trimsAfter (withoutFrontMark inner) then (withoutFrontMark inner).dropLast
    else withoutFrontMark inner)
  split <;> simp_all

/-- The segments of a template are the text before its first action and the segments from there
on. -/
theorem readSegments_eq (trimming : Bool) (source : List Char) :
    readSegments trimming source =
      match cut ['{', '{'] source with
      | none => .ok (textSegment (keptAfter trimming source))
      | some (before, rest) =>
        match cutAction none rest with
        | none => .error .unclosedAction
        | some (inner, after) =>
          (segmentsFrom inner after).map
            (textSegment (keptBefore inner (keptAfter trimming before)) ++ ·) := by
  rw [readSegments]
  split
  · rename_i unopened
    rw [unopened]
    rfl
  · rename_i before rest opened
    simp only [opened]
    split
    · rename_i unclosed
      rw [unclosed]
    · rename_i inner after closed
      simp only [closed, frontMark_eq, backMark_eq, segmentsFrom]
      cases actionSegment (trim (withoutMarks inner)) with
      | error fault => rfl
      | ok here =>
        cases readSegments (trimsAfter (withoutFrontMark inner)) after with
        | error fault => rfl
        | ok others => exact congrArg Except.ok (List.append_assoc _ _ _)

/-- Segments from an action on are those of the action and those of the text after it. -/
theorem exists_of_segmentsFrom {inner after : List Char} {parts : List Segment}
    (read : segmentsFrom inner after = .ok parts) :
    ∃ here, actionSegment (trim (withoutMarks inner)) = .ok here ∧
      ∃ others, readSegments (trimsAfter (withoutFrontMark inner)) after = .ok others ∧
        parts = here ++ others := by
  obtain ⟨here, said, later⟩ := exists_of_bind_ok read
  obtain ⟨others, next, same⟩ := exists_of_bind_ok later
  exact ⟨here, said, others, next, (Except.ok.inj same).symm⟩

/-- An action without a mark for the text before it, behind a template that does not end with an
opening brace, is the first action behind those of the template. -/
theorem readSegments_append_action {source rest inner after : List Char} {parts : List Segment}
    {trimming : Bool} (read : readSegments trimming source = .ok parts)
    (apart : source.getLast? ≠ some '{') (closed : cutAction none rest = some (inner, after))
    (unmarked : trimsBefore inner = false) :
    readSegments trimming (source ++ '{' :: '{' :: rest) =
      (segmentsFrom inner after).map (parts ++ ·) := by
  rw [readSegments_eq] at read ⊢
  cases opened : cut ['{', '{'] source with
  | none =>
    rw [opened] at read
    obtain rfl := Except.ok.inj read
    have free : ¬ ['{', '{'] <:+: source := by
      rintro ⟨before, behind, rfl⟩
      obtain ⟨found, cuts⟩ := exists_cut (List.cons_ne_nil '{' ['{']) before behind
      exact absurd (cuts.symm.trans opened) (Option.some_ne_none found)
    rw [cut_doubled free apart]
    simp only [closed, keptBefore, unmarked, if_neg Bool.false_ne_true]
  | some found =>
    obtain ⟨before, started⟩ := found
    rw [opened] at read
    rw [cut_append_right (List.cons_ne_nil _ _) opened]
    cases ended : cutAction none started with
    | none =>
      simp only [ended] at read
      cases read
    | some found =>
      obtain ⟨first, behind⟩ := found
      simp only [ended] at read
      simp only [cutAction_append ended]
      obtain ⟨found, later, rfl⟩ := exists_of_map_ok read
      have last : behind.getLast? ≠ some '{' := by
        intro brace
        have whole : source = (before ++ '{' :: '{' :: (first ++ ['\x7d', '\x7d'])) ++ behind := by
          rw [eq_append_of_cut opened, eq_append_of_cutAction ended]
          simp
        exact apart (by rw [whole, List.getLast?_append, brace, Option.some_or])
      obtain ⟨here, said, others, next, rfl⟩ := exists_of_segmentsFrom later
      have following := readSegments_append_action next last closed unmarked
      rw [segmentsFrom, said, following]
      cases segmentsFrom inner after with
      | error fault => rfl
      | ok segments => exact congrArg Except.ok (by simp)
termination_by source.length
decreasing_by
  rw [eq_append_of_cut opened, eq_append_of_cutAction ended]
  simp only [List.length_append, List.length_cons]
  omega

end Reading

section Affixes

variable {front back : List Char}

/-- A text is cut at a word behind a front that has no part of the word. -/
theorem cut_leading (plain : '{' ∉ front) (source : List Char) :
    cut ['{', '{'] (front ++ source) =
      (cut ['{', '{'] source).map fun (before, rest) => (front ++ before, rest) := by
  induction front with
  | nil => simp
  | cons c front ih =>
    obtain ⟨other, later⟩ := not_or.1 (mt List.mem_cons.2 plain)
    have apart : ¬ ['{', '{'] <+: c :: (front ++ source) := by
      rintro ⟨others, same⟩
      exact other (List.cons.inj same).1
    rw [List.cons_append, cut_cons apart, ih later, Option.map_map]
    rfl

/-- In front of an action, a text behind a leading one is kept as it is alone. -/
theorem keptBefore_leading (leading : Leading front) (inner text : List Char) :
    keptBefore inner (front ++ text) = front ++ keptBefore inner text := by
  obtain ⟨others, c, rfl, solid⟩ := leading.solid
  rw [keptBefore, keptBefore]
  split
  · rw [List.append_assoc, List.singleton_append, trimEnd_append_cons solid, List.append_assoc,
      List.singleton_append]
  · rfl

/-- A text in front of a template goes with the text that the template starts with. -/
theorem exists_readSegments_leading (leading : Leading front) (source : List Char) :
    ∃ (text : List Char) (later : Except ParseFault (List Segment)),
      readSegments false source = later.map (textSegment text ++ ·) ∧
      readSegments false (front ++ source) = later.map (textSegment (front ++ text) ++ ·) := by
  rw [readSegments_eq, readSegments_eq, cut_leading leading.plain]
  cases opened : cut ['{', '{'] source with
  | none =>
    refine ⟨source, .ok [], ?_, ?_⟩
    · exact congrArg Except.ok (List.append_nil _).symm
    · exact congrArg Except.ok (List.append_nil _).symm
  | some found =>
    obtain ⟨before, rest⟩ := found
    simp only [Option.map_some]
    cases closed : cutAction none rest with
    | none => exact ⟨[], .error .unclosedAction, rfl, rfl⟩
    | some found =>
      obtain ⟨inner, after⟩ := found
      refine ⟨keptBefore inner before, segmentsFrom inner after, rfl, ?_⟩
      simp only [keptAfter]
      rw [← keptBefore_leading leading]
      rfl

/-- An action ends where a doubled brace is. -/
theorem cutAction_eq_none {quote : Option Char} {text : List Char}
    (free : ¬ ['}', '}'] <:+: text) : cutAction quote text = none := by
  cases found : cutAction quote text with
  | none => rfl
  | some parts =>
    refine absurd ⟨parts.1, parts.2, ?_⟩ free
    rw [eq_append_of_cutAction found]
    simp

/-- An action that does not end has no end in a trailing text. -/
theorem cutAction_trailing (trailing : Trailing back) {quote : Option Char} {text : List Char}
    (unclosed : cutAction quote text = none) : cutAction quote (text ++ back) = none := by
  have last (c : Char) (quote : Option Char) : cutAction quote (c :: back) = none := by
    refine cutAction_eq_none fun inside => ?_
    rcases List.infix_cons_iff.1 inside with ⟨others, starts⟩ | later
    · exact trailing.unclosing (by rw [← (List.cons.inj starts).2]; simp)
    · exact trailing.unclosing (later.subset (by simp))
  fun_induction cutAction quote text with
  | case1 =>
    exact cutAction_eq_none fun inside => trailing.unclosing (inside.subset (by simp))
  | case2 c rest ih =>
    rw [Option.map_eq_none_iff] at unclosed
    rw [List.cons_append, List.cons_append, cutAction, ih unclosed, Option.map_none]
  | case3 quote c rest unescaped ih =>
    rw [Option.map_eq_none_iff] at unclosed
    cases rest with
    | nil => exact last c (some quote)
    | cons next rest =>
      have kept : ∀ (other : Char) (others : List Char), quote = '"' → c = '\\' →
          next :: rest ++ back = other :: others → False :=
        fun other others double escape _ => unescaped next rest double escape rfl
      rw [List.cons_append, cutAction.eq_3 _ _ _ kept, ih unclosed, Option.map_none]
  | case4 rest => cases unclosed
  | case5 c rest unended ih =>
    rw [Option.map_eq_none_iff] at unclosed
    cases rest with
    | nil => exact last c none
    | cons next rest =>
      have kept : ∀ others : List Char, c = '}' → next :: rest ++ back = '}' :: others → False := by
        intro others brace starts
        obtain ⟨rfl, -⟩ := List.cons.inj starts
        exact unended rest brace rfl
      rw [List.cons_append, cutAction.eq_5 _ _ kept, ih unclosed, Option.map_none]

/-- After an action, a text in front of a trailing one is kept as it is alone. -/
theorem keptAfter_trailing (trailing : Trailing back) (trimming : Bool) (text : List Char) :
    keptAfter trimming (text ++ back) = keptAfter trimming text ++ back := by
  obtain ⟨c, others, rfl, solid⟩ := trailing.solid
  rw [keptAfter, keptAfter]
  split
  · rw [trimStart, trimStart, List.dropWhile_append]
    split
    · rename_i blank
      rw [List.isEmpty_iff.1 blank, List.dropWhile_cons_of_neg (by simp [solid]), List.nil_append]
    · rfl
  · rfl

/-- No action starts across the seam to a trailing text. -/
theorem cut_trailing (trailing : Trailing back) {source : List Char}
    (unopened : cut ['{', '{'] source = none) : cut ['{', '{'] (source ++ back) = none := by
  induction source with
  | nil => exact cut_eq_none fun inside => trailing.plain (inside.subset (by simp))
  | cons c source ih =>
    have apart : ¬ ['{', '{'] <+: c :: source := by
      rintro ⟨others, same⟩
      rw [← same, cut_append (by simp)] at unopened
      exact nomatch unopened
    have seam : ¬ ['{', '{'] <+: c :: (source ++ back) := by
      rintro ⟨others, same⟩
      obtain ⟨rfl, second⟩ := List.cons.inj same
      cases source with
      | nil => exact trailing.plain (by rw [List.nil_append] at second; simp [← second])
      | cons next source =>
        obtain ⟨rfl, -⟩ := List.cons.inj second
        exact apart ⟨source, rfl⟩
    rw [cut_cons apart, Option.map_eq_none_iff] at unopened
    rw [List.cons_append, cut_cons seam, ih unopened, Option.map_none]

/-- A text behind a template goes with the text that the template ends with. -/
theorem exists_readSegments_trailing (trailing : Trailing back) (trimming : Bool)
    (source : List Char) :
    ∃ (text : List Char) (earlier : Except ParseFault (List Segment)),
      readSegments trimming source = earlier.map (· ++ textSegment text) ∧
      readSegments trimming (source ++ back) = earlier.map (· ++ textSegment (text ++ back)) := by
  rw [readSegments_eq, readSegments_eq]
  cases opened : cut ['{', '{'] source with
  | none =>
    rw [cut_trailing trailing opened]
    exact ⟨keptAfter trimming source, .ok [], rfl,
      by rw [keptAfter_trailing trailing]; rfl⟩
  | some found =>
    obtain ⟨before, rest⟩ := found
    rw [cut_append_right (by simp) opened]
    simp only
    cases closed : cutAction none rest with
    | none =>
      rw [cutAction_trailing trailing closed]
      exact ⟨[], .error .unclosedAction, rfl, rfl⟩
    | some found =>
      obtain ⟨inner, after⟩ := found
      rw [cutAction_append closed]
      obtain ⟨text, earlier, alone, behind⟩ :=
        exists_readSegments_trailing trailing (trimsAfter (withoutFrontMark inner)) after
      simp only [segmentsFrom, alone, behind]
      cases actionSegment (trim (withoutMarks inner)) with
      | error fault => exact ⟨[], .error fault, rfl, rfl⟩
      | ok here =>
        cases earlier with
        | error fault => exact ⟨[], .error fault, rfl, rfl⟩
        | ok others =>
          refine ⟨text, .ok (textSegment (keptBefore inner (keptAfter trimming before)) ++ here ++
            others), ?_, ?_⟩
          · show Except.ok _ = Except.ok _
            simp
          · show Except.ok _ = Except.ok _
            simp
termination_by source.length
decreasing_by
  rw [eq_append_of_cut opened, eq_append_of_cutAction closed]
  simp only [List.length_append, List.length_cons]
  omega

end Affixes

section Nodes

/-- The node of a text, if there is any text. -/
def textNodes (text : List Char) : List Node :=
  if text.isEmpty then [] else [.text (String.ofList text)]

namespace Reading

/-- Open blocks with nodes in front of the outermost one. -/
def blocksBehind (front : List Node) : List (OpenBlock × List Node) → List (OpenBlock × List Node)
  | [] => []
  | [(block, before)] => [(block, front ++ before)]
  | block :: next :: outer => block :: blocksBehind front (next :: outer)

/-- A reading of a template with nodes in front of it. -/
def behind (front : List Node) (reading : Reading) : Reading :=
  match reading.blocks with
  | [] => ⟨front ++ reading.nodes, []⟩
  | blocks => ⟨reading.nodes, blocksBehind front blocks⟩

variable (front : List Node)

/-- Adding a node is independent of the nodes in front of the template. -/
theorem add_behind (reading : Reading) (node : Node) :
    (reading.behind front).add node = (reading.add node).behind front := by
  obtain ⟨nodes, _ | ⟨block, outer⟩⟩ := reading
  · simp [behind, add]
  · rfl

/-- Opening a block is independent of the nodes in front of the template. -/
theorem enter_behind (reading : Reading) (block : OpenBlock) :
    (reading.behind front).enter block = (reading.enter block).behind front := by
  obtain ⟨nodes, _ | ⟨next, outer⟩⟩ := reading
  · rfl
  · rfl

/-- The innermost block stays the innermost one, and a node in its place comes to stand behind the
same nodes. -/
theorem exists_behind (before : List Node) (outer : List (OpenBlock × List Node)) :
    ∃ shown others,
      (∀ nodes block, behind front ⟨nodes, (block, before) :: outer⟩ =
        ⟨nodes, (block, shown) :: others⟩) ∧
      ∀ node, behind front ⟨before ++ [node], outer⟩ = ⟨shown ++ [node], others⟩ := by
  cases outer with
  | nil => exact ⟨front ++ before, [], fun nodes block => rfl, fun node => by simp [behind]⟩
  | cons next outer =>
    exact ⟨before, blocksBehind front (next :: outer), fun nodes block => rfl, fun node => rfl⟩

/-- What an action does is independent of the nodes in front of the template. -/
theorem act_behind (reading : Reading) (action : Action) :
    (reading.behind front).act action = (reading.act action).map (behind front) := by
  cases action with
  | output pipeline => exact congrArg Except.ok (add_behind front reading (.output pipeline))
  | openIf condition =>
    exact congrArg Except.ok (enter_behind front reading (.branch [] condition))
  | openRange source => exact congrArg Except.ok (enter_behind front reading (.range source))
  | openWith value => exact congrArg Except.ok (enter_behind front reading (.within value))
  | elseIf condition =>
    obtain ⟨nodes, _ | ⟨⟨block, before⟩, outer⟩⟩ := reading
    · rfl
    · obtain ⟨shown, others, same, -⟩ := exists_behind front before outer
      rw [same]
      simp only [act]
      cases block.toElseIf nodes condition with
      | error fault => rfl
      | ok later => exact congrArg Except.ok (same [] later).symm
  | elseOnly =>
    obtain ⟨nodes, _ | ⟨⟨block, before⟩, outer⟩⟩ := reading
    · rfl
    · obtain ⟨shown, others, same, -⟩ := exists_behind front before outer
      rw [same]
      simp only [act]
      cases block.toElse nodes with
      | error fault => rfl
      | ok later => exact congrArg Except.ok (same [] later).symm
  | endBlock =>
    obtain ⟨nodes, _ | ⟨⟨block, before⟩, outer⟩⟩ := reading
    · rfl
    · obtain ⟨shown, others, same, ends⟩ := exists_behind front before outer
      rw [same]
      exact congrArg Except.ok (ends (block.close nodes)).symm

/-- What a segment does is independent of the nodes in front of the template. -/
theorem step_behind (reading : Reading) (segment : Segment) :
    (reading.behind front).step segment = (reading.step segment).map (behind front) := by
  cases segment with
  | text content => exact congrArg Except.ok (add_behind front reading (.text content))
  | action tokens =>
    rw [step, step]
    cases Action.ofTokens tokens with
    | error fault => rfl
    | ok action => exact act_behind front reading action

/-- What segments do is independent of the nodes in front of the template. -/
theorem foldlM_behind (segments : List Segment) (reading : Reading) :
    segments.foldlM step (reading.behind front) =
      (segments.foldlM step reading).map (behind front) := by
  induction segments generalizing reading with
  | nil => rfl
  | cons segment segments ih =>
    rw [List.foldlM_cons, List.foldlM_cons, step_behind]
    cases reading.step segment with
    | error fault => rfl
    | ok next => exact ih next

/-- A template ends with nodes in front of it if it ends without them. -/
theorem finish_behind (reading : Reading) :
    (reading.behind front).finish = reading.finish.map (front ++ ·) := by
  obtain ⟨nodes, _ | ⟨⟨block, before⟩, outer⟩⟩ := reading
  · rfl
  · obtain ⟨shown, others, same, -⟩ := exists_behind front before outer
    rw [same]
    rfl

end Reading

/-- The nodes of segments behind those of a template are behind the nodes of the template. -/
theorem ofSegments_append {parts : List Segment} {nodes : List Node}
    (made : Node.ofSegments parts = .ok nodes) (others : List Segment) :
    Node.ofSegments (parts ++ others) = (Node.ofSegments others).map (nodes ++ ·) := by
  have read : parts.foldlM Reading.step ⟨[], []⟩ = .ok (Reading.behind nodes ⟨[], []⟩) := by
    change (parts.foldlM Reading.step ⟨[], []⟩).bind Reading.finish = _ at made
    cases read : parts.foldlM Reading.step ⟨[], []⟩ with
    | error fault =>
      rw [read] at made
      cases made
    | ok reading =>
      rw [read] at made
      obtain ⟨found, _ | ⟨block, blocks⟩⟩ := reading
      · obtain rfl : found = nodes := Except.ok.inj made
        rw [Reading.behind, List.append_nil]
      · cases made
  rw [Node.ofSegments, Node.ofSegments, List.foldlM_append, read]
  show (List.foldlM _ (Reading.behind _ _) others >>= _) = _
  rw [Reading.foldlM_behind]
  cases others.foldlM Reading.step ⟨[], []⟩ with
  | error fault => rfl
  | ok reading => exact Reading.finish_behind _ reading

/-- The nodes of a text and of segments behind it. -/
theorem ofSegments_textSegment_append (text : List Char) (segments : List Segment) :
    Node.ofSegments (textSegment text ++ segments) =
      (Node.ofSegments segments).map (textNodes text ++ ·) := by
  refine ofSegments_append ?_ segments
  rw [textSegment, textNodes]
  split <;> rfl

/-- The nodes of segments and of a text behind them. -/
theorem ofSegments_append_textSegment (segments : List Segment) (text : List Char) :
    Node.ofSegments (segments ++ textSegment text) =
      (Node.ofSegments segments).map (· ++ textNodes text) := by
  rw [textSegment, textNodes]
  split
  · rw [List.append_nil]
    cases Node.ofSegments segments with
    | error fault => rfl
    | ok nodes => exact congrArg Except.ok (List.append_nil nodes).symm
  · rw [Node.ofSegments, Node.ofSegments, List.foldlM_append]
    cases segments.foldlM Reading.step ⟨[], []⟩ with
    | error fault => rfl
    | ok reading =>
      obtain ⟨nodes, _ | ⟨block, outer⟩⟩ := reading
      · rfl
      · rfl

end Nodes

section Evaluation

variable {σ : Type} (setting : Setting σ) (dot : Value)

/-- Nodes that follow others write behind them. -/
theorem evaluateAll_append (nodes others : List Node) :
    Node.evaluateAll setting dot (nodes ++ others) = (do
      let output ← Node.evaluateAll setting dot nodes
      let outputs ← Node.evaluateAll setting dot others
      pure (output ++ outputs)) := by
  induction nodes with
  | nil =>
    simp only [List.nil_append, Node.evaluateAll, pure_bind, String.empty_append, bind_pure]
  | cons node nodes ih =>
    simp only [List.cons_append, Node.evaluateAll, ih, bind_assoc, pure_bind, String.append_assoc]

/-- The node of a text writes the text. -/
theorem evaluateAll_textNodes (text : List Char) :
    Node.evaluateAll setting dot (textNodes text) = pure (String.ofList text) := by
  rw [textNodes]
  split
  · rename_i empty
    rw [List.isEmpty_iff.1 empty]
    rfl
  · simp [Node.evaluateAll, Node.evaluate]

/-- The node of an output writes the value of its pipeline. -/
theorem evaluateAll_output (pipeline : Pipeline) :
    Node.evaluateAll setting dot [.output pipeline] =
      written <$> pipeline.evaluate setting dot := by
  simp only [Node.evaluateAll, Node.evaluate, map_eq_pure_bind, bind_assoc, pure_bind,
    String.append_empty]

end Evaluation

section Parsing

/-- What parsing two templates gives, where the second is to write what the first writes, edited:
the same fault, or nodes of which those of the second do so for all data and hosts. -/
inductive Edited (edit : String → String) :
    Except ParseFault (List Node) → Except ParseFault (List Node) → Prop where
  | error (fault : ParseFault) : Edited edit (.error fault) (.error fault)
  | ok {nodes others : List Node}
    (writes : ∀ {σ : Type} (setting : Setting σ) (dot : Value),
      Node.evaluateAll setting dot others = edit <$> Node.evaluateAll setting dot nodes) :
    Edited edit (.ok nodes) (.ok others)

/-- Edits follow each other. -/
theorem Edited.trans {edit later : String → String}
    {first second third : Except ParseFault (List Node)} (edited : Edited edit first second)
    (more : Edited later second third) : Edited (later ∘ edit) first third := by
  cases edited with
  | error fault =>
    cases more with
    | error => exact .error fault
  | ok writes =>
    cases more with
    | ok again =>
      refine .ok fun setting dot => ?_
      rw [again setting dot, writes setting dot, Functor.map_map]
      rfl

/-- The nodes of a template. -/
def nodesOf (source : List Char) : Except ParseFault (List Node) :=
  segments source >>= Node.ofSegments

variable {front back : List Char}

/-- A leading text is written in front of what the template writes. -/
theorem edited_leading (leading : Leading front) (source : List Char) :
    Edited (String.ofList front ++ ·) (nodesOf source) (nodesOf (front ++ source)) := by
  obtain ⟨text, later, alone, behind⟩ := exists_readSegments_leading leading source
  rw [nodesOf, nodesOf, segments, segments, alone, behind]
  cases later with
  | error fault => exact .error fault
  | ok parts =>
    show Edited _ (Node.ofSegments (textSegment text ++ parts))
      (Node.ofSegments (textSegment (front ++ text) ++ parts))
    rw [ofSegments_textSegment_append, ofSegments_textSegment_append]
    cases Node.ofSegments parts with
    | error fault => exact .error fault
    | ok nodes =>
      refine .ok fun setting dot => ?_
      simp only [evaluateAll_append, evaluateAll_textNodes, String.ofList_append, pure_bind,
        map_eq_pure_bind, bind_assoc, String.append_assoc]

/-- A trailing text is written behind what the template writes. -/
theorem edited_trailing (trailing : Trailing back) (source : List Char) :
    Edited (· ++ String.ofList back) (nodesOf source) (nodesOf (source ++ back)) := by
  obtain ⟨text, earlier, alone, before⟩ := exists_readSegments_trailing trailing false source
  rw [nodesOf, nodesOf, segments, segments, alone, before]
  cases earlier with
  | error fault => exact .error fault
  | ok parts =>
    show Edited _ (Node.ofSegments (parts ++ textSegment text))
      (Node.ofSegments (parts ++ textSegment (text ++ back)))
    rw [ofSegments_append_textSegment, ofSegments_append_textSegment]
    cases Node.ofSegments parts with
    | error fault => exact .error fault
    | ok nodes =>
      refine .ok fun setting dot => ?_
      simp only [evaluateAll_append, evaluateAll_textNodes, String.ofList_append, pure_bind,
        map_eq_pure_bind, bind_assoc, String.append_assoc]

/-- Parsing gives the nodes of the template, under its name. -/
theorem parse_eq (name source : String) :
    parse name source =
      match nodesOf source.toList with
      | .ok nodes => .ok ⟨name, nodes⟩
      | .error fault => .error (.templateParse name fault) := rfl

/-- A template whose segments stand for nodes has these nodes. -/
theorem parse_of_readSegments {source : String} {parts : List Segment} {nodes : List Node}
    (read : readSegments false source.toList = .ok parts) (made : Node.ofSegments parts = .ok nodes)
    (name : String) : parse name source = .ok ⟨name, nodes⟩ := by
  have whole : nodesOf source.toList = .ok nodes := by
    rw [nodesOf, segments, read]
    exact made
  rw [parse_eq, whole]

/-- A template that parses has the nodes of its segments, under its name. -/
theorem exists_of_parse_ok {name source : String} {template : Template}
    (parsed : parse name source = .ok template) :
    ∃ parts nodes, readSegments false source.toList = .ok parts ∧
      Node.ofSegments parts = .ok nodes ∧ template = ⟨name, nodes⟩ := by
  rw [parse_eq] at parsed
  cases made : nodesOf source.toList with
  | error fault =>
    rw [made] at parsed
    cases parsed
  | ok nodes =>
    rw [made] at parsed
    obtain ⟨parts, read, later⟩ := exists_of_bind_ok made
    exact ⟨parts, nodes, read, later, (Except.ok.inj parsed).symm⟩

/-- A template between texts that its actions do not reach is parsed as it is alone, and what it
writes stands between these texts. -/
theorem parse_between (leading : Leading front) (trailing : Trailing back) (name body : String) :
    (∀ failure, parse name (String.ofList front ++ body ++ String.ofList back) = .error failure ↔
      parse name body = .error failure) ∧
    ∀ template, parse name body = .ok template → ∃ wrapped : Template,
      parse name (String.ofList front ++ body ++ String.ofList back) = .ok wrapped ∧
      ∀ {σ : Type} (data : Value) (host : Host σ), wrapped.execute data host =
        (fun html => String.ofList front ++ html ++ String.ofList back) <$>
          template.execute data host := by
  have edited := (edited_leading leading body.toList).trans
    (edited_trailing trailing (front ++ body.toList))
  have whole : (String.ofList front ++ body ++ String.ofList back).toList =
      front ++ body.toList ++ back := by simp
  rw [parse_eq, parse_eq, whole]
  generalize nodesOf body.toList = alone, nodesOf (front ++ body.toList ++ back) = between at edited
  cases edited with
  | error fault => exact ⟨fun failure => Iff.rfl, nofun⟩
  | @ok nodes others writes =>
    refine ⟨fun failure => ⟨nofun, nofun⟩, fun template parsed => ?_⟩
    obtain rfl := Except.ok.inj parsed
    exact ⟨⟨name, others⟩, rfl, fun data host => writes ⟨name, data, host⟩ data⟩

end Parsing

end ComponentPages.Template
