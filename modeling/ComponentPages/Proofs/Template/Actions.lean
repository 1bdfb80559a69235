import ComponentPages.Template
import ComponentPages.Proofs.Text.Cut

/-!
# The actions of a template

What parsing depends on. The actions of a source are cut before anything is read of them
(`actionTexts`), and they say what its segments are but for the stretches of text
(`actions_eq`). Whether the segments are those of a template depends on the actions alone
(`parse_of_actions_eq`). So two sources with the same texts of actions both parse or both do
not, whatever stands around the actions, and texts can be put together where no action starts
across the seam (`actionTexts_append`).
-/
namespace ComponentPages.Template

open Text

/-- The texts of the actions of a source, in order, if every action has an end. -/
def actionTexts : List Char → Option (List (List Char))
  | '{' :: '{' :: rest =>
    match _closed : cutAction none rest with
    | none => none
    | some (inner, after) => (actionTexts after).map (inner :: ·)
  | _ :: rest => actionTexts rest
  | [] => some []
termination_by source => source.length
decreasing_by
  · rw [eq_append_of_cutAction _closed]
    simp only [List.length_append, List.length_cons]
    omega
  · simp

/-- The tokens of the actions among segments, in order. -/
def actionsOf (segments : List Segment) : List (List Token) :=
  segments.filterMap fun
    | .text _ => none
    | .action tokens => some tokens

/-- The tokens of the actions of a source, in order. -/
def actions (source : List Char) : Except ParseFault (List (List Token)) :=
  (segments source).map actionsOf

/-- The text of an action without the marks that ask to trim the text around it. -/
def withoutMarks (inner : List Char) : List Char :=
  let inner := if trimsBefore inner then inner.drop 1 else inner
  if trimsAfter inner then inner.dropLast else inner

/-- The tokens of the actions with the given texts, in order; a comment is no action. -/
def lexAll : List (List Char) → Except ParseFault (List (List Token))
  | [] => .ok []
  | inner :: inners => do
    let here ← actionSegment (trim (withoutMarks inner))
    let others ← lexAll inners
    .ok (actionsOf here ++ others)

section Cutting

/-- An action ends where it does whatever follows it. -/
theorem cutAction_append {quote : Option Char} {text inner after : List Char}
    (found : cutAction quote text = some (inner, after)) (more : List Char) :
    cutAction quote (text ++ more) = some (inner, after ++ more) := by
  fun_induction cutAction quote text generalizing inner after with
  | case1 => simp at found
  | case2 c rest ih =>
    obtain ⟨⟨cut, tail⟩, read, same⟩ := Option.map_eq_some_iff.1 found
    obtain ⟨rfl, rfl⟩ := Prod.mk.inj same
    simp only [List.cons_append, cutAction, ih read, Option.map_some]
  | case3 quote c rest unescaped ih =>
    obtain ⟨⟨cut, tail⟩, read, same⟩ := Option.map_eq_some_iff.1 found
    obtain ⟨rfl, rfl⟩ := Prod.mk.inj same
    -- The escape would need a character after it, and the text has one if it has an end.
    have kept : ∀ (next : Char) (others : List Char), quote = '"' → c = '\\' →
        rest ++ more = next :: others → False := by
      intro next others double escape starts
      cases rest with
      | nil => simp [cutAction] at read
      | cons first rest => exact unescaped first rest double escape rfl
    rw [List.cons_append, cutAction.eq_3 _ _ _ kept, ih read]
    rfl
  | case4 rest =>
    obtain ⟨rfl, rfl⟩ := Prod.mk.inj (Option.some.inj found)
    rfl
  | case5 c rest unended ih =>
    obtain ⟨⟨cut, tail⟩, read, same⟩ := Option.map_eq_some_iff.1 found
    obtain ⟨rfl, rfl⟩ := Prod.mk.inj same
    have kept : ∀ others : List Char, c = '}' → rest ++ more = '}' :: others → False := by
      intro others brace starts
      cases rest with
      | nil => simp [cutAction] at read
      | cons first rest =>
        obtain ⟨rfl, -⟩ := List.cons.inj starts
        exact unended rest brace rfl
    rw [List.cons_append, cutAction.eq_5 _ _ kept, ih read]
    rfl

/-- A character that starts no action belongs to no action. -/
theorem actionTexts_cons {c : Char} {rest : List Char} (text : ¬ ['{', '{'] <+: c :: rest) :
    actionTexts (c :: rest) = actionTexts rest := by
  rw [actionTexts.eq_2]
  rintro others rfl rfl
  exact text ⟨others, rfl⟩

/-- An action that ends is the first one of the source that it starts. -/
theorem actionTexts_action {rest inner after : List Char}
    (closed : cutAction none rest = some (inner, after)) :
    actionTexts ('{' :: '{' :: rest) = (actionTexts after).map (inner :: ·) := by
  rw [actionTexts]
  split
  · rename_i unclosed
    exact nomatch closed.symm.trans unclosed
  · rename_i found
    obtain ⟨rfl, rfl⟩ := Prod.mk.inj (Option.some.inj (closed.symm.trans found))
    rfl

/-- Whatever stands before the first action, the actions are those from there on. -/
theorem actionTexts_eq (source : List Char) :
    actionTexts source =
      match cut ['{', '{'] source with
      | none => some []
      | some (_, rest) =>
        (cutAction none rest).bind fun found => (actionTexts found.2).map (found.1 :: ·) := by
  induction source with
  | nil => rw [actionTexts]; rfl
  | cons c rest ih =>
    by_cases opens : ['{', '{'] <+: c :: rest
    · obtain ⟨others, starts⟩ := opens
      rw [← starts, cut_append (by simp)]
      show actionTexts ('{' :: '{' :: others) = _
      cases closed : cutAction none others with
      | none =>
        rw [actionTexts]
        split
        · simp [closed]
        · rename_i found
          exact nomatch closed.symm.trans found
      | some found => rw [actionTexts_action closed]; simp [closed]
    · rw [actionTexts_cons opens, ih, cut_cons opens]
      cases cut ['{', '{'] rest <;> rfl

/-- The actions of texts put together are those of each, if no action starts across the
seam. -/
theorem actionTexts_append {source more : List Char} {inners : List (List Char)}
    (closed : actionTexts source = some inners)
    (apart : source.getLast? ≠ some '{' ∨ more.head? ≠ some '{') :
    actionTexts (source ++ more) = (actionTexts more).map (inners ++ ·) := by
  fun_induction actionTexts source generalizing inners with
  | case1 rest unclosed => simp at closed
  | case2 rest inner after found ih =>
    obtain ⟨others, later, rfl⟩ := Option.map_eq_some_iff.1 closed
    have seam : after.getLast? ≠ some '{' ∨ more.head? ≠ some '{' := by
      refine apart.imp_left fun last here => last ?_
      have whole : '{' :: '{' :: rest = ('{' :: '{' :: inner ++ ['}', '}']) ++ after := by
        rw [eq_append_of_cutAction found]
        simp
      rw [whole, List.getLast?_append, here, Option.some_or]
    have ends : cutAction none (rest ++ more) = some (inner, after ++ more) :=
      cutAction_append found more
    show actionTexts ('{' :: '{' :: (rest ++ more)) = _
    rw [actionTexts_action ends, ih later seam, Option.map_map]
    rfl
  | case3 c rest text ih =>
    have seam : rest.getLast? ≠ some '{' ∨ more.head? ≠ some '{' := by
      refine apart.imp_left fun last here => last ?_
      rw [← List.singleton_append, List.getLast?_append, here, Option.some_or]
    have plain : ¬ ['{', '{'] <+: c :: (rest ++ more) := by
      rintro ⟨others, starts⟩
      obtain ⟨rfl, second⟩ := List.cons.inj starts
      cases rest with
      | nil =>
        change '{' :: others = more at second
        rw [← second] at apart
        simp at apart
      | cons next rest => exact text rest rfl (congrArg (· :: rest) (List.cons.inj second).1.symm)
    rw [List.cons_append, actionTexts_cons plain, ih closed seam]
  | case4 =>
    obtain rfl := Option.some.inj closed
    simp

/-- A text without an opening brace has no actions. -/
theorem actionTexts_of_not_mem {text : List Char} (free : '{' ∉ text) :
    actionTexts text = some [] := by
  induction text with
  | nil => rw [actionTexts]
  | cons c text ih =>
    obtain ⟨other, later⟩ := not_or.1 (mt List.mem_cons.2 free)
    have plain : ¬ ['{', '{'] <+: c :: text := by
      rintro ⟨others, starts⟩
      exact other (List.cons.inj starts).1
    rw [actionTexts_cons plain, ih later]

end Cutting

section Lexing

/-- The actions among segments that follow each other are those of each. -/
theorem actionsOf_append (segments others : List Segment) :
    actionsOf (segments ++ others) = actionsOf segments ++ actionsOf others :=
  List.filterMap_append

/-- A stretch of text holds no action. -/
theorem actionsOf_textSegment (text : List Char) : actionsOf (textSegment text) = [] := by
  unfold textSegment
  split
  · rfl
  · rfl

/-- Reading the segments of a source whose actions end is lexing the texts of its actions. -/
theorem readSegments_actions {source : List Char} {inners : List (List Char)}
    (closed : actionTexts source = some inners) (trimming : Bool) :
    (readSegments trimming source).map actionsOf = lexAll inners := by
  fun_induction readSegments trimming source generalizing inners with
  | case1 =>
    rename_i unopened
    rw [actionTexts_eq, unopened] at closed
    obtain rfl := Option.some.inj closed
    exact congrArg Except.ok (actionsOf_textSegment _)
  | case2 =>
    rename_i opened unclosed
    rw [actionTexts_eq, opened] at closed
    simp [unclosed] at closed
  | case3 =>
    rename_i rest opened inner after ends _ _ unfronted fronts later unmarked backs ih
    rw [actionTexts_eq, opened] at closed
    simp only [ends, Option.bind_some] at closed
    obtain ⟨others, found, rfl⟩ := Option.map_eq_some_iff.1 closed
    have front : (if trimsBefore inner then inner.drop 1 else inner) = unfronted := by
      split at fronts
      · rename_i marked
        rw [if_pos marked, (Prod.mk.inj fronts).2]
      · rename_i marked
        rw [if_neg marked, (Prod.mk.inj fronts).2]
    have back : (if trimsAfter unfronted then unfronted.dropLast else unfronted) = unmarked := by
      split at backs
      · rename_i marked
        rw [if_pos marked, (Prod.mk.inj backs).2]
      · rename_i marked
        rw [if_neg marked, (Prod.mk.inj backs).2]
    have marks : withoutMarks inner = unmarked := by simp only [withoutMarks, front, back]
    rw [lexAll, marks]
    cases actionSegment (trim unmarked) with
    | error fault => rfl
    | ok here =>
      have rest := ih found
      cases reads : readSegments later after with
      | error fault =>
        rw [reads] at rest
        rw [← rest]
        rfl
      | ok segments =>
        rw [reads] at rest
        rw [← rest]
        show Except.ok (actionsOf _) = Except.ok (_ ++ actionsOf segments)
        rw [actionsOf_append, actionsOf_append, actionsOf_textSegment, List.nil_append]

/-- What the actions of a source say depends on their texts alone. -/
theorem actions_eq {source : List Char} {inners : List (List Char)}
    (closed : actionTexts source = some inners) : actions source = lexAll inners :=
  readSegments_actions closed false

/-- Every action of a source that has segments ends. -/
theorem actionTexts_of_segments {source : List Char} {trimming : Bool} {parts : List Segment}
    (read : readSegments trimming source = .ok parts) :
    ∃ inners, actionTexts source = some inners := by
  fun_induction readSegments trimming source generalizing parts with
  | case1 =>
    rename_i unopened
    exact ⟨[], by rw [actionTexts_eq, unopened]⟩
  | case2 => exact nomatch read
  | case3 =>
    rename_i rest opened inner after ends _ _ unfronted fronts later unmarked backs ih
    obtain ⟨here, -, rest⟩ := exists_of_bind_ok read
    obtain ⟨others, found, -⟩ := exists_of_bind_ok rest
    obtain ⟨inners, texts⟩ := ih found
    refine ⟨inner :: inners, ?_⟩
    rw [actionTexts_eq, opened]
    simp [ends, texts]

/-- A template that parses has the nodes of its segments. -/
theorem segments_of_parse {name source : String} {template : Template}
    (parsed : parse name source = .ok template) :
    ∃ parts, segments source.toList = .ok parts ∧ Node.ofSegments parts = .ok template.nodes := by
  unfold parse at parsed
  split at parsed
  case h_2 => exact nomatch parsed
  case h_1 nodes reads =>
    obtain rfl := Except.ok.inj parsed
    exact exists_of_bind_ok reads

/-- The actions of a template that parses have ends, and can be read. -/
theorem exists_of_parse {name source : String} {template : Template}
    (parsed : parse name source = .ok template) :
    ∃ inners tokens, actionTexts source.toList = some inners ∧
      actions source.toList = .ok tokens := by
  obtain ⟨parts, read, -⟩ := segments_of_parse parsed
  obtain ⟨inners, closed⟩ := actionTexts_of_segments read
  exact ⟨inners, actionsOf parts, closed, by rw [actions, read]; rfl⟩

end Lexing

/-- What may come next in an open block. -/
inductive Part where
  /-- Another branch of a conditional, or its last part. -/
  | branch
  /-- The last part of a block whose first part is open. -/
  | body
  /-- Nothing but the end. -/
  | last
  deriving DecidableEq

/-- What may come next in an open block. -/
def OpenBlock.part : OpenBlock → Part
  | .branch _ _ => .branch
  | .otherwise _ _ => .last
  | .range _ => .body
  | .rangeOtherwise _ _ => .last
  | .within _ => .body
  | .withinOtherwise _ _ => .last

/-- Two readings have blocks open in which the same may come next. -/
def Reading.Alike (left right : Reading) : Prop :=
  left.blocks.map (fun block => block.1.part) = right.blocks.map fun block => block.1.part

/-- Goes on after the action with the given tokens. -/
def Reading.actOn (reading : Reading) (tokens : List Token) : Except ParseFault Reading := do
  reading.act (← Action.ofTokens tokens)

section Alike

variable {left right next : Reading}

/-- Where the same may come next in two blocks, an `else` goes on in both or in neither. -/
theorem OpenBlock.toElse_alike {block other later : OpenBlock} {nodes : List Node}
    (goes : block.toElse nodes = .ok later) (same : block.part = other.part)
    (others : List Node) : ∃ moved, other.toElse others = .ok moved ∧ later.part = moved.part := by
  have ends : block.part ≠ .last ∧ later.part = .last := by
    unfold OpenBlock.toElse at goes
    split at goes
    case h_1 | h_2 | h_3 | h_4 =>
      obtain rfl := Except.ok.inj goes
      exact ⟨nofun, rfl⟩
    case h_5 | h_6 | h_7 => exact nomatch goes
  obtain ⟨unfinished, last⟩ := ends
  rw [same] at unfinished
  rw [last]
  cases other with
  | branch before condition =>
    cases before with
    | nil => exact ⟨_, rfl, rfl⟩
    | cons first rest => exact ⟨_, rfl, rfl⟩
  | range source => exact ⟨_, rfl, rfl⟩
  | within value => exact ⟨_, rfl, rfl⟩
  | otherwise | rangeOtherwise | withinOtherwise => exact absurd rfl unfinished

/-- Where the same may come next in two blocks, an `else if` goes on in both or in neither. -/
theorem OpenBlock.toElseIf_alike {block other later : OpenBlock} {nodes : List Node}
    {condition : Pipeline} (goes : block.toElseIf nodes condition = .ok later)
    (same : block.part = other.part) (others : List Node) :
    ∃ moved, other.toElseIf others condition = .ok moved ∧ later.part = moved.part := by
  have branches : block.part = .branch ∧ later.part = .branch := by
    unfold OpenBlock.toElseIf at goes
    split at goes
    case h_1 =>
      obtain rfl := Except.ok.inj goes
      exact ⟨rfl, rfl⟩
    case h_2 | h_3 | h_4 | h_5 | h_6 => exact nomatch goes
  obtain ⟨first, last⟩ := branches
  rw [first] at same
  rw [last]
  cases other with
  | branch before guard => exact ⟨_, rfl, rfl⟩
  | otherwise | range | rangeOtherwise | within | withinOtherwise => exact nomatch same

namespace Reading

/-- The innermost open blocks of readings that are alike are alike. -/
theorem Alike.of_cons {nodes others before : List Node} {block : OpenBlock}
    {outer held : List (OpenBlock × List Node)}
    (alike : Alike ⟨nodes, (block, before) :: outer⟩ ⟨others, held⟩) :
    ∃ other preceding around, held = (other, preceding) :: around ∧
      block.part = other.part ∧ ∀ nodes others, Alike ⟨nodes, outer⟩ ⟨others, around⟩ := by
  cases held with
  | nil => exact nomatch alike
  | cons first around =>
    obtain ⟨parts, rest⟩ := List.cons.inj alike
    exact ⟨first.1, first.2, around, rfl, parts, fun _ _ => rest⟩

/-- Readings with a block of its own kind each in front of what is alike are alike. -/
theorem Alike.cons {block other : OpenBlock} (same : block.part = other.part)
    {outer around : List (OpenBlock × List Node)} {nodes others : List Node}
    (alike : Alike ⟨nodes, outer⟩ ⟨others, around⟩) (left right before preceding : List Node) :
    Alike ⟨left, (block, before) :: outer⟩ ⟨right, (other, preceding) :: around⟩ :=
  List.cons_eq_cons.2 ⟨same, alike⟩

/-- From readings that are alike, an action goes on in both or in neither. -/
theorem act_alike {action : Action} (goes : left.act action = .ok next)
    (alike : left.Alike right) :
    ∃ reached, right.act action = .ok reached ∧ next.Alike reached := by
  obtain ⟨nodes, blocks⟩ := left
  obtain ⟨others, held⟩ := right
  cases action with
  | output pipeline =>
    obtain rfl := Except.ok.inj goes
    exact ⟨_, rfl, alike⟩
  | openIf condition =>
    obtain rfl := Except.ok.inj goes
    exact ⟨_, rfl, .cons rfl alike _ _ _ _⟩
  | openRange source =>
    obtain rfl := Except.ok.inj goes
    exact ⟨_, rfl, .cons rfl alike _ _ _ _⟩
  | openWith value =>
    obtain rfl := Except.ok.inj goes
    exact ⟨_, rfl, .cons rfl alike _ _ _ _⟩
  | elseIf condition =>
    cases blocks with
    | nil => exact nomatch goes
    | cons block outer =>
      obtain ⟨other, preceding, around, rfl, same, rest⟩ := Alike.of_cons alike
      obtain ⟨later, moved, rfl⟩ := exists_of_map_ok goes
      obtain ⟨reached, moves, parts⟩ := OpenBlock.toElseIf_alike moved same others
      refine ⟨⟨[], (reached, preceding) :: around⟩, ?_, .cons parts (rest [] []) _ _ _ _⟩
      simp only [act, moves, Except.map]
  | elseOnly =>
    cases blocks with
    | nil => exact nomatch goes
    | cons block outer =>
      obtain ⟨other, preceding, around, rfl, same, rest⟩ := Alike.of_cons alike
      obtain ⟨later, moved, rfl⟩ := exists_of_map_ok goes
      obtain ⟨reached, moves, parts⟩ := OpenBlock.toElse_alike moved same others
      refine ⟨⟨[], (reached, preceding) :: around⟩, ?_, .cons parts (rest [] []) _ _ _ _⟩
      simp only [act, moves, Except.map]
  | endBlock =>
    cases blocks with
    | nil => exact nomatch goes
    | cons block outer =>
      obtain ⟨other, preceding, around, rfl, same, rest⟩ := Alike.of_cons alike
      obtain rfl := Except.ok.inj goes
      exact ⟨_, rfl, rest _ _⟩

/-- Reading segments is going on after each of their actions: the text between them leaves the
reading alike. -/
theorem actionsOf_alike {segments : List Segment}
    (goes : segments.foldlM step left = .ok next) (alike : left.Alike right) :
    ∃ reached, (actionsOf segments).foldlM actOn right = .ok reached ∧ next.Alike reached := by
  induction segments generalizing left right with
  | nil =>
    obtain rfl := Except.ok.inj goes
    exact ⟨right, rfl, alike⟩
  | cons segment segments ih =>
    rw [List.foldlM_cons] at goes
    obtain ⟨middle, first, rest⟩ := exists_of_bind_ok goes
    cases segment with
    | text content =>
      obtain rfl := Except.ok.inj first
      exact ih rest alike
    | action tokens =>
      obtain ⟨action, said, acts⟩ := exists_of_bind_ok first
      obtain ⟨entered, here, between⟩ := act_alike acts alike
      obtain ⟨reached, later, same⟩ := ih rest between
      have on : right.actOn tokens = .ok entered := by
        rw [actOn, said]
        exact here
      refine ⟨reached, ?_, same⟩
      show List.foldlM actOn right (tokens :: actionsOf segments) = _
      rw [List.foldlM_cons, on]
      exact later

/-- Where all actions of segments go on, the segments can be read. -/
theorem alike_of_actionsOf {segments : List Segment}
    (goes : (actionsOf segments).foldlM actOn left = .ok next) (alike : left.Alike right) :
    ∃ reached, segments.foldlM step right = .ok reached ∧ next.Alike reached := by
  induction segments generalizing left right with
  | nil =>
    obtain rfl := Except.ok.inj goes
    exact ⟨right, rfl, alike⟩
  | cons segment segments ih =>
    cases segment with
    | text content =>
      have added : left.Alike (right.add (.text content)) := alike
      obtain ⟨reached, later, same⟩ := ih goes added
      refine ⟨reached, ?_, same⟩
      rw [List.foldlM_cons]
      exact later
    | action tokens =>
      change List.foldlM actOn left (tokens :: actionsOf segments) = .ok next at goes
      rw [List.foldlM_cons] at goes
      obtain ⟨middle, first, rest⟩ := exists_of_bind_ok goes
      obtain ⟨action, said, acts⟩ := exists_of_bind_ok first
      obtain ⟨entered, here, between⟩ := act_alike acts alike
      obtain ⟨reached, later, same⟩ := ih rest between
      have on : right.step (.action tokens) = .ok entered := by
        rw [step, said]
        exact here
      refine ⟨reached, ?_, same⟩
      rw [List.foldlM_cons, on]
      exact later

/-- Of readings that are alike, both are at the end of a template or neither is. -/
theorem finish_alike {nodes : List Node} (ends : left.finish = .ok nodes)
    (alike : left.Alike right) : right.finish = .ok right.nodes := by
  unfold finish at ends ⊢
  split at ends
  case h_2 => exact nomatch ends
  case h_1 closed =>
    unfold Alike at alike
    rw [closed] at alike
    have none : right.blocks = [] := List.map_eq_nil_iff.1 alike.symm
    rw [none]

end Reading

end Alike

/-- Whether segments are those of a template depends on their actions alone. -/
theorem ofSegments_of_actionsOf_eq {parts others : List Segment} {nodes : List Node}
    (built : Node.ofSegments parts = .ok nodes) (same : actionsOf others = actionsOf parts) :
    ∃ made, Node.ofSegments others = .ok made := by
  obtain ⟨last, steps, finished⟩ := exists_of_bind_ok built
  have start : Reading.Alike ⟨[], []⟩ ⟨[], []⟩ := rfl
  obtain ⟨middle, acts, first⟩ := Reading.actionsOf_alike steps start
  rw [← same] at acts
  obtain ⟨reached, resteps, second⟩ := Reading.alike_of_actionsOf acts start
  refine ⟨reached.nodes, ?_⟩
  rw [Node.ofSegments, resteps]
  exact Reading.finish_alike finished (first.trans second)

/-- Whether a source parses depends on its actions alone. -/
theorem parse_of_actions_eq {name other left right : String} {template : Template}
    (parsed : parse name left = .ok template) (same : actions right.toList = actions left.toList) :
    ∃ made, parse other right = .ok made := by
  obtain ⟨parts, read, built⟩ := segments_of_parse parsed
  have acted : actions left.toList = .ok (actionsOf parts) := by rw [actions, read]; rfl
  rw [acted] at same
  obtain ⟨others, reread, equal⟩ := exists_of_map_ok same
  obtain ⟨made, rebuilt⟩ := ofSegments_of_actionsOf_eq built equal
  have nodes : (segments right.toList >>= Node.ofSegments) = .ok made := by
    rw [reread]
    exact rebuilt
  exact ⟨⟨other, made⟩, by rw [parse, nodes]⟩

end ComponentPages.Template
