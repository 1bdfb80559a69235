import ComponentPages.Proofs.Template.Actions
import ComponentPages.Proofs.Template.Contents
import ComponentPages.Proofs.Template.Grammar
import Mathlib

/-!
# Parsing by the grammar

The parser accepts exactly what the grammar derives, and returns the tree that the derivation
describes (`parse_iff_derived`). In one direction, reading the tokens or segments of a derivation
adds its tree to what was read before. In the other, what a reader still accepts at some place is
the rest of a derivation: the rest of a pipeline (`exists_terms_of_readPipeline`), and the parts
that the open blocks still lack (`Demands`).
-/
namespace ComponentPages.Template

open Grammar

section Groups

/-- Every group that is opened or closed inside of the tokens is closed or opened there. -/
def Balanced (tokens : List Token) : Prop :=
  ∀ depth rest, cutGroup depth (tokens ++ rest) =
    (cutGroup depth rest).map fun found => (tokens ++ found.1, found.2)

/-- No tokens are balanced. -/
theorem balanced_nil : Balanced [] := by
  intro depth rest
  simp

/-- Balanced tokens after others are balanced. -/
theorem Balanced.append {tokens others : List Token} (balanced : Balanced tokens)
    (more : Balanced others) : Balanced (tokens ++ others) := by
  intro depth rest
  rw [List.append_assoc, balanced, more, Option.map_map]
  simp only [Function.comp_def, List.append_assoc]

/-- Balanced tokens in parentheses are balanced. -/
theorem Balanced.group {tokens : List Token} (balanced : Balanced tokens) :
    Balanced (.opening :: tokens ++ [.closing]) := by
  intro depth rest
  have inside := balanced (depth + 1) (.closing :: rest)
  simp only [List.cons_append, List.append_assoc, List.nil_append, cutGroup, inside,
    Option.map_map, Function.comp_def]

/-- An atom is balanced. -/
theorem Grammar.Atom.balanced (atom : Atom) : Balanced [atom.token] := by
  intro depth rest
  cases atom <;> simp [Atom.token, cutGroup]

/-- A pipe is balanced. -/
theorem balanced_pipe : Balanced [.pipe] := by
  intro depth rest
  simp [cutGroup]

mutual

/-- The tokens of an operand are balanced. -/
theorem Grammar.Term.balanced (term : Term) : Balanced term.tokens := by
  match term with
  | .atom atom => exact atom.balanced
  | .group chain => exact chain.balanced.group

/-- The tokens of operands are balanced. -/
theorem Grammar.Term.balancedAll (terms : List Term) :
    Balanced (Term.tokensAll terms) := by
  match terms with
  | [] => exact balanced_nil
  | term :: terms => exact term.balanced.append (Grammar.Term.balancedAll terms)

/-- The tokens of a command are balanced. -/
theorem Grammar.Clause.balanced (clause : Clause) : Balanced clause.tokens := by
  match clause with
  | .of head arguments => exact head.balanced.append (Grammar.Term.balancedAll arguments)

/-- The tokens of commands are balanced. -/
theorem Grammar.Clause.balancedAll (clauses : List Clause) :
    Balanced (Clause.tokensAll clauses) := by
  match clauses with
  | [] => exact balanced_nil
  | clause :: clauses =>
    exact (balanced_pipe.append clause.balanced).append (Grammar.Clause.balancedAll clauses)

/-- The tokens of a pipeline are balanced. -/
theorem Grammar.Chain.balanced (chain : Chain) : Balanced chain.tokens := by
  match chain with
  | .of first others => exact first.balanced.append (Grammar.Clause.balancedAll others)

end

/-- A group ends at the parenthesis after its pipeline. -/
theorem Grammar.Chain.cutGroup_tokens (chain : Chain) (rest : List Token) :
    cutGroup 0 (chain.tokens ++ .closing :: rest) = some (chain.tokens, rest) := by
  rw [chain.balanced]
  simp [cutGroup]

end Groups

section Pipelines

/-- The pipeline of commands, a command and further commands. -/
def Pipeline.ofParts : List Command → Command → List Command → Pipeline
  | [], command, others => .of command others
  | first :: before, command, others => .of first (before ++ command :: others)

/-- A pipeline without further commands ends with the command. -/
theorem Pipeline.ofParts_nil (commands : List Command) (command : Command) :
    Pipeline.ofParts commands command [] = .ofCommands commands command := by
  cases commands with
  | nil => rfl
  | cons first before => rfl

/-- A command can be counted to those before the next one. -/
theorem Pipeline.ofParts_append (commands : List Command) (command next : Command)
    (others : List Command) :
    Pipeline.ofParts (commands ++ [command]) next others =
      .ofParts commands command (next :: others) := by
  cases commands with
  | nil => rfl
  | cons first before => simp [Pipeline.ofParts]

/-- The token of an atom is read as the operand that it describes. -/
theorem Grammar.Atom.readPipeline_token (atom : Atom) (commands : List Command)
    (operands : List Operand) (rest : List Token) :
    readPipeline commands operands (atom.token :: rest) =
      readPipeline commands (operands ++ [atom.tree]) rest := by
  cases atom <;> (rw [readPipeline.eq_def]; rfl)

/-- A group is read as the operand of its pipeline. -/
theorem readPipeline_group {inner rest : List Token} {pipeline : Pipeline}
    (cuts : cutGroup 0 (inner ++ .closing :: rest) = some (inner, rest))
    (read : readPipeline [] [] inner = .ok pipeline) (commands : List Command)
    (operands : List Operand) :
    readPipeline commands operands (.opening :: (inner ++ .closing :: rest)) =
      readPipeline commands (operands ++ [.group pipeline]) rest := by
  rw [readPipeline.eq_def]
  simp only
  split
  · rename_i unclosed
    exact absurd (cuts.symm.trans unclosed) (Option.some_ne_none _)
  · rename_i found
    obtain ⟨rfl, rfl⟩ := Prod.mk.inj (Option.some.inj (cuts.symm.trans found))
    rw [read]
    rfl

mutual

/-- The tokens of an operand are read as the operand that it describes. -/
theorem Grammar.Term.readPipeline_tokens (term : Term) (commands : List Command)
    (operands : List Operand) (rest : List Token) :
    readPipeline commands operands (term.tokens ++ rest) =
      readPipeline commands (operands ++ [term.tree]) rest := by
  match term with
  | .atom atom => exact atom.readPipeline_token commands operands rest
  | .group chain =>
    rw [Term.tokens, List.cons_append, List.cons_append, List.append_assoc]
    exact readPipeline_group (chain.cutGroup_tokens rest) chain.readPipeline_tokens commands
      operands

/-- The tokens of operands are read as the operands that they describe. -/
theorem Grammar.Term.readPipeline_tokensAll (terms : List Term) (commands : List Command)
    (operands : List Operand) (rest : List Token) :
    readPipeline commands operands (Term.tokensAll terms ++ rest) =
      readPipeline commands (operands ++ Term.treeAll terms) rest := by
  match terms with
  | [] => rw [Term.tokensAll, Term.treeAll, List.nil_append, List.append_nil]
  | term :: terms =>
    rw [Term.tokensAll, Term.treeAll, List.append_assoc, term.readPipeline_tokens,
      Grammar.Term.readPipeline_tokensAll terms, List.append_assoc]
    rfl

/-- Where a command is being read, the tokens of further commands complete the pipeline. -/
theorem Grammar.Clause.readPipeline_tokensAll (clauses : List Clause) (commands : List Command)
    (head : Operand) (arguments : List Operand) :
    readPipeline commands (head :: arguments) (Clause.tokensAll clauses) =
      .ok (.ofParts commands (.of head arguments) (Clause.treeAll clauses)) := by
  match clauses with
  | [] =>
    rw [Clause.tokensAll, Clause.treeAll, Pipeline.ofParts_nil, readPipeline.eq_def]
  | .of first others :: clauses =>
    have step : readPipeline commands (head :: arguments)
        (Clause.tokensAll (.of first others :: clauses)) =
        readPipeline (commands ++ [.of head arguments]) []
          (first.tokens ++ (Term.tokensAll others ++ Clause.tokensAll clauses)) := by
      rw [readPipeline.eq_def]
      simp only [Clause.tokensAll, Clause.tokens, List.cons_append, List.append_assoc]
    rw [step, first.readPipeline_tokens, Grammar.Term.readPipeline_tokensAll others]
    exact (Grammar.Clause.readPipeline_tokensAll clauses _ _ _).trans
      (congrArg Except.ok (Pipeline.ofParts_append _ _ _ _))

/-- The tokens of a pipeline are read as the pipeline that it describes. -/
theorem Grammar.Chain.readPipeline_tokens (chain : Chain) :
    readPipeline [] [] chain.tokens = .ok chain.tree := by
  match chain with
  | .of (.of head arguments) others =>
    rw [Chain.tokens, Clause.tokens, List.append_assoc, head.readPipeline_tokens,
      Grammar.Term.readPipeline_tokensAll arguments]
    exact Grammar.Clause.readPipeline_tokensAll others [] head.tree _

end

/-- A token that is an operand is the token of an atom. -/
theorem exists_atom_of_operand? {token : Token} {operand : Operand}
    (found : operand? token = some operand) : ∃ atom : Atom, atom.token = token := by
  cases token with
  | text content => exact ⟨.text content, rfl⟩
  | int number => exact ⟨.int number, rfl⟩
  | float number => exact ⟨.float number, rfl⟩
  | word name => exact ⟨.word name, rfl⟩
  | dot path => exact ⟨.dot path, rfl⟩
  | root path => exact ⟨.root path, rfl⟩
  | opening => simp [operand?] at found
  | closing => simp [operand?] at found
  | pipe => simp [operand?] at found

/-- Tokens that are read are operands, which complete the command that is being read, and further
commands. -/
theorem exists_terms_of_readPipeline {commands : List Command} {operands : List Operand}
    {tokens : List Token} {pipeline : Pipeline}
    (read : readPipeline commands operands tokens = .ok pipeline) :
    ∃ terms clauses, tokens = Term.tokensAll terms ++ Clause.tokensAll clauses ∧
      (operands = [] → terms ≠ []) := by
  fun_induction readPipeline commands operands tokens generalizing pipeline with
  | case1 => simp at read
  | case2 commands head arguments =>
    exact ⟨[], [], by simp [Term.tokensAll, Clause.tokensAll], by simp⟩
  | case3 => simp at read
  | case4 commands rest head arguments ih =>
    obtain ⟨terms, clauses, rfl, filled⟩ := ih read
    obtain ⟨first, others, rfl⟩ := List.exists_cons_of_ne_nil (filled rfl)
    refine ⟨[], .of first others :: clauses, ?_, by simp⟩
    simp [Term.tokensAll, Clause.tokensAll, Clause.tokens]
  | case5 => simp at read
  | case6 commands operands rest inner after group inside following =>
    obtain ⟨grouped, readInner, readAfter⟩ := exists_of_bind_ok read
    obtain ⟨terms, clauses, rfl, filled⟩ := inside readInner
    obtain ⟨head, arguments, rfl⟩ := List.exists_cons_of_ne_nil (filled rfl)
    obtain ⟨terms, others, rfl, -⟩ := following grouped readAfter
    refine ⟨.group (.of (.of head arguments) clauses) :: terms, others, ?_, by simp⟩
    rw [eq_append_of_cutGroup group]
    simp [Term.tokensAll, Term.tokens, Chain.tokens, Clause.tokens]
  | case7 => simp at read
  | case8 commands operands token rest _ _ operand found ih =>
    obtain ⟨atom, rfl⟩ := exists_atom_of_operand? found
    obtain ⟨terms, clauses, rfl, -⟩ := ih read
    refine ⟨.atom atom :: terms, clauses, ?_, by simp⟩
    simp [Term.tokensAll, Term.tokens]

/-- The tokens that stand for a pipeline are those of its derivation. -/
theorem Pipeline.ofTokens_eq_ok_iff {tokens : List Token} {pipeline : Pipeline} :
    Pipeline.ofTokens tokens = .ok pipeline ↔
      ∃ chain : Chain, chain.tokens = tokens ∧ chain.tree = pipeline := by
  constructor
  · intro read
    obtain ⟨terms, clauses, rfl, filled⟩ := exists_terms_of_readPipeline read
    obtain ⟨head, arguments, rfl⟩ := List.exists_cons_of_ne_nil (filled rfl)
    have derived : (Chain.of (.of head arguments) clauses).tokens =
        Term.tokensAll (head :: arguments) ++ Clause.tokensAll clauses := rfl
    refine ⟨_, derived, ?_⟩
    rw [← derived] at read
    exact Except.ok.inj ((Chain.readPipeline_tokens _).symm.trans read)
  · rintro ⟨chain, rfl, rfl⟩
    exact chain.readPipeline_tokens

end Pipelines

section Actions

/-- The tokens that spell an action. -/
def Action.Spells : Action → List Token → Prop
  | .output pipeline, tokens =>
    ∃ chain : Chain, chain.tokens = tokens ∧ chain.tree = pipeline ∧ StartsPlain chain.tokens
  | .openIf condition, tokens =>
    ∃ chain : Chain, .word "if" :: chain.tokens = tokens ∧ chain.tree = condition
  | .openRange source, tokens =>
    ∃ chain : Chain, .word "range" :: chain.tokens = tokens ∧ chain.tree = source
  | .openWith value, tokens =>
    ∃ chain : Chain, .word "with" :: chain.tokens = tokens ∧ chain.tree = value
  | .elseIf condition, tokens =>
    ∃ chain : Chain, .word "else" :: .word "if" :: chain.tokens = tokens ∧
      chain.tree = condition
  | .elseOnly, tokens => [.word "else"] = tokens
  | .endBlock, tokens => ∃ ending, .word "end" :: ending = tokens

/-- Tokens whose reading as a pipeline says an action are read as the pipeline of a derivation. -/
theorem exists_chain_of_map_ok {tokens : List Token} {make : Pipeline → Action} {action : Action}
    (said : (Pipeline.ofTokens tokens).map make = .ok action) :
    ∃ chain : Chain, chain.tokens = tokens ∧ make chain.tree = action := by
  obtain ⟨pipeline, read, rfl⟩ := exists_of_map_ok said
  obtain ⟨chain, rfl, rfl⟩ := Pipeline.ofTokens_eq_ok_iff.1 read
  exact ⟨chain, rfl, rfl⟩

/-- The tokens of a derivation say what its tree says. -/
theorem Grammar.Chain.map_ofTokens (chain : Chain) (make : Pipeline → Action) :
    (Pipeline.ofTokens chain.tokens).map make = .ok (make chain.tree) :=
  congrArg (Except.map make) chain.readPipeline_tokens

/-- The tokens of an action that is read spell it. -/
theorem Action.spells_of_ofTokens {tokens : List Token} {action : Action}
    (said : Action.ofTokens tokens = .ok action) : action.Spells tokens := by
  unfold Action.ofTokens at said
  split at said
  case h_2 other =>
    obtain ⟨chain, rfl, rfl⟩ := exists_chain_of_map_ok said
    refine ⟨chain, rfl, rfl, ?_⟩
    unfold StartsPlain
    split
    · rename_i name rest same
      exact absurd same (other name rest)
    · trivial
  case h_1 name rest =>
    split_ifs at said with isEnd isElse isIf isRange isWith
    · obtain rfl := Except.ok.inj said
      exact ⟨rest, by rw [isEnd]⟩
    · subst isElse
      unfold Action.ofElse at said
      split at said
      · obtain rfl := Except.ok.inj said
        rfl
      · split_ifs at said with follows
        subst follows
        obtain ⟨chain, rfl, rfl⟩ := exists_chain_of_map_ok said
        exact ⟨chain, rfl, rfl⟩
      · simp at said
    · obtain ⟨chain, rfl, rfl⟩ := exists_chain_of_map_ok said
      exact ⟨chain, by rw [isIf], rfl⟩
    · obtain ⟨chain, rfl, rfl⟩ := exists_chain_of_map_ok said
      exact ⟨chain, by rw [isRange], rfl⟩
    · obtain ⟨chain, rfl, rfl⟩ := exists_chain_of_map_ok said
      exact ⟨chain, by rw [isWith], rfl⟩
    · obtain ⟨chain, same, rfl⟩ := exists_chain_of_map_ok said
      refine ⟨chain, same, rfl, ?_⟩
      rw [same]
      simp [StartsPlain, keywords, isEnd, isElse, isIf, isRange, isWith]

/-- Tokens that spell an action are read as it. -/
theorem Action.Spells.ofTokens {tokens : List Token} {action : Action}
    (spells : action.Spells tokens) : Action.ofTokens tokens = .ok action := by
  cases action with
  | output pipeline =>
    obtain ⟨chain, rfl, rfl, plain⟩ := spells
    unfold Action.ofTokens
    split
    · rename_i name rest same
      rw [same] at plain
      simp only [StartsPlain, keywords, List.mem_cons, List.not_mem_nil, or_false,
        not_or] at plain
      obtain ⟨noEnd, noElse, noIf, noRange, noWith⟩ := plain
      rw [if_neg noEnd, if_neg noElse, if_neg noIf, if_neg noRange, if_neg noWith]
      exact chain.map_ofTokens .output
    · exact chain.map_ofTokens .output
  | openIf condition =>
    obtain ⟨chain, rfl, rfl⟩ := spells
    exact chain.map_ofTokens .openIf
  | openRange source =>
    obtain ⟨chain, rfl, rfl⟩ := spells
    exact chain.map_ofTokens .openRange
  | openWith value =>
    obtain ⟨chain, rfl, rfl⟩ := spells
    exact chain.map_ofTokens .openWith
  | elseIf condition =>
    obtain ⟨chain, rfl, rfl⟩ := spells
    exact chain.map_ofTokens .elseIf
  | elseOnly =>
    obtain rfl := spells
    rfl
  | endBlock =>
    obtain ⟨ending, rfl⟩ := spells
    rfl

/-- A segment that spells an action is acted on. -/
theorem Reading.step_of_spells (action : Action) {tokens : List Token}
    (spells : action.Spells tokens) (reading : Reading) :
    reading.step (.action tokens) = reading.act action := by
  rw [Reading.step, spells.ofTokens]
  rfl

end Actions

section Reading

/-- A list of segments after a first one is read from where the first one leads. -/
theorem foldlM_step_cons {segment : Segment} {reading next : Reading}
    (goes : reading.step segment = .ok next) (rest : List Segment) :
    (segment :: rest).foldlM Reading.step reading = rest.foldlM Reading.step next := by
  rw [List.foldlM_cons, goes]
  rfl

/-- The part of a block that an open block is in when it is opened. -/
def Grammar.Scope.openBlock : Scope → Pipeline → OpenBlock
  | .range => .range
  | .within => .within

/-- A block starts with the action that opens it. -/
theorem Grammar.Scope.step_opening (scope : Scope) (value : Chain) (reading : Reading) :
    reading.step (opening [scope.word] value) =
      .ok (reading.enter (scope.openBlock value.tree)) := by
  cases scope with
  | range =>
    exact Reading.step_of_spells (.openRange value.tree) ⟨value, rfl, rfl⟩ reading
  | within =>
    exact Reading.step_of_spells (.openWith value.tree) ⟨value, rfl, rfl⟩ reading

/-- A conditional starts with the action that opens it. -/
theorem step_opening_if (condition : Chain) (reading : Reading) :
    reading.step (opening ["if"] condition) =
      .ok (reading.enter (.branch [] condition.tree)) :=
  Reading.step_of_spells (.openIf condition.tree) ⟨condition, rfl, rfl⟩ reading

/-- A further branch starts with the action that goes on to it. -/
theorem step_opening_elseIf (condition : Chain) (nodes outer : List Node)
    (before : List Branch) (guard : Pipeline) (blocks : List (OpenBlock × List Node)) :
    Reading.step ⟨nodes, (.branch before guard, outer) :: blocks⟩
        (opening ["else", "if"] condition) =
      .ok ⟨[], (.branch (before ++ [.of guard nodes]) condition.tree, outer) :: blocks⟩ :=
  Reading.step_of_spells (.elseIf condition.tree) ⟨condition, rfl, rfl⟩ _

/-- The last part of a block starts with the action that goes on to it. -/
theorem step_otherwiseAction {block later : OpenBlock} {nodes : List Node}
    (goes : block.toElse nodes = .ok later) (outer : List Node)
    (blocks : List (OpenBlock × List Node)) :
    Reading.step ⟨nodes, (block, outer) :: blocks⟩ otherwiseAction =
      .ok ⟨[], (later, outer) :: blocks⟩ := by
  rw [otherwiseAction, Reading.step_of_spells .elseOnly rfl]
  let resume (later : OpenBlock) : Reading := ⟨[], (later, outer) :: blocks⟩
  exact congrArg (Except.map resume) goes

/-- A block ends with the action that ends it. -/
theorem step_endAction (ending : List Token) (block : OpenBlock) (nodes outer : List Node)
    (blocks : List (OpenBlock × List Node)) :
    Reading.step ⟨nodes, (block, outer) :: blocks⟩ (endAction ending) =
      .ok ⟨outer ++ [block.close nodes], blocks⟩ :=
  Reading.step_of_spells .endBlock ⟨ending, rfl⟩ _

/-- A last part that is left out is like one without nodes. -/
theorem OpenBlock.close_of_toElse {block later : OpenBlock} {nodes : List Node}
    (goes : block.toElse nodes = .ok later) : later.close [] = block.close nodes := by
  cases block with
  | branch before condition =>
    cases before <;> (obtain rfl := Except.ok.inj goes; rfl)
  | range source =>
    obtain rfl := Except.ok.inj goes
    rfl
  | within value =>
    obtain rfl := Except.ok.inj goes
    rfl
  | otherwise | rangeOtherwise | withinOtherwise => exact nomatch goes

/-- The conditional of branches, a branch and further branches. -/
def Node.ofParts : List Branch → Branch → List Branch → List Node → Node
  | [], branch, others, otherwise => .conditional branch others otherwise
  | first :: before, branch, others, otherwise =>
    .conditional first (before ++ branch :: others) otherwise

/-- A branch can be counted to those before the next one. -/
theorem Node.ofParts_append (before : List Branch) (branch next : Branch)
    (others : List Branch) (otherwise : List Node) :
    Node.ofParts (before ++ [branch]) next others otherwise =
      .ofParts before branch (next :: others) otherwise := by
  cases before with
  | nil => rfl
  | cons first before => simp [Node.ofParts]

/-- After its last branch, a conditional goes on to a part that completes it. -/
theorem OpenBlock.exists_toElse_branch (before : List Branch) (condition : Pipeline)
    (nodes : List Node) :
    ∃ later, (OpenBlock.branch before condition).toElse nodes = .ok later ∧
      ∀ otherwise, later.close otherwise =
        .ofParts before (.of condition nodes) [] otherwise := by
  cases before with
  | nil => exact ⟨_, rfl, fun otherwise => rfl⟩
  | cons first others => exact ⟨_, rfl, fun otherwise => rfl⟩

/-- After its first part, a block goes on to a part that completes it. -/
theorem Grammar.Scope.exists_toElse_openBlock (scope : Scope) (value : Pipeline)
    (nodes : List Node) :
    ∃ later, (scope.openBlock value).toElse nodes = .ok later ∧
      ∀ otherwise, later.close otherwise = scope.node value nodes otherwise := by
  cases scope with
  | range => exact ⟨_, rfl, fun otherwise => rfl⟩
  | within => exact ⟨_, rfl, fun otherwise => rfl⟩

mutual

/-- The segments of an item are read as the node that it describes. -/
theorem Grammar.Item.foldlM_segments (item : Item) (nodes : List Node)
    (blocks : List (OpenBlock × List Node)) (rest : List Segment) :
    (item.segments ++ rest).foldlM Reading.step ⟨nodes, blocks⟩ =
      rest.foldlM Reading.step ⟨nodes ++ [item.node], blocks⟩ := by
  match item with
  | .text content => exact foldlM_step_cons rfl rest
  | .output chain plain =>
    have spells : (Action.output chain.tree).Spells chain.tokens := ⟨chain, rfl, rfl, plain⟩
    exact foldlM_step_cons (Reading.step_of_spells (.output chain.tree) spells _) rest
  | .conditional condition body others otherwise ending =>
    obtain ⟨last, earlier, guard, leads, same⟩ :=
      Grammar.Arm.exists_foldlM_segmentsAll others ([] ++ Item.nodeAll body) nodes []
        condition.tree blocks
    obtain ⟨later, goes, closes⟩ := OpenBlock.exists_toElse_branch earlier guard last
    simp only [Item.segments, List.cons_append, List.append_assoc, List.nil_append]
    rw [foldlM_step_cons (step_opening_if condition _), Reading.enter,
      Grammar.Item.foldlM_segmentsAll body, leads,
      Grammar.Otherwise.foldlM_segments otherwise ending goes, closes, same, Item.node,
      Node.ofParts, List.nil_append]
  | .block scope value body otherwise ending =>
    obtain ⟨later, goes, closes⟩ :=
      scope.exists_toElse_openBlock value.tree (Item.nodeAll body)
    simp only [Item.segments, List.cons_append, List.append_assoc, List.nil_append]
    rw [foldlM_step_cons (scope.step_opening value _), Reading.enter,
      Grammar.Item.foldlM_segmentsAll body, List.nil_append,
      Grammar.Otherwise.foldlM_segments otherwise ending goes, closes, Item.node]

/-- The segments of a list of items are read as the nodes that it describes. -/
theorem Grammar.Item.foldlM_segmentsAll (items : List Item) (nodes : List Node)
    (blocks : List (OpenBlock × List Node)) (rest : List Segment) :
    (Item.segmentsAll items ++ rest).foldlM Reading.step ⟨nodes, blocks⟩ =
      rest.foldlM Reading.step ⟨nodes ++ Item.nodeAll items, blocks⟩ := by
  match items with
  | [] => rw [Item.segmentsAll, Item.nodeAll, List.nil_append, List.append_nil]
  | item :: items =>
    rw [Item.segmentsAll, Item.nodeAll, List.append_assoc,
      Grammar.Item.foldlM_segments item, Grammar.Item.foldlM_segmentsAll items,
      List.append_assoc]
    rfl

/-- In a branch of a conditional, the segments of the further branches are read up to the body of
the last one. -/
theorem Grammar.Arm.exists_foldlM_segmentsAll (arms : List Arm) (nodes outer : List Node)
    (before : List Branch) (condition : Pipeline) (blocks : List (OpenBlock × List Node)) :
    ∃ body earlier guard,
      (∀ rest, (Arm.segmentsAll arms ++ rest).foldlM Reading.step
          ⟨nodes, (.branch before condition, outer) :: blocks⟩ =
        rest.foldlM Reading.step ⟨body, (.branch earlier guard, outer) :: blocks⟩) ∧
      ∀ otherwise, Node.ofParts earlier (.of guard body) [] otherwise =
        .ofParts before (.of condition nodes) (Arm.treeAll arms) otherwise := by
  match arms with
  | [] => exact ⟨nodes, before, condition, fun rest => rfl, fun otherwise => rfl⟩
  | .of next items :: arms =>
    obtain ⟨body, earlier, guard, leads, same⟩ :=
      Grammar.Arm.exists_foldlM_segmentsAll arms (Item.nodeAll items) outer
        (before ++ [.of condition nodes]) next.tree blocks
    refine ⟨body, earlier, guard, fun rest => ?_, fun otherwise => ?_⟩
    · rw [Arm.segmentsAll, List.cons_append, List.append_assoc,
        foldlM_step_cons (step_opening_elseIf next _ _ _ _ _),
        Grammar.Item.foldlM_segmentsAll items, List.nil_append, leads]
    · rw [same, Node.ofParts_append, Arm.treeAll]

/-- In a block that may go on to a last part, the segments of that part and the end complete
the block. -/
theorem Grammar.Otherwise.foldlM_segments (otherwise : Otherwise) (ending : List Token)
    {block later : OpenBlock} {nodes : List Node} (goes : block.toElse nodes = .ok later)
    (outer : List Node) (blocks : List (OpenBlock × List Node)) (rest : List Segment) :
    (otherwise.segments ++ endAction ending :: rest).foldlM Reading.step
        ⟨nodes, (block, outer) :: blocks⟩ =
      rest.foldlM Reading.step ⟨outer ++ [later.close otherwise.nodes], blocks⟩ := by
  match otherwise with
  | .absent =>
    rw [Otherwise.segments, Otherwise.nodes, List.nil_append, OpenBlock.close_of_toElse goes]
    exact foldlM_step_cons (step_endAction ending block nodes outer blocks) rest
  | .present items =>
    rw [Otherwise.segments, Otherwise.nodes, List.cons_append,
      foldlM_step_cons (step_otherwiseAction goes outer blocks),
      Grammar.Item.foldlM_segmentsAll items, List.nil_append]
    exact foldlM_step_cons (step_endAction ending later _ outer blocks) rest

end

/-- The segments of a derivation stand for the nodes that it describes. -/
theorem Grammar.Item.ofSegments_segmentsAll (items : List Item) :
    Node.ofSegments (Item.segmentsAll items) = .ok (Item.nodeAll items) := by
  have read := Grammar.Item.foldlM_segmentsAll items [] [] []
  rw [List.append_nil] at read
  rw [Node.ofSegments, read]
  rfl

end Reading

section Demands

/-- The parts that an open block may still have before its end. -/
def OpenBlock.Lacks : OpenBlock → List Segment → Prop
  | .branch _ _, parts =>
    ∃ (arms : List Arm) (otherwise : Otherwise),
      Arm.segmentsAll arms ++ otherwise.segments = parts
  | .range _, parts => ∃ otherwise : Otherwise, otherwise.segments = parts
  | .within _, parts => ∃ otherwise : Otherwise, otherwise.segments = parts
  | .otherwise _ _, parts => [] = parts
  | .rangeOtherwise _ _, parts => [] = parts
  | .withinOtherwise _ _, parts => [] = parts

/-- The segments complete the open blocks: for each of them from the innermost outwards, they
have items, the parts that it lacks and its end, and they end with items outside of all. -/
def Demands : List (OpenBlock × List Node) → List Segment → Prop
  | [], segments => ∃ items, Item.segmentsAll items = segments
  | (block, _) :: blocks, segments =>
    ∃ items parts ending rest, block.Lacks parts ∧ Demands blocks rest ∧
      Item.segmentsAll items ++ (parts ++ endAction ending :: rest) = segments

/-- An item may come before what completes the open blocks. -/
theorem Demands.item {blocks : List (OpenBlock × List Node)} {rest : List Segment}
    (demands : Demands blocks rest) (item : Item) : Demands blocks (item.segments ++ rest) := by
  cases blocks with
  | nil =>
    obtain ⟨items, rfl⟩ := demands
    exact ⟨item :: items, rfl⟩
  | cons block blocks =>
    obtain ⟨items, parts, ending, rest, lacks, demands, rfl⟩ := demands
    exact ⟨item :: items, parts, ending, rest, lacks, demands, List.append_assoc _ _ _⟩

/-- A conditional that is completed is an item. -/
theorem Demands.conditional {condition : Pipeline} {outer : List Node}
    {blocks : List (OpenBlock × List Node)} {rest : List Segment}
    (demands : Demands ((.branch [] condition, outer) :: blocks) rest) (chain : Chain) :
    Demands blocks (opening ["if"] chain :: rest) := by
  obtain ⟨body, -, ending, rest, ⟨arms, otherwise, rfl⟩, demands, rfl⟩ := demands
  simpa [Item.segments] using demands.item (.conditional chain body arms otherwise ending)

/-- A block that is completed is an item. -/
theorem Demands.block (scope : Scope) {value : Pipeline} {outer : List Node}
    {blocks : List (OpenBlock × List Node)} {rest : List Segment}
    (demands : Demands ((scope.openBlock value, outer) :: blocks) rest) (chain : Chain) :
    Demands blocks (opening [scope.word] chain :: rest) := by
  obtain ⟨body, parts, ending, rest, lacks, demands, rfl⟩ := demands
  obtain ⟨otherwise, rfl⟩ : ∃ otherwise : Otherwise, otherwise.segments = parts := by
    cases scope <;> exact lacks
  simpa [Item.segments] using demands.item (.block scope chain body otherwise ending)

/-- A block that goes on to its last part is completed with that part. -/
theorem Demands.otherwise {block later : OpenBlock} {nodes outer : List Node}
    {blocks : List (OpenBlock × List Node)} {rest : List Segment}
    (goes : block.toElse nodes = .ok later) (demands : Demands ((later, outer) :: blocks) rest) :
    Demands ((block, outer) :: blocks) (otherwiseAction :: rest) := by
  obtain ⟨items, parts, ending, rest, lacks, demands, rfl⟩ := demands
  have last : parts = [] := by
    cases block with
    | branch before condition =>
      cases before <;> (obtain rfl := Except.ok.inj goes; exact lacks.symm)
    | range | within =>
      obtain rfl := Except.ok.inj goes
      exact lacks.symm
    | otherwise | rangeOtherwise | withinOtherwise => exact nomatch goes
  have present : block.Lacks (otherwiseAction :: Item.segmentsAll items) := by
    cases block with
    | branch => exact ⟨[], .present items, rfl⟩
    | range | within => exact ⟨.present items, rfl⟩
    | otherwise | rangeOtherwise | withinOtherwise => exact nomatch goes
  subst last
  exact ⟨[], _, ending, rest, present, demands, rfl⟩

/-- A conditional that goes on to a further branch is completed with that branch. -/
theorem Demands.arm {block later : OpenBlock} {nodes outer : List Node}
    {blocks : List (OpenBlock × List Node)} {rest : List Segment} {chain : Chain}
    (goes : block.toElseIf nodes chain.tree = .ok later)
    (demands : Demands ((later, outer) :: blocks) rest) :
    Demands ((block, outer) :: blocks) (opening ["else", "if"] chain :: rest) := by
  cases block with
  | branch before guard =>
    obtain rfl := Except.ok.inj goes
    obtain ⟨body, -, ending, rest, ⟨arms, otherwise, rfl⟩, demands, rfl⟩ := demands
    refine ⟨[], _, ending, rest, ⟨.of chain body :: arms, otherwise, rfl⟩, demands, ?_⟩
    simp [Item.segmentsAll, Arm.segmentsAll]
  | range | within | otherwise | rangeOtherwise | withinOtherwise => exact nomatch goes

/-- A block that ends lacks no further part. -/
theorem Demands.ends {blocks : List (OpenBlock × List Node)} {rest : List Segment}
    (demands : Demands blocks rest) (block : OpenBlock) (outer : List Node)
    (ending : List Token) : Demands ((block, outer) :: blocks) (endAction ending :: rest) := by
  have lacks : block.Lacks [] := by
    cases block with
    | branch => exact ⟨[], .absent, rfl⟩
    | range | within => exact ⟨.absent, rfl⟩
    | otherwise | rangeOtherwise | withinOtherwise => rfl
  exact ⟨[], [], ending, rest, lacks, demands, rfl⟩

/-- A segment that is read completes the open blocks together with what completes those that are
open after it. -/
theorem Demands.step {segment : Segment} {reading next : Reading} {rest : List Segment}
    (goes : reading.step segment = .ok next) (demands : Demands next.blocks rest) :
    Demands reading.blocks (segment :: rest) := by
  cases segment with
  | text content =>
    obtain rfl := Except.ok.inj goes
    exact demands.item (.text content)
  | action tokens =>
    obtain ⟨action, said, acts⟩ := exists_of_bind_ok goes
    have spells := Action.spells_of_ofTokens said
    cases action with
    | output pipeline =>
      obtain ⟨chain, rfl, rfl, plain⟩ := spells
      obtain rfl := Except.ok.inj acts
      exact demands.item (.output chain plain)
    | openIf condition =>
      obtain ⟨chain, rfl, rfl⟩ := spells
      obtain rfl := Except.ok.inj acts
      exact demands.conditional chain
    | openRange source =>
      obtain ⟨chain, rfl, rfl⟩ := spells
      obtain rfl := Except.ok.inj acts
      exact Demands.block .range demands chain
    | openWith value =>
      obtain ⟨chain, rfl, rfl⟩ := spells
      obtain rfl := Except.ok.inj acts
      exact Demands.block .within demands chain
    | elseIf condition =>
      obtain ⟨chain, rfl, rfl⟩ := spells
      obtain ⟨nodes, blocks⟩ := reading
      cases blocks with
      | nil => exact nomatch acts
      | cons block blocks =>
        obtain ⟨later, turns, rfl⟩ := exists_of_map_ok acts
        exact demands.arm turns
    | elseOnly =>
      obtain rfl := spells
      obtain ⟨nodes, blocks⟩ := reading
      cases blocks with
      | nil => exact nomatch acts
      | cons block blocks =>
        obtain ⟨later, turns, rfl⟩ := exists_of_map_ok acts
        exact demands.otherwise turns
    | endBlock =>
      obtain ⟨ending, rfl⟩ := spells
      obtain ⟨nodes, blocks⟩ := reading
      cases blocks with
      | nil => exact nomatch acts
      | cons block blocks =>
        obtain rfl := Except.ok.inj acts
        exact demands.ends block.1 block.2 ending

/-- Segments that are read to the end complete the blocks that are open before them. -/
theorem demands_of_foldlM {segments : List Segment} {reading next : Reading}
    {nodes : List Node} (goes : segments.foldlM Reading.step reading = .ok next)
    (finishes : next.finish = .ok nodes) : Demands reading.blocks segments := by
  induction segments generalizing reading with
  | nil =>
    obtain rfl := Except.ok.inj goes
    unfold Reading.finish at finishes
    split at finishes
    · rename_i closed
      rw [closed]
      exact ⟨[], rfl⟩
    · exact nomatch finishes
  | cons segment segments ih =>
    rw [List.foldlM_cons] at goes
    obtain ⟨middle, first, later⟩ := exists_of_bind_ok goes
    exact (ih later).step first

/-- The segments that stand for nodes are those of the derivation that describes them. -/
theorem Node.ofSegments_eq_ok_iff {segments : List Segment} {nodes : List Node} :
    Node.ofSegments segments = .ok nodes ↔
      ∃ items, Item.segmentsAll items = segments ∧ Item.nodeAll items = nodes := by
  constructor
  · intro read
    obtain ⟨reading, goes, finishes⟩ := exists_of_bind_ok read
    obtain ⟨items, rfl⟩ := demands_of_foldlM goes finishes
    have described := Item.ofSegments_segmentsAll items
    exact ⟨items, rfl, Except.ok.inj (described.symm.trans read)⟩
  · rintro ⟨items, rfl, rfl⟩
    exact Item.ofSegments_segmentsAll items

end Demands

/-- A template that has segments parses if and only if they are derived by the grammar. They have
at most one derivation, and the nodes of the template are those that it describes. -/
theorem parse_iff_derived {source : String} {parts : List Segment}
    (lexes : segments source.toList = .ok parts) (name : String) :
    ((∃ template, parse name source = .ok template) ↔
        ∃ items, Item.segmentsAll items = parts) ∧
      (∀ items, Item.segmentsAll items = parts →
        parse name source = .ok ⟨name, Item.nodeAll items⟩) ∧
      ∀ items others, Item.segmentsAll items = parts → Item.segmentsAll others = parts →
        items = others := by
  have parses (items : List Item) (derived : Item.segmentsAll items = parts) :
      parse name source = .ok ⟨name, Item.nodeAll items⟩ := by
    subst derived
    have reads : (segments source.toList >>= Node.ofSegments) = .ok (Item.nodeAll items) := by
      rw [lexes]
      exact Item.ofSegments_segmentsAll items
    rw [parse, reads]
  refine ⟨⟨?_, ?_⟩, parses, ?_⟩
  · rintro ⟨template, parsed⟩
    obtain ⟨found, read, made⟩ := segments_of_parse parsed
    obtain rfl := Except.ok.inj (lexes.symm.trans read)
    obtain ⟨items, derived, -⟩ := Node.ofSegments_eq_ok_iff.1 made
    exact ⟨items, derived⟩
  · rintro ⟨items, derived⟩
    exact ⟨_, parses items derived⟩
  · intro items others derived same
    exact Item.segmentsAll_injective (derived.trans same.symm)

/-- A list of steps, each with a mark or its number. -/
def stepsSource : String :=
  "\x7b\x7brange .Steps\x7d\x7d\x7b\x7bif .Done\x7d\x7d+\x7b\x7belse if .Next\x7d\x7d>" ++
    "\x7b\x7belse\x7d\x7d\x7b\x7b(len .Name) | add 1\x7d\x7d\x7b\x7bend\x7d\x7d\x7b\x7bend\x7d\x7d"

/-- The path to a field of the current value. -/
def fieldChain (name : String) : Chain := .of (.of (.atom (.dot [name])) []) []

/-- The number of a step. -/
def numberChain : Chain :=
  .of (.of (.group (.of (.of (.atom (.word "len")) [.atom (.dot ["Name"])]) [])) [])
    [.of (.atom (.word "add")) [.atom (.int 1)]]

/-- The derivation of the list of steps. -/
def stepsItems : List Item :=
  [.block .range (fieldChain "Steps")
    [.conditional (fieldChain "Done") [.text "+"] [.of (fieldChain "Next") [.text ">"]]
      (.present [.output numberChain trivial]) []]
    .absent []]

/-- The list of steps parses to the nodes of its derivation. -/
theorem parse_stepsSource :
    segments stepsSource.toList = .ok (Item.segmentsAll stepsItems) ∧
      parse "steps" stepsSource = .ok ⟨"steps", Item.nodeAll stepsItems⟩ := by
  have lexes : segments stepsSource.toList = .ok (Item.segmentsAll stepsItems) := by cbv
  exact ⟨lexes, (parse_iff_derived lexes "steps").2.1 stepsItems rfl⟩

end ComponentPages.Template
