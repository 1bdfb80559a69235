import ComponentPages.Proofs.Template.Comparison
import ComponentPages.Proofs.Template.Congruence
import ComponentPages.Proofs.Template.Lexing
import ComponentPages.Proofs.Template.Parsing
import Mathlib

/-!
# Pipes and applications

Piping a pipeline through a function is giving the function the pipeline, in parentheses, as its last
argument (`pipe_applies`). The two are read in different ways, the one command after command and the
other as a group, and are evaluated in a different order: a pipe has its value before the arguments
of the function have theirs. So they agree where the order makes no difference, which is with a host
whose functions depend on their names and arguments alone: evaluating anything with such a host is
yielding a result that is settled beforehand (`Pipeline.settled_evaluate`).
-/
namespace ComponentPages.Template

open Grammar Text

variable {σ α β : Type}

/-- A host whose functions depend on nothing but their names and their arguments. -/
def Host.Stateless (host : Host σ) : Prop :=
  ∀ name arguments answer, host name arguments = some answer →
    ∃ result : Except Failure Value, answer = liftExcept result

/-- A computation with a result that does not depend on the state, and which leaves the state. -/
def Settled (computation : Eval σ α) : Prop :=
  ∃ result : Except Failure α, computation = liftExcept result

section Settled

/-- A settled computation and settled ones after its value are settled. -/
theorem Settled.bind {computation : Eval σ α} {continuation : α → Eval σ β}
    (settled : Settled computation) (later : ∀ value, Settled (continuation value)) :
    Settled (computation >>= continuation) := by
  obtain ⟨result, rfl⟩ := settled
  cases result with
  | error failure => exact ⟨.error failure, rfl⟩
  | ok value =>
    obtain ⟨result, same⟩ := later value
    exact ⟨result, same⟩

/-- A computation is settled, as a relation between it and itself. -/
def settledCongruence (σ : Type) : Congruence σ where
  Relates first second := first = second ∧ Settled first
  GivesUp _ := True
  range_givesUp _ := trivial
  relates_pure value := ⟨rfl, .ok value, rfl⟩
  relates_throw _ := ⟨rfl, .error _, rfl⟩
  relates_bind start later := by
    obtain ⟨rfl, settled⟩ := start
    exact ⟨congrArg _ (funext fun value => (later value).1), settled.bind fun value => (later value).2⟩

/-- What a host without a state answers is settled. -/
theorem Host.Stateless.supports {host : Host σ} (stateless : host.Stateless) :
    (settledCongruence σ).Supports host host := by
  intro name arguments
  cases answers : host name arguments with
  | none => exact .none
  | some answer => exact .some ⟨rfl, stateless name arguments answer answers⟩

variable {template : String} {data : Value} {host : Host σ}

/-- The value of a pipeline is settled. -/
theorem Pipeline.settled_evaluate (stateless : host.Stateless) (pipeline : Pipeline) (dot : Value) :
    Settled (pipeline.evaluate ⟨template, data, host⟩ dot) :=
  (pipeline.relates_evaluate stateless.supports dot).2

/-- The values of operands are settled. -/
theorem Operand.settled_evaluateAll (stateless : host.Stateless) (operands : List Operand)
    (dot : Value) : Settled (Operand.evaluateAll ⟨template, data, host⟩ dot operands) :=
  (Operand.relates_evaluateAll stateless.supports operands dot).2

end Settled

section Evaluation

variable (setting : Setting σ) (dot : Value)

/-- The value of operands and of one after them. -/
theorem Operand.evaluateAll_concat (operands : List Operand) (last : Operand) :
    Operand.evaluateAll setting dot (operands ++ [last]) = (do
      let values ← Operand.evaluateAll setting dot operands
      let value ← last.evaluate setting dot
      pure (values ++ [value])) := by
  induction operands with
  | nil => simp only [List.nil_append, Operand.evaluateAll, pure_bind]
  | cons operand operands ih =>
    simp only [List.cons_append, Operand.evaluateAll, ih, bind_assoc, pure_bind]

/-- A last command is given the value of the commands before it. -/
theorem Command.evaluateAll_concat (piped : Value) (commands : List Command) (last : Command) :
    Command.evaluateAll setting dot piped (commands ++ [last]) = (do
      let value ← Command.evaluateAll setting dot piped commands
      last.evaluate setting dot (some value)) := by
  induction commands generalizing piped with
  | nil => simp only [List.nil_append, Command.evaluateAll, pure_bind, bind_pure]
  | cons command commands ih =>
    simp only [List.cons_append, Command.evaluateAll, ih, bind_assoc]

/-- Two computations have one outcome: both fail, or both yield the same value. -/
def SameOutcome (first second : Eval σ α) : Prop :=
  ∀ state, (first.run state).1.toOption = (second.run state).1.toOption

/-- What is made of the value of computations with one outcome is the same. -/
theorem SameOutcome.map {first second : Eval σ α} (same : SameOutcome first second)
    (change : α → β) : SameOutcome (change <$> first) (change <$> second) := by
  intro state
  have outcome := same state
  rw [map_eq_pure_bind, map_eq_pure_bind, run_bind, run_bind]
  generalize first.run state = left at outcome ⊢
  generalize second.run state = right at outcome ⊢
  obtain ⟨left, next⟩ := left
  obtain ⟨right, after⟩ := right
  cases left <;> cases right <;> simp_all [Except.toOption, run_pure]

/-- A pipeline whose value is given to a further command. -/
def Pipeline.through : Pipeline → Command → Pipeline
  | .of first others, last => .of first (others ++ [last])

/-- The value of a pipeline is given to the command that it is piped through. -/
theorem Pipeline.evaluate_through (pipeline : Pipeline) (last : Command) :
    (pipeline.through last).evaluate setting dot = (do
      let value ← pipeline.evaluate setting dot
      last.evaluate setting dot (some value)) := by
  cases pipeline with
  | of first others =>
    simp only [Pipeline.through, Pipeline.evaluate, Command.evaluateAll_concat, bind_assoc]

/-- A function that is given a pipeline as its last argument. -/
def Pipeline.applied (pipeline : Pipeline) (head : Operand) (arguments : List Operand) : Pipeline :=
  .of (.of head (arguments ++ [.group pipeline])) []

/-- A value that is no function is given no argument. -/
theorem Command.evaluate_literal (value : Value) {arguments : List Operand} {piped : Option Value}
    (given : arguments ≠ [] ∨ piped ≠ none) :
    (Command.of (.literal value) arguments).evaluate setting dot piped =
      setting.fail .argumentToValue := by
  rw [Command.evaluate]
  · cases arguments <;> cases piped <;> simp_all
  · intro name
    exact nofun

variable {template : String} {data : Value} {host : Host σ}

/-- A template that is the output of a pipeline writes the value of the pipeline. -/
theorem execute_output (pipeline : Pipeline) :
    (⟨template, [.output pipeline]⟩ : Template).execute data host =
      written <$> pipeline.evaluate ⟨template, data, host⟩ data :=
  evaluateAll_output ⟨template, data, host⟩ data pipeline

/-- Piping a pipeline through a word has the outcome of giving the word the pipeline as its last
argument. -/
theorem Pipeline.sameOutcome_through (stateless : host.Stateless) (pipeline : Pipeline)
    (function : String) (arguments : List Operand) :
    SameOutcome
      ((pipeline.through (.of (operandOfWord function) arguments)).evaluate
        ⟨template, data, host⟩ dot)
      ((pipeline.applied (operandOfWord function) arguments).evaluate
        ⟨template, data, host⟩ dot) := by
  obtain ⟨value, evaluates⟩ : Settled (pipeline.evaluate ⟨template, data, host⟩ dot) :=
    pipeline.settled_evaluate stateless dot
  obtain ⟨values, given⟩ : Settled (Operand.evaluateAll ⟨template, data, host⟩ dot arguments) :=
    Operand.settled_evaluateAll stateless arguments dot
  have called (name : String) : SameOutcome
      ((pipeline.through (.of (.call name) arguments)).evaluate ⟨template, data, host⟩ dot)
      ((pipeline.applied (.call name) arguments).evaluate ⟨template, data, host⟩ dot) := by
    intro state
    rw [Pipeline.evaluate_through, Pipeline.applied, Pipeline.evaluate, evaluates]
    simp only [Command.evaluate, Command.evaluateAll, Operand.evaluateAll_concat, given,
      Operand.evaluate, evaluates, bind_assoc, pure_bind, bind_pure, Option.toList, List.append_nil]
    -- Each order of two settled computations has both values, or fails.
    cases value with
    | error failure => cases values <;> rfl
    | ok value =>
      cases values with
      | error other => rfl
      | ok values => rfl
  have refused (literal : Value) : SameOutcome
      ((pipeline.through (.of (.literal literal) arguments)).evaluate ⟨template, data, host⟩ dot)
      ((pipeline.applied (.literal literal) arguments).evaluate ⟨template, data, host⟩ dot) := by
    intro state
    have piped (value : Value) := Command.evaluate_literal ⟨template, data, host⟩ dot literal
      (show arguments ≠ [] ∨ some value ≠ none from .inr (Option.some_ne_none value))
    have given := Command.evaluate_literal ⟨template, data, host⟩ dot literal
      (show arguments ++ [.group pipeline] ≠ [] ∨ none ≠ none from .inl (by simp))
    rw [Pipeline.evaluate_through, Pipeline.applied, Pipeline.evaluate, evaluates]
    simp only [piped, given]
    cases value <;> rfl
  unfold operandOfWord
  split_ifs
  · exact refused _
  · exact refused _
  · exact refused _
  · exact called function

end Evaluation

section Reading

/-- The text of one operand. -/
def IsOperand (text : String) : Prop :=
  ∃ tokens operand, tokenize text.toList = .ok tokens ∧
    Pipeline.ofTokens tokens = .ok (.of (.of operand []) [])

/-- The text of a function and its arguments, with a space in front of each argument. -/
def callText (function : String) (arguments : List String) : String :=
  function ++ String.join (arguments.map (" " ++ ·))

/-- The text of an operand has the tokens of a derivation of one. -/
theorem IsOperand.exists_term {text : String} (isOperand : IsOperand text) :
    ∃ term : Term, Reads text.toList term.tokens := by
  obtain ⟨tokens, operand, read, made⟩ := isOperand
  obtain ⟨⟨⟨term, arguments⟩, others⟩, rfl, tree⟩ := Pipeline.ofTokens_eq_ok_iff.1 made
  obtain ⟨single, alone⟩ := Pipeline.of.inj tree
  obtain ⟨-, none⟩ := Command.of.inj single
  have noArguments : arguments = [] := by
    cases arguments with
    | nil => rfl
    | cons argument arguments => cases none
  have noOthers : others = [] := by
    cases others with
    | nil => rfl
    | cons clause others => cases alone
  subst noArguments noOthers
  refine ⟨term, ?_⟩
  have tokens : (Chain.of (.of term []) []).tokens = term.tokens := by
    simp [Chain.tokens, Clause.tokens, Term.tokensAll, Clause.tokensAll]
  exact tokens ▸ reads_of_tokenize read

/-- The text of a function and its arguments has the tokens of a command with these operands, in
front of a text that goes on with no token. -/
def SpellsCall (function : String) (arguments : List String) (terms : List Term) : Prop :=
  ∀ {rest : List Char} {others : List Token}, Unjoined rest → Reads rest others →
    Reads ((callText function arguments).toList ++ rest)
      (.word function :: (Term.tokensAll terms ++ others))

/-- The text of a function and arguments that are operands has the tokens of a command. -/
theorem exists_spellsCall {function : String} {arguments : List String}
    (word : IsWordName function) (operands : ∀ argument ∈ arguments, IsOperand argument) :
    ∃ terms : List Term, SpellsCall function arguments terms := by
  obtain ⟨terms, given⟩ : ∃ terms : List Term, ∀ {rest : List Char} {others : List Token},
      Unjoined rest → Reads rest others →
        Unjoined ((String.join (arguments.map (" " ++ ·))).toList ++ rest) ∧
          Reads ((String.join (arguments.map (" " ++ ·))).toList ++ rest)
            (Term.tokensAll terms ++ others) := by
    induction arguments with
    | nil => exact ⟨[], fun apart reads => ⟨apart, reads⟩⟩
    | cons argument arguments ih =>
      obtain ⟨here, later⟩ := List.forall_mem_cons.1 operands
      obtain ⟨term, reads⟩ := here.exists_term
      obtain ⟨terms, further⟩ := ih later
      refine ⟨term :: terms, fun {rest others} apart rests => ?_⟩
      obtain ⟨seam, following⟩ := further apart rests
      have whole : (String.join ((argument :: arguments).map (" " ++ ·))).toList ++ rest =
          ' ' :: (argument.toList ++
            ((String.join (arguments.map (" " ++ ·))).toList ++ rest)) := by simp
      rw [whole, Term.tokensAll, List.append_assoc]
      exact ⟨unjoined_cons (by decide) _, (reads.append seam following).blank_cons (by decide)⟩
  refine ⟨terms, fun {rest others} apart rests => ?_⟩
  obtain ⟨seam, following⟩ := given apart rests
  rw [callText, String.toList_append, List.append_assoc]
  exact (reads_word word).append seam following

/-- The derivation of a pipeline whose value is given to a further command. -/
def Grammar.Chain.through : Chain → Clause → Chain
  | .of first others, last => .of first (others ++ [last])

/-- A chain with a further command describes the pipeline with it. -/
theorem Grammar.Chain.tree_through (chain : Chain) (last : Clause) :
    (chain.through last).tree = chain.tree.through last.tree := by
  cases chain with
  | of first others =>
    simp [Chain.through, Chain.tree, Pipeline.through, Clause.treeAll_append, Clause.treeAll]

/-- A chain with a further command has the tokens of both, with a pipe between them. -/
theorem Grammar.Chain.tokens_through (chain : Chain) (last : Clause) :
    (chain.through last).tokens = chain.tokens ++ .pipe :: last.tokens := by
  cases chain with
  | of first others =>
    simp [Chain.through, Chain.tokens, Clause.tokensAll_append, Clause.tokensAll]

/-- What is behind the first token does not matter to how an action starts. -/
theorem Grammar.StartsPlain.append {tokens : List Token} (plain : StartsPlain tokens)
    (some_token : tokens ≠ []) (others : List Token) : StartsPlain (tokens ++ others) := by
  cases tokens with
  | nil => exact absurd rfl some_token
  | cons token tokens => cases token <;> exact plain

/-- The text of an action, with a space on both sides. -/
def actionText (text : String) : String := "\x7b\x7b " ++ text ++ " \x7d\x7d"

/-- A template that is one such action is the output of its pipeline. -/
theorem Outputs.parse_actionText {text : String} {pipeline : Pipeline}
    (outputs : Outputs (' ' :: (text.toList ++ [' '])) pipeline) (name : String) :
    parse name (actionText text) = .ok ⟨name, [.output pipeline]⟩ := by
  have spaced : (" " ++ text ++ " ").toList = ' ' :: (text.toList ++ [' ']) := by simp
  have written : actionText text = "\x7b\x7b" ++ (" " ++ text ++ " ") ++ "\x7d\x7d" := by
    apply String.toList_inj.1
    simp [actionText]
  rw [written]
  exact Outputs.parse_eq (spaced ▸ outputs) name

variable {text function : String} {pipeline : Pipeline} {arguments : List String}
  {terms : List Term}

/-- Behind a pipe, the text of a function and its arguments is a further command. -/
theorem SpellsCall.outputs_through (spells : SpellsCall function arguments terms)
    (outputs : Outputs text.toList pipeline) :
    Outputs (' ' :: ((text ++ " | " ++ callText function arguments).toList ++ [' ']))
      (pipeline.through (.of (operandOfWord function) (Term.treeAll terms))) := by
  obtain ⟨tokens, read, said⟩ := outputs
  obtain ⟨chain, rfl, rfl, plain⟩ := Action.spells_of_ofTokens said
  have space : isBlank ' ' = true := by decide
  have call := spells (unjoined_of_isBlank (List.forall_mem_singleton.2 space))
    (reads_nil.blank_cons space)
  have piped : Reads (' ' :: '|' :: ' ' :: ((callText function arguments).toList ++ [' ']))
      (.pipe :: .word function :: (Term.tokensAll terms ++ [])) :=
    ((call.blank_cons space).mark_cons (by simp)).blank_cons space
  have reads := ((reads_of_tokenize read).append (unjoined_cons (by decide) _) piped).blank_cons space
  refine ⟨(chain.through (.of (.atom (.word function)) terms)).tokens, ?_, Action.Spells.ofTokens
    ⟨_, rfl, chain.tree_through _, ?_⟩⟩
  · rw [chain.tokens_through]
    simpa [Clause.tokens, Term.tokens, Atom.token] using reads.tokenize_eq
  · rw [chain.tokens_through]
    exact plain.append chain.tokens_ne_nil _

/-- With the pipeline in parentheses behind it, the text of a function and its arguments is the
function that is given the pipeline as its last argument. -/
theorem SpellsCall.outputs_applied (spells : SpellsCall function arguments terms)
    (outputs : Outputs text.toList pipeline) (free : function ∉ keywords) :
    Outputs (' ' :: ((callText function arguments ++ " (" ++ text ++ ")").toList ++ [' ']))
      (pipeline.applied (operandOfWord function) (Term.treeAll terms)) := by
  obtain ⟨tokens, read, said⟩ := outputs
  obtain ⟨chain, rfl, rfl, -⟩ := Action.spells_of_ofTokens said
  have space : isBlank ' ' = true := by decide
  have closed : Reads [')', ' '] [.closing] := (reads_nil.blank_cons space).mark_cons (by simp)
  have inside := (reads_of_tokenize read).append (unjoined_cons (by decide) _) closed
  have group : Reads (' ' :: '(' :: (text.toList ++ [')', ' ']))
      (.opening :: (chain.tokens ++ [.closing])) :=
    (inside.mark_cons (by simp)).blank_cons space
  have reads := (spells (unjoined_cons (by decide) _) group).blank_cons space
  refine ⟨(Chain.of (.of (.atom (.word function)) (terms ++ [.group chain])) []).tokens, ?_,
    Action.Spells.ofTokens ⟨_, rfl, ?_, free⟩⟩
  · simpa [Chain.tokens, Clause.tokens, Clause.tokensAll, Term.tokens, Term.tokensAll,
      Term.tokensAll_append, Atom.token] using reads.tokenize_eq
  · simp [Chain.tree, Clause.tree, Clause.treeAll, Term.tree, Term.treeAll, Term.treeAll_append,
      Pipeline.applied, Atom.tree]

end Reading

/-- Piping a pipeline through a function is giving the function the pipeline, in parentheses, as its
last argument: with a host whose functions depend on nothing but their names and arguments, either
both templates fail or they write the same. -/
theorem pipe_applies {text function : String} {pipeline : Pipeline} {arguments : List String}
    (outputs : Outputs text.toList pipeline) (word : IsWordName function)
    (free : function ∉ keywords) (operands : ∀ argument ∈ arguments, IsOperand argument)
    (name : String) :
    ∃ piped nested : Template,
      parse name (actionText (text ++ " | " ++ callText function arguments)) = .ok piped ∧
      parse name (actionText (callText function arguments ++ " (" ++ text ++ ")")) = .ok nested ∧
      ∀ {σ : Type} (data : Value) (host : Host σ), host.Stateless →
        SameOutcome (piped.execute data host) (nested.execute data host) := by
  obtain ⟨terms, spells⟩ := exists_spellsCall word operands
  refine ⟨_, _, (spells.outputs_through outputs).parse_actionText name,
    (spells.outputs_applied outputs free).parse_actionText name, fun data host stateless => ?_⟩
  rw [execute_output, execute_output]
  exact (pipeline.sameOutcome_through data stateless function (Term.treeAll terms)).map written

/-- A host that knows one function, of the number of its arguments. -/
def Host.tallying : Host σ := fun name arguments =>
  if name = "tally" then some (pure (.int (Int64.ofNat arguments.length))) else .none

/-- The number of arguments depends on nothing but them. -/
theorem Host.stateless_tallying : (Host.tallying : Host σ).Stateless := by
  intro name arguments answer known
  obtain ⟨-, same⟩ := Option.ite_none_right_eq_some.1 known
  obtain rfl := Option.some.inj same
  exact ⟨.ok (.int (Int64.ofNat arguments.length)), rfl⟩

/-- The size of a text that holds a pipe and a parenthesis, behind which a name is looked up. -/
def sizeText : String := "print \"a|b)\" (index .names 1) | len"

/-- The pipeline of this text. -/
def sizePipeline : Pipeline :=
  .of (.of (.call "print") [.literal (.str "a|b)"),
    .group (.of (.of (.call "index") [.dot ["names"], .literal (.int 1)]) [])])
    [.of (.call "len") []]

/-- The text is that of an action that writes the value of the pipeline. -/
theorem outputs_sizeText : Outputs sizeText.toList sizePipeline := ⟨_, by cbv, by cbv⟩

/-- The size is printed behind a count and a number of arguments, whether it is piped on or given. -/
theorem pipe_applies_size :
    (Host.tallying : Host Unit).Stateless ∧
    (Host.tallying : Host Unit) "tally" [.null, .str "|("] = some (pure (.int 2)) ∧
    ∃ piped nested : Template,
      parse "size" (actionText (sizeText ++ " | " ++
        callText "print" [".count", "(tally .unit \"|(\")"])) = .ok piped ∧
      parse "size" (actionText (callText "print" [".count", "(tally .unit \"|(\")"] ++ " (" ++
        sizeText ++ ")")) = .ok nested ∧
      SameOutcome
        (piped.execute (.map [("count", .int 3), ("names", .list [.int 0, .str "x"])])
          (Host.tallying : Host Unit))
        (nested.execute (.map [("count", .int 3), ("names", .list [.int 0, .str "x"])])
          (Host.tallying : Host Unit)) := by
  have operands : ∀ argument ∈ [".count", "(tally .unit \"|(\")"], IsOperand argument := by
    let group : Operand := .group (.of (.of (.call "tally") [.dot ["unit"], .literal (.str "|(")]) [])
    exact List.forall_mem_cons.2 ⟨⟨_, .dot ["count"], by cbv, by cbv⟩,
      List.forall_mem_singleton.2 ⟨_, group, by cbv, by cbv⟩⟩
  obtain ⟨piped, nested, reads, applies, same⟩ :=
    pipe_applies outputs_sizeText (show IsWordName "print" by decide) (by decide) operands "size"
  exact ⟨Host.stateless_tallying, rfl, piped, nested, reads, applies,
    same _ Host.tallying Host.stateless_tallying⟩

end ComponentPages.Template
