import ComponentPages.Template

/-!
# Relations that evaluation keeps

One template is evaluated with two hosts. An evaluation is made of values, failures and calls of
functions, in sequence. So a relation between computations that holds of equal values and of
equal failures, and of sequences if it holds of their parts (`Congruence`), holds of the
evaluations of every template, if it holds of the calls that the hosts answer
(`Congruence.relates_execute`).
-/
namespace ComponentPages.Template

variable {σ α β : Type}

/-- A failure is of a kind that is always allowed, or for a cause that may give up. -/
def AllowedBy (givesUp : Abandonment → Prop) (failure : Failure) : Prop :=
  ∀ cause, failure = .abandoned cause → givesUp cause

/-- A relation between computations that sequences keep. -/
structure Congruence (σ : Type) where
  /-- The relation. -/
  Relates : ∀ {α : Type}, Eval σ α → Eval σ α → Prop
  /-- What may give up: some helpers, and the ranges that no list is long enough for. -/
  GivesUp : Abandonment → Prop
  range_givesUp : ∀ {count : Int64}, Overlong count → GivesUp (.range count)
  relates_pure : ∀ {α : Type} (value : α), Relates (pure value) (pure value)
  relates_throw : ∀ {α : Type} {failure : Failure}, AllowedBy GivesUp failure →
    Relates (throw failure : Eval σ α) (throw failure)
  relates_bind : ∀ {α β : Type} {first second : Eval σ α} {continuation other : α → Eval σ β},
    Relates first second → (∀ value, Relates (continuation value) (other value)) →
      Relates (first >>= continuation) (second >>= other)

namespace Congruence

variable {congruence : Congruence σ}

/-- The hosts know the same functions, and their answers are related. -/
def Supports (congruence : Congruence σ) (first second : Host σ) : Prop :=
  ∀ name arguments, Option.Rel congruence.Relates (first name arguments) (second name arguments)

/-- An answer that does not depend on the state is related to itself. -/
theorem relates_liftExcept {answer : Except Failure α}
    (allowed : ∀ failure, answer = .error failure → AllowedBy congruence.GivesUp failure) :
    congruence.Relates (liftExcept answer) (liftExcept answer) := by
  cases answer with
  | error failure => exact congruence.relates_throw (allowed failure rfl)
  | ok value => exact congruence.relates_pure value

/-- Runs for each item are related if those for every item are. -/
theorem relates_mapM {items : List α} {action other : α → Eval σ β}
    (each : ∀ item, congruence.Relates (action item) (other item)) :
    congruence.Relates (items.mapM action) (items.mapM other) := by
  induction items with
  | nil =>
    rw [List.mapM_nil, List.mapM_nil]
    exact congruence.relates_pure []
  | cons item items ih =>
    rw [List.mapM_cons, List.mapM_cons]
    exact congruence.relates_bind (each item) fun value =>
      congruence.relates_bind ih fun values => congruence.relates_pure (value :: values)

end Congruence

open Congruence

/-- A function of one argument and more fails under its own name. -/
theorem withOne_error {name : String} {arguments : List Value} {apply : Value → List Value → α}
    {failure : Failure} (failed : withOne name arguments apply = .error failure) :
    ∃ fault, failure = .function name fault := by
  cases arguments with
  | nil => exact ⟨_, (Except.error.inj failed).symm⟩
  | cons first others => exact nomatch failed

/-- A function of two arguments and more fails under its own name. -/
theorem withTwo_error {name : String} {arguments : List Value}
    {apply : Value → Value → List Value → α} {failure : Failure}
    (failed : withTwo name arguments apply = .error failure) :
    ∃ fault, failure = .function name fault := by
  unfold withTwo at failed
  split at failed
  · exact nomatch failed
  · exact ⟨_, (Except.error.inj failed).symm⟩

/-- A comparison fails under its own name. -/
theorem ordered_error {name : String} {arguments : List Value} {accept : Ordering → Bool}
    {failure : Failure} (failed : ordered name arguments accept = .error failure) :
    ∃ fault, failure = .function name fault := by
  unfold ordered at failed
  cases compared : withTwo name arguments fun left right _ => left.order right with
  | error other =>
    rw [compared] at failed
    obtain ⟨fault, same⟩ := withTwo_error compared
    exact ⟨fault, (Except.error.inj failed).symm.trans same⟩
  | ok order =>
    rw [compared] at failed
    cases order with
    | none => exact ⟨_, (Except.error.inj failed).symm⟩
    | some order => exact nomatch failed

/-- The function of sizes fails under its own name. -/
theorem size_error {name : String} {arguments : List Value} {failure : Failure}
    (failed : size name arguments = .error failure) : ∃ fault, failure = .function name fault := by
  unfold size at failed
  cases measured : withOne name arguments fun value _ => value.size? with
  | error other =>
    rw [measured] at failed
    obtain ⟨fault, same⟩ := withOne_error measured
    exact ⟨fault, (Except.error.inj failed).symm.trans same⟩
  | ok length =>
    rw [measured] at failed
    cases length with
    | none => exact ⟨_, (Except.error.inj failed).symm⟩
    | some length => exact nomatch failed

/-- A built-in function fails under its own name. -/
theorem builtin_error {name : String} {arguments : List Value} {failure : Failure}
    (failed : builtin name arguments = some (.error failure)) :
    ∃ fault, failure = .function name fault := by
  unfold builtin at failed
  split at failed
  · exact withTwo_error (Option.some.inj failed)
  · exact withTwo_error (Option.some.inj failed)
  · exact ordered_error (Option.some.inj failed)
  · exact ordered_error (Option.some.inj failed)
  · exact ordered_error (Option.some.inj failed)
  · exact ordered_error (Option.some.inj failed)
  · exact withOne_error (Option.some.inj failed)
  · exact nomatch Option.some.inj failed
  · exact nomatch Option.some.inj failed
  · exact size_error (Option.some.inj failed)
  · exact withOne_error (Option.some.inj failed)
  · exact nomatch Option.some.inj failed
  · exact nomatch failed

variable {congruence : Congruence σ} {template : String} {data : Value} {first second : Host σ}

/-- The failure to list the items of a range is allowed. -/
theorem Setting.allows_items {setting : Setting σ} {value : Value} {failure : Failure}
    (failed : setting.items value = .error failure) : AllowedBy congruence.GivesUp failure := by
  unfold Setting.items at failed
  split at failed
  · cases failed
  · cases failed
  · split at failed
    · rename_i overlong
      obtain rfl := Except.error.inj failed
      rintro cause ⟨⟩
      exact congruence.range_givesUp overlong
    · cases failed
  · cases failed
  · obtain rfl := Except.error.inj failed
    rintro cause ⟨⟩

/-- Calls of functions are related if those that the hosts answer are. -/
theorem Setting.relates_call (supports : congruence.Supports first second) (name : String)
    (arguments : List Value) :
    congruence.Relates (Setting.call ⟨template, data, first⟩ name arguments)
      (Setting.call ⟨template, data, second⟩ name arguments) := by
  simp only [Setting.call]
  have calls := supports name arguments
  generalize first name arguments = answer at calls ⊢
  generalize second name arguments = other at calls ⊢
  cases calls with
  | some related => exact related
  | none =>
    cases known : builtin name arguments with
    | none => exact congruence.relates_throw fun _ wrong => nomatch wrong
    | some answer =>
      refine relates_liftExcept fun failure failed => ?_
      obtain ⟨fault, rfl⟩ := builtin_error (failed ▸ known)
      exact fun _ wrong => nomatch wrong

mutual

/-- Evaluations of an operand are related. -/
theorem Operand.relates_evaluate (supports : congruence.Supports first second) (operand : Operand) :
    ∀ dot : Value, congruence.Relates (operand.evaluate ⟨template, data, first⟩ dot)
      (operand.evaluate ⟨template, data, second⟩ dot) := by
  intro dot
  cases operand with
  | dot path => exact congruence.relates_pure _
  | root path => exact congruence.relates_pure _
  | call name => exact Setting.relates_call supports name []
  | literal value => exact congruence.relates_pure value
  | group pipeline => exact pipeline.relates_evaluate supports dot

/-- Evaluations of operands are related. -/
theorem Operand.relates_evaluateAll (supports : congruence.Supports first second)
    (operands : List Operand) :
    ∀ dot : Value, congruence.Relates (Operand.evaluateAll ⟨template, data, first⟩ dot operands)
      (Operand.evaluateAll ⟨template, data, second⟩ dot operands) := by
  intro dot
  cases operands with
  | nil => exact congruence.relates_pure []
  | cons operand operands =>
    simp only [Operand.evaluateAll]
    exact congruence.relates_bind (operand.relates_evaluate supports dot) fun value =>
      congruence.relates_bind (Operand.relates_evaluateAll supports operands dot) fun values =>
        congruence.relates_pure (value :: values)

/-- Evaluations of a command are related. -/
theorem Command.relates_evaluate (supports : congruence.Supports first second) (command : Command) :
    ∀ (dot : Value) (piped : Option Value),
      congruence.Relates (command.evaluate ⟨template, data, first⟩ dot piped)
        (command.evaluate ⟨template, data, second⟩ dot piped) := by
  intro dot piped
  cases command with
  | of head arguments =>
    -- A head that is no function has a value of its own, if it is given no argument.
    have alone : congruence.Relates
        (if arguments.isEmpty && piped.isNone then head.evaluate ⟨template, data, first⟩ dot
          else Setting.fail ⟨template, data, first⟩ .argumentToValue)
        (if arguments.isEmpty && piped.isNone then head.evaluate ⟨template, data, second⟩ dot
          else Setting.fail ⟨template, data, second⟩ .argumentToValue) := by
      split
      · exact head.relates_evaluate supports dot
      · exact congruence.relates_throw fun _ wrong => nomatch wrong
    cases head with
    | call name =>
      simp only [Command.evaluate]
      refine congruence.relates_bind (Operand.relates_evaluateAll supports arguments dot) ?_
      exact fun values => Setting.relates_call supports name (values ++ piped.toList)
    | dot path => exact alone
    | root path => exact alone
    | literal value => exact alone
    | group pipeline => exact alone

/-- Evaluations of commands that a value is piped through are related. -/
theorem Command.relates_evaluateAll (supports : congruence.Supports first second)
    (commands : List Command) :
    ∀ dot piped : Value,
      congruence.Relates (Command.evaluateAll ⟨template, data, first⟩ dot piped commands)
        (Command.evaluateAll ⟨template, data, second⟩ dot piped commands) := by
  intro dot piped
  cases commands with
  | nil => exact congruence.relates_pure piped
  | cons command commands =>
    simp only [Command.evaluateAll]
    exact congruence.relates_bind (command.relates_evaluate supports dot (some piped)) fun value =>
      Command.relates_evaluateAll supports commands dot value

/-- Evaluations of a pipeline are related. -/
theorem Pipeline.relates_evaluate (supports : congruence.Supports first second)
    (pipeline : Pipeline) :
    ∀ dot : Value, congruence.Relates (pipeline.evaluate ⟨template, data, first⟩ dot)
      (pipeline.evaluate ⟨template, data, second⟩ dot) := by
  intro dot
  cases pipeline with
  | of command others =>
    simp only [Pipeline.evaluate]
    exact congruence.relates_bind (command.relates_evaluate supports dot none) fun value =>
      Command.relates_evaluateAll supports others dot value

end

mutual

/-- Evaluations of a node are related. -/
theorem Node.relates_evaluate (supports : congruence.Supports first second) (node : Node) :
    ∀ dot : Value, congruence.Relates (node.evaluate ⟨template, data, first⟩ dot)
      (node.evaluate ⟨template, data, second⟩ dot) := by
  intro dot
  cases node with
  | text content => exact congruence.relates_pure content
  | output pipeline =>
    simp only [Node.evaluate]
    exact congruence.relates_bind (pipeline.relates_evaluate supports dot) fun value =>
      congruence.relates_pure (written value)
  | conditional branch others otherwise =>
    cases branch with
    | of condition body =>
      simp only [Node.evaluate]
      refine congruence.relates_bind (condition.relates_evaluate supports dot) fun value => ?_
      split
      · exact Node.relates_evaluateAll supports body dot
      · refine congruence.relates_bind (Branch.relates_evaluateFirst supports others dot) ?_
        intro output
        split
        · exact congruence.relates_pure _
        · exact Node.relates_evaluateAll supports otherwise dot
  | range source body otherwise =>
    simp only [Node.evaluate]
    refine congruence.relates_bind (source.relates_evaluate supports dot) fun value => ?_
    refine congruence.relates_bind (relates_liftExcept fun failure failed => ?_) fun items => ?_
    · exact Setting.allows_items failed
    split
    · exact Node.relates_evaluateAll supports otherwise dot
    · refine congruence.relates_bind (relates_mapM fun item => ?_)
        fun outputs => congruence.relates_pure (String.join outputs)
      exact Node.relates_evaluateAll supports body item
  | within pipeline body otherwise =>
    simp only [Node.evaluate]
    refine congruence.relates_bind (pipeline.relates_evaluate supports dot) fun value => ?_
    split
    · exact Node.relates_evaluateAll supports body value
    · exact Node.relates_evaluateAll supports otherwise dot

/-- Evaluations of nodes are related. -/
theorem Node.relates_evaluateAll (supports : congruence.Supports first second)
    (nodes : List Node) :
    ∀ dot : Value, congruence.Relates (Node.evaluateAll ⟨template, data, first⟩ dot nodes)
      (Node.evaluateAll ⟨template, data, second⟩ dot nodes) := by
  intro dot
  cases nodes with
  | nil => exact congruence.relates_pure ""
  | cons node nodes =>
    simp only [Node.evaluateAll]
    exact congruence.relates_bind (node.relates_evaluate supports dot) fun output =>
      congruence.relates_bind (Node.relates_evaluateAll supports nodes dot) fun outputs =>
        congruence.relates_pure (output ++ outputs)

/-- Evaluations of the first branch whose condition holds are related. -/
theorem Branch.relates_evaluateFirst (supports : congruence.Supports first second)
    (branches : List Branch) :
    ∀ dot : Value, congruence.Relates (Branch.evaluateFirst ⟨template, data, first⟩ dot branches)
      (Branch.evaluateFirst ⟨template, data, second⟩ dot branches) := by
  intro dot
  cases branches with
  | nil => exact congruence.relates_pure none
  | cons branch branches =>
    cases branch with
    | of condition body =>
      simp only [Branch.evaluateFirst]
      refine congruence.relates_bind (condition.relates_evaluate supports dot) fun value => ?_
      split
      · exact congruence.relates_bind (Node.relates_evaluateAll supports body dot) fun output =>
          congruence.relates_pure (some output)
      · exact Branch.relates_evaluateFirst supports branches dot

end

/-- Executions of a template are related if the calls that the hosts answer are. -/
theorem Congruence.relates_execute (supports : congruence.Supports first second)
    (template : Template) (data : Value) :
    congruence.Relates (template.execute data first) (template.execute data second) :=
  Node.relates_evaluateAll supports template.nodes data

end ComponentPages.Template
