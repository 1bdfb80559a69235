import ComponentPages.Proofs.Template.Contents

/-!
# Two runs of one evaluation

One evaluation is run from two states that correspond. The states correspond in a world, which
also says what markup is trusted; a run leads to a later world, where no trust is lost. Two runs
match when they have the same outcome, lead to states that correspond in one later world, and
yield what is trusted there. If the calls of a host match, so do the runs of every template
(`Template.matches_execute`): the host alone makes runs differ and makes markup trusted.
-/
namespace ComponentPages.Template

variable {ω σ α β : Type}

/-- A pure computation yields its value and keeps the state. -/
theorem run_pure (value : α) (state : σ) :
    (pure value : Eval σ α).run state = (.ok value, state) := by rfl

/-- A sequence ends with the failure of its first computation, else with what comes after. -/
theorem run_bind (computation : Eval σ α) (continuation : α → Eval σ β) (state : σ) :
    (computation >>= continuation).run state =
      match computation.run state with
      | (.ok value, next) => (continuation value).run next
      | (.error failure, next) => (.error failure, next) := by
  change (match computation.run state with
    | (outcome, next) => (ExceptT.bindCont continuation outcome : StateM σ _) next) = _
  cases computation.run state with
  | mk outcome next => cases outcome <;> rfl

/-- Reading the state yields it. -/
theorem run_get (state : σ) : (get : Eval σ σ).run state = (.ok state, state) := by rfl

/-- Changing the state yields nothing. -/
theorem run_modify (change : σ → σ) (state : σ) :
    (modify change : Eval σ Unit).run state = (.ok (), change state) := by rfl

/-- How the states of two runs of one evaluation correspond, and what markup is trusted. -/
structure Comparison (ω σ : Type) where
  /-- A run leads from a world to a later one. -/
  Later : ω → ω → Prop
  /-- The states that correspond in a world. -/
  Corresponds : ω → σ → σ → Prop
  /-- The markup that is trusted in a world. -/
  Trusted : ω → String → Prop
  later_refl : ∀ world, Later world world
  later_trans : ∀ {world middle last}, Later world middle → Later middle last → Later world last
  trusted_later : ∀ {world last}, Later world last → ∀ markup,
    Trusted world markup → Trusted last markup
  trusted_empty : ∀ world, Trusted world ""
  trusted_append : ∀ {world markup others}, Trusted world markup → Trusted world others →
    Trusted world (markup ++ others)
  trusted_escape : ∀ world text, Trusted world (escape text)

namespace Comparison

variable {comparison : Comparison ω σ}

/-- All trusted markup in a value is trusted in a world. -/
def Good (comparison : Comparison ω σ) (world : ω) (value : Value) : Prop :=
  value.Holds (comparison.Trusted world)

/-- All trusted markup in values is trusted in a world. -/
def AllGood (comparison : Comparison ω σ) (world : ω) (values : List Value) : Prop :=
  ∀ value ∈ values, comparison.Good world value

/-- Every text is trusted in a world. -/
def AllTrusted (comparison : Comparison ω σ) (world : ω) (texts : List String) : Prop :=
  ∀ text ∈ texts, comparison.Trusted world text

/-- Two runs from states that correspond have the same outcome and lead to states that
correspond in one later world, where what they yield is good. -/
def Matches (comparison : Comparison ω σ) (world : ω) (good : ω → α → Prop)
    (computation : Eval σ α) : Prop :=
  ∀ left right, comparison.Corresponds world left right →
    ∃ last, comparison.Later world last ∧
      comparison.Corresponds last (computation.run left).2 (computation.run right).2 ∧
      (computation.run left).1 = (computation.run right).1 ∧
      ∀ value, (computation.run left).1 = .ok value → good last value

/-- The calls that a host answers match in every later world. -/
def Supports (comparison : Comparison ω σ) (world : ω) (host : Host σ) : Prop :=
  ∀ last, comparison.Later world last → ∀ name arguments answer,
    comparison.AllGood last arguments → host name arguments = some answer →
      comparison.Matches last comparison.Good answer

/-- A value that is good stays good. -/
theorem Good.later {world last : ω} {value : Value}
    (later : comparison.Later world last) (good : comparison.Good world value) :
    comparison.Good last value :=
  good.mono (comparison.trusted_later later)

/-- Values that are good stay good. -/
theorem AllGood.later {world last : ω} {values : List Value}
    (later : comparison.Later world last) (good : comparison.AllGood world values) :
    comparison.AllGood last values :=
  fun value member => (good value member).later later

/-- Texts that are trusted stay trusted. -/
theorem AllTrusted.later {world last : ω} {texts : List String}
    (later : comparison.Later world last) (trusted : comparison.AllTrusted world texts) :
    comparison.AllTrusted last texts :=
  fun text member => comparison.trusted_later later text (trusted text member)

/-- A host goes on to match calls. -/
theorem Supports.later {world last : ω} {host : Host σ}
    (later : comparison.Later world last) (supports : comparison.Supports world host) :
    comparison.Supports last host :=
  fun next after => supports next (comparison.later_trans later after)

/-- The values of two lists are good exactly when those of each are. -/
theorem allGood_append {world : ω} {values others : List Value} :
    comparison.AllGood world (values ++ others) ↔
      comparison.AllGood world values ∧ comparison.AllGood world others := by
  simp only [AllGood, List.mem_append, or_imp, forall_and]

/-- The texts of two lists are trusted exactly when those of each are. -/
theorem allTrusted_append {world : ω} {texts others : List String} :
    comparison.AllTrusted world (texts ++ others) ↔
      comparison.AllTrusted world texts ∧ comparison.AllTrusted world others := by
  simp only [AllTrusted, List.mem_append, or_imp, forall_and]

/-- Trusted texts are trusted together. -/
theorem trusted_join {world : ω} {texts : List String}
    (trusted : comparison.AllTrusted world texts) :
    comparison.Trusted world (String.join texts) := by
  induction texts with
  | nil => exact comparison.trusted_empty world
  | cons text texts ih =>
    rw [String.join_cons]
    exact comparison.trusted_append (trusted text List.mem_cons_self)
      (ih fun other member => trusted other (List.mem_cons_of_mem _ member))

/-- What an action writes for a good value is trusted. -/
theorem trusted_written {world : ω} {value : Value}
    (good : comparison.Good world value) : comparison.Trusted world (written value) := by
  cases good with
  | html trusted => exact trusted
  | null => exact comparison.trusted_escape world _
  | bool flag => exact comparison.trusted_escape world _
  | int number => exact comparison.trusted_escape world _
  | float number => exact comparison.trusted_escape world _
  | str text => exact comparison.trusted_escape world _
  | list each => exact comparison.trusted_escape world _
  | map each => exact comparison.trusted_escape world _

/-- Two runs that yield a good value at once match. -/
theorem matches_pure {world : ω} {good : ω → α → Prop} {value : α}
    (here : good world value) : comparison.Matches world good (pure value) := by
  intro left right corresponds
  refine ⟨world, comparison.later_refl world, corresponds, rfl, fun found same => ?_⟩
  obtain rfl := Except.ok.inj same
  exact here

/-- Two runs that fail at once match. -/
theorem matches_throw {world : ω} {good : ω → α → Prop}
    (failure : Failure) : comparison.Matches world good (throw failure) := by
  intro left right corresponds
  exact ⟨world, comparison.later_refl world, corresponds, rfl, fun found same => nomatch same⟩

/-- Runs of a sequence match if those of the first computation do and those of what comes
after, from every later world. -/
theorem matches_bind {world : ω} {good : ω → β → Prop}
    (middle : ω → α → Prop) {computation : Eval σ α}
    {continuation : α → Eval σ β} (first : comparison.Matches world middle computation)
    (second : ∀ last, comparison.Later world last → ∀ value, middle last value →
      comparison.Matches last good (continuation value)) :
    comparison.Matches world good (computation >>= continuation) := by
  intro left right corresponds
  obtain ⟨last, later, corresponds, same, yields⟩ := first left right corresponds
  simp only [run_bind]
  cases leftRun : computation.run left with
  | mk outcome leftNext =>
    cases rightRun : computation.run right with
    | mk other rightNext =>
      simp only [leftRun, rightRun] at corresponds same yields
      subst same
      cases outcome with
      | error failure => exact ⟨last, later, corresponds, rfl, fun found wrong => nomatch wrong⟩
      | ok value =>
        obtain ⟨final, after, rest⟩ :=
          second last later value (yields value rfl) leftNext rightNext corresponds
        exact ⟨final, comparison.later_trans later after, rest⟩

/-- Runs that read the state match if what they do next is the same in all states that
correspond. -/
theorem matches_get {world : ω} {good : ω → α → Prop} {continuation : σ → Eval σ α}
    (computation : Eval σ α)
    (reads : ∀ left right, comparison.Corresponds world left right →
      continuation left = computation ∧ continuation right = computation)
    (next : comparison.Matches world good computation) :
    comparison.Matches world good (get >>= continuation) := by
  intro left right corresponds
  obtain ⟨ofLeft, ofRight⟩ := reads left right corresponds
  simp only [run_bind, run_get, ofLeft, ofRight]
  exact next left right corresponds

/-- Runs that yield an answer given beforehand match if the answer is good. -/
theorem matches_liftExcept {world : ω} {good : ω → α → Prop}
    {answer : Except Failure α} (here : ∀ value, answer = .ok value → good world value) :
    comparison.Matches world good (liftExcept answer) := by
  cases answer with
  | error failure => exact matches_throw failure
  | ok value => exact matches_pure (here value rfl)

/-- Runs of one computation for each item match if those for every item do, from every later
world. -/
theorem matches_mapM {world : ω} {items : List α} {action : α → Eval σ String}
    (each : ∀ item ∈ items, ∀ last, comparison.Later world last →
      comparison.Matches last comparison.Trusted (action item)) :
    comparison.Matches world comparison.AllTrusted (items.mapM action) := by
  induction items generalizing world with
  | nil =>
    rw [List.mapM_nil]
    exact matches_pure fun text member => nomatch member
  | cons item items ih =>
    rw [List.mapM_cons]
    refine matches_bind _ (each item List.mem_cons_self world (comparison.later_refl world))
      fun middle later output trusted => ?_
    refine matches_bind _ (ih fun other member last after =>
      each other (List.mem_cons_of_mem _ member) last (comparison.later_trans later after))
      fun last after outputs others => ?_
    refine matches_pure fun text member => ?_
    rcases List.mem_cons.1 member with here | member
    · exact here ▸ comparison.trusted_later after output trusted
    · exact others text member

end Comparison

open Comparison

variable {comparison : Comparison ω σ}

/-- Calls of functions match if those that the host answers do. -/
theorem Setting.matches_call {world : ω} {setting : Setting σ}
    (supports : comparison.Supports world setting.host) (name : String) {arguments : List Value}
    (good : comparison.AllGood world arguments) :
    comparison.Matches world comparison.Good (setting.call name arguments) := by
  unfold Setting.call
  split
  · rename_i answer answers
    exact supports world (comparison.later_refl world) name arguments answer good answers
  · split
    · rename_i answer answers
      exact matches_liftExcept fun value made => Value.holds_builtin good (made ▸ answers)
    · exact matches_throw _

/-- What the evaluation of a part of a template needs in a world: the calls of the host match,
and the data and the current value are good. -/
structure Comparison.Ready (comparison : Comparison ω σ) (world : ω) (setting : Setting σ)
    (dot : Value) : Prop where
  supports : comparison.Supports world setting.host
  data : comparison.Good world setting.data
  dot : comparison.Good world dot

/-- What an evaluation needs goes on to hold. -/
theorem Comparison.Ready.later {world last : ω} {setting : Setting σ} {dot : Value}
    (later : comparison.Later world last) (ready : comparison.Ready world setting dot) :
    comparison.Ready last setting dot :=
  ⟨ready.supports.later later, ready.data.later later, ready.dot.later later⟩

/-- What an evaluation needs goes on to hold with another current value that is good. -/
theorem Comparison.Ready.at {world : ω} {setting : Setting σ} {dot value : Value}
    (ready : comparison.Ready world setting dot) (good : comparison.Good world value) :
    comparison.Ready world setting value :=
  ⟨ready.supports, ready.data, good⟩

mutual

/-- Evaluations of an operand match. -/
theorem Operand.matches_evaluate {setting : Setting σ} {dot : Value} (operand : Operand) :
    ∀ world : ω, comparison.Ready world setting dot →
      comparison.AllGood world operand.literals →
        comparison.Matches world comparison.Good (operand.evaluate setting dot) := by
  intro world ready literals
  cases operand with
  | dot path => exact matches_pure (Value.holds_follow ready.dot path)
  | root path => exact matches_pure (Value.holds_follow ready.data path)
  | call name =>
    have nothing : comparison.AllGood world [] := fun value member => nomatch member
    exact Setting.matches_call ready.supports name nothing
  | literal value => exact matches_pure (literals value List.mem_cons_self)
  | group pipeline => exact pipeline.matches_evaluate world ready literals

/-- Evaluations of operands match. -/
theorem Operand.matches_evaluateAll {setting : Setting σ} {dot : Value}
    (operands : List Operand) :
    ∀ world : ω, comparison.Ready world setting dot →
      comparison.AllGood world (Operand.literalsAll operands) →
        comparison.Matches world comparison.AllGood
          (Operand.evaluateAll setting dot operands) := by
  intro world ready literals
  cases operands with
  | nil => exact matches_pure fun value member => nomatch member
  | cons operand operands =>
    obtain ⟨first, rest⟩ := allGood_append.1 literals
    simp only [Operand.evaluateAll]
    refine matches_bind _ (operand.matches_evaluate world ready first)
      fun middle later value here => ?_
    have others := Operand.matches_evaluateAll operands middle (ready.later later)
      (rest.later later)
    refine matches_bind _ others fun last after values others => ?_
    refine matches_pure fun found member => ?_
    rcases List.mem_cons.1 member with same | member
    · exact same ▸ here.later after
    · exact others found member

/-- Evaluations of a command match. -/
theorem Command.matches_evaluate {setting : Setting σ} {dot : Value} {piped : Option Value}
    (command : Command) :
    ∀ world : ω, comparison.Ready world setting dot →
      comparison.AllGood world piped.toList → comparison.AllGood world command.literals →
        comparison.Matches world comparison.Good (command.evaluate setting dot piped) := by
  intro world ready given literals
  cases command with
  | of head arguments =>
    obtain ⟨first, rest⟩ := allGood_append.1 literals
    -- A head that is no function has a value of its own, if it is given no argument.
    have alone (isValue : (Command.of head arguments).evaluate setting dot piped =
        if arguments.isEmpty && piped.isNone then head.evaluate setting dot
        else setting.fail .argumentToValue) :
        comparison.Matches world comparison.Good
          ((Command.of head arguments).evaluate setting dot piped) := by
      rw [isValue]
      split
      · exact head.matches_evaluate world ready first
      · exact matches_throw _
    cases head with
    | call name =>
      simp only [Command.evaluate]
      refine matches_bind _ (Operand.matches_evaluateAll arguments world ready rest)
        fun last later values here => ?_
      have supports := ready.supports.later later
      exact Setting.matches_call supports name (allGood_append.2 ⟨here, given.later later⟩)
    | dot path => exact alone rfl
    | root path => exact alone rfl
    | literal value => exact alone rfl
    | group pipeline => exact alone rfl

/-- Evaluations of commands that a value is piped through match. -/
theorem Command.matches_evaluateAll {setting : Setting σ} {dot piped : Value}
    (commands : List Command) :
    ∀ world : ω, comparison.Ready world setting dot →
      comparison.Good world piped → comparison.AllGood world (Command.literalsAll commands) →
        comparison.Matches world comparison.Good
          (Command.evaluateAll setting dot piped commands) := by
  intro world ready given literals
  cases commands with
  | nil => exact matches_pure given
  | cons command commands =>
    obtain ⟨first, rest⟩ := allGood_append.1 literals
    simp only [Command.evaluateAll]
    have one : comparison.AllGood world (some piped).toList :=
      fun value member => List.mem_singleton.1 member ▸ given
    refine matches_bind _ (command.matches_evaluate world ready one first)
      fun last later value here => ?_
    exact Command.matches_evaluateAll commands last (ready.later later) here (rest.later later)

/-- Evaluations of a pipeline match. -/
theorem Pipeline.matches_evaluate {setting : Setting σ} {dot : Value} (pipeline : Pipeline) :
    ∀ world : ω, comparison.Ready world setting dot →
      comparison.AllGood world pipeline.literals →
        comparison.Matches world comparison.Good (pipeline.evaluate setting dot) := by
  intro world ready literals
  cases pipeline with
  | of first others =>
    obtain ⟨head, rest⟩ := allGood_append.1 literals
    simp only [Pipeline.evaluate]
    have none : comparison.AllGood world (Option.none : Option Value).toList :=
      fun value member => nomatch member
    refine matches_bind _ (first.matches_evaluate world ready none head)
      fun last later value here => ?_
    exact Command.matches_evaluateAll others last (ready.later later) here (rest.later later)

end

mutual

/-- Evaluations of a node match. -/
theorem Node.matches_evaluate {setting : Setting σ} {dot : Value} (node : Node) :
    ∀ world : ω, comparison.Ready world setting dot →
      comparison.AllGood world node.literals → comparison.AllTrusted world node.texts →
        comparison.Matches world comparison.Trusted (node.evaluate setting dot) := by
  intro world ready literals texts
  cases node with
  | text content => exact matches_pure (texts content List.mem_cons_self)
  | output pipeline =>
    simp only [Node.evaluate]
    refine matches_bind _ (pipeline.matches_evaluate world ready literals)
      fun last later value here => ?_
    exact matches_pure (trusted_written here)
  | conditional first others otherwise =>
    cases first with
    | of condition body =>
      obtain ⟨⟨⟨inCondition, inBody⟩, inOthers⟩, inOtherwise⟩ := by
        simpa only [Node.literals, Branch.literals, allGood_append] using literals
      obtain ⟨⟨ofBody, ofOthers⟩, ofOtherwise⟩ := by
        simpa only [Node.texts, Branch.texts, allTrusted_append] using texts
      simp only [Node.evaluate]
      refine matches_bind _ (condition.matches_evaluate world ready inCondition)
        fun middle later value here => ?_
      split
      · exact Node.matches_evaluateAll body middle (ready.later later) (inBody.later later)
          (ofBody.later later)
      · have branches := Branch.matches_evaluateFirst others middle (ready.later later)
          (inOthers.later later) (ofOthers.later later)
        refine matches_bind _ branches fun last after output trusted => ?_
        have whole := comparison.later_trans later after
        split
        · exact matches_pure (trusted _ rfl)
        · exact Node.matches_evaluateAll otherwise last (ready.later whole)
            (inOtherwise.later whole) (ofOtherwise.later whole)
  | range source body otherwise =>
    obtain ⟨⟨inSource, inBody⟩, inOtherwise⟩ := by
      simpa only [Node.literals, allGood_append] using literals
    obtain ⟨ofBody, ofOtherwise⟩ := by simpa only [Node.texts, allTrusted_append] using texts
    simp only [Node.evaluate]
    refine matches_bind _ (source.matches_evaluate world ready inSource)
      fun middle later value here => ?_
    have listed : comparison.Matches middle
        (fun world items => ∀ item ∈ items, comparison.Good world item)
        (liftExcept (setting.items value)) :=
      matches_liftExcept fun items found => Value.holds_items here found
    refine matches_bind _ listed fun counted after items parts => ?_
    have whole := comparison.later_trans later after
    split
    · exact Node.matches_evaluateAll otherwise counted (ready.later whole)
        (inOtherwise.later whole) (ofOtherwise.later whole)
    · have each : comparison.Matches counted comparison.AllTrusted
          (items.mapM fun item => Node.evaluateAll setting item body) := by
        refine matches_mapM fun item member last further => ?_
        have onward := comparison.later_trans whole further
        have atItem := (ready.later onward).at ((parts item member).later further)
        exact Node.matches_evaluateAll body last atItem (inBody.later onward) (ofBody.later onward)
      exact matches_bind _ each fun last further outputs trusted =>
        matches_pure (trusted_join trusted)
  | within pipeline body otherwise =>
    obtain ⟨⟨inValue, inBody⟩, inOtherwise⟩ := by
      simpa only [Node.literals, allGood_append] using literals
    obtain ⟨ofBody, ofOtherwise⟩ := by simpa only [Node.texts, allTrusted_append] using texts
    simp only [Node.evaluate]
    refine matches_bind _ (pipeline.matches_evaluate world ready inValue)
      fun last later value here => ?_
    split
    · have atValue := (ready.later later).at here
      exact Node.matches_evaluateAll body last atValue (inBody.later later) (ofBody.later later)
    · exact Node.matches_evaluateAll otherwise last (ready.later later)
        (inOtherwise.later later) (ofOtherwise.later later)

/-- Evaluations of nodes match. -/
theorem Node.matches_evaluateAll {setting : Setting σ} {dot : Value} (nodes : List Node) :
    ∀ world : ω, comparison.Ready world setting dot →
      comparison.AllGood world (Node.literalsAll nodes) →
      comparison.AllTrusted world (Node.textsAll nodes) →
        comparison.Matches world comparison.Trusted (Node.evaluateAll setting dot nodes) := by
  intro world ready literals texts
  cases nodes with
  | nil => exact matches_pure (comparison.trusted_empty world)
  | cons node nodes =>
    obtain ⟨inFirst, inRest⟩ := allGood_append.1 literals
    obtain ⟨ofFirst, ofRest⟩ := allTrusted_append.1 texts
    simp only [Node.evaluateAll]
    refine matches_bind _ (node.matches_evaluate world ready inFirst ofFirst)
      fun middle later output here => ?_
    have rest := Node.matches_evaluateAll nodes middle (ready.later later) (inRest.later later)
      (ofRest.later later)
    refine matches_bind _ rest fun last after outputs others => ?_
    have still := comparison.trusted_later after output here
    exact matches_pure (comparison.trusted_append still others)

/-- Evaluations of the first branch whose condition holds match. -/
theorem Branch.matches_evaluateFirst {setting : Setting σ} {dot : Value}
    (branches : List Branch) :
    ∀ world : ω, comparison.Ready world setting dot →
      comparison.AllGood world (Branch.literalsAll branches) →
      comparison.AllTrusted world (Branch.textsAll branches) →
        comparison.Matches world
          (fun world found => ∀ output, found = some output → comparison.Trusted world output)
          (Branch.evaluateFirst setting dot branches) := by
  intro world ready literals texts
  cases branches with
  | nil => exact matches_pure fun output wrong => nomatch wrong
  | cons branch branches =>
    cases branch with
    | of condition body =>
      obtain ⟨⟨inCondition, inBody⟩, inRest⟩ := by
        simpa only [Branch.literalsAll, Branch.literals, allGood_append] using literals
      obtain ⟨ofBody, ofRest⟩ := by
        simpa only [Branch.textsAll, Branch.texts, allTrusted_append] using texts
      simp only [Branch.evaluateFirst]
      refine matches_bind _ (condition.matches_evaluate world ready inCondition)
        fun middle later value here => ?_
      split
      · have taken := Node.matches_evaluateAll body middle (ready.later later)
          (inBody.later later) (ofBody.later later)
        refine matches_bind _ taken fun last after output trusted => ?_
        exact matches_pure fun found same => Option.some.inj same ▸ trusted
      · exact Branch.matches_evaluateFirst branches middle (ready.later later)
          (inRest.later later) (ofRest.later later)

end

/-- Executions of a template match if the calls that the host answers do, where its data is
good and its literals and texts are. -/
theorem matches_execute {template : Template} {data : Value} {host : Host σ} {world : ω}
    (supports : comparison.Supports world host)
    (good : comparison.Good world data) (literals : comparison.AllGood world template.literals)
    (texts : comparison.AllTrusted world template.texts) :
    comparison.Matches world comparison.Trusted (template.execute data host) := by
  have ready : comparison.Ready world ⟨template.name, data, host⟩ data := ⟨supports, good, good⟩
  exact Node.matches_evaluateAll template.nodes world ready literals texts

end ComponentPages.Template
