import ComponentPages.Proofs.Value.Markup

/-!
# Texts and literals of a template

The two places of a template that hold data of its author: the text nodes and the literals of
its pipelines, each listed in the order of the template. A parsed template has no literal with
trusted markup (`Template.literals_plain`): reading keeps that of the pipeline that is being
read and of the blocks that are open.
-/
namespace ComponentPages.Template

mutual

/-- The literals of an operand. -/
def Operand.literals : Operand → List Value
  | .dot _ => []
  | .root _ => []
  | .call _ => []
  | .literal value => [value]
  | .group pipeline => pipeline.literals

/-- The literals of operands. -/
def Operand.literalsAll : List Operand → List Value
  | [] => []
  | operand :: operands => operand.literals ++ Operand.literalsAll operands

/-- The literals of a command. -/
def Command.literals : Command → List Value
  | .of head arguments => head.literals ++ Operand.literalsAll arguments

/-- The literals of commands. -/
def Command.literalsAll : List Command → List Value
  | [] => []
  | command :: commands => command.literals ++ Command.literalsAll commands

/-- The literals of a pipeline. -/
def Pipeline.literals : Pipeline → List Value
  | .of first others => first.literals ++ Command.literalsAll others

end

mutual

/-- The literals of a node. -/
def Node.literals : Node → List Value
  | .text _ => []
  | .output pipeline => pipeline.literals
  | .conditional first others otherwise =>
    first.literals ++ Branch.literalsAll others ++ Node.literalsAll otherwise
  | .range source body otherwise =>
    source.literals ++ Node.literalsAll body ++ Node.literalsAll otherwise
  | .within value body otherwise =>
    value.literals ++ Node.literalsAll body ++ Node.literalsAll otherwise

/-- The literals of nodes. -/
def Node.literalsAll : List Node → List Value
  | [] => []
  | node :: nodes => node.literals ++ Node.literalsAll nodes

/-- The literals of a branch. -/
def Branch.literals : Branch → List Value
  | .of condition body => condition.literals ++ Node.literalsAll body

/-- The literals of branches. -/
def Branch.literalsAll : List Branch → List Value
  | [] => []
  | branch :: branches => branch.literals ++ Branch.literalsAll branches

end

mutual

/-- The contents of the text nodes of a node. -/
def Node.texts : Node → List String
  | .text content => [content]
  | .output _ => []
  | .conditional first others otherwise =>
    first.texts ++ Branch.textsAll others ++ Node.textsAll otherwise
  | .range _ body otherwise => Node.textsAll body ++ Node.textsAll otherwise
  | .within _ body otherwise => Node.textsAll body ++ Node.textsAll otherwise

/-- The contents of the text nodes of nodes. -/
def Node.textsAll : List Node → List String
  | [] => []
  | node :: nodes => node.texts ++ Node.textsAll nodes

/-- The contents of the text nodes of a branch. -/
def Branch.texts : Branch → List String
  | .of _ body => Node.textsAll body

/-- The contents of the text nodes of branches. -/
def Branch.textsAll : List Branch → List String
  | [] => []
  | branch :: branches => branch.texts ++ Branch.textsAll branches

end

/-- The literals of operands are those of each of them. -/
theorem Operand.literalsAll_append (operands others : List Operand) :
    Operand.literalsAll (operands ++ others) =
      Operand.literalsAll operands ++ Operand.literalsAll others := by
  induction operands with
  | nil => rfl
  | cons operand operands ih => simp [Operand.literalsAll, ih]

/-- The literals of commands are those of each of them. -/
theorem Command.literalsAll_append (commands others : List Command) :
    Command.literalsAll (commands ++ others) =
      Command.literalsAll commands ++ Command.literalsAll others := by
  induction commands with
  | nil => rfl
  | cons command commands ih => simp [Command.literalsAll, ih]

/-- The literals of nodes are those of each of them. -/
theorem Node.literalsAll_append (nodes others : List Node) :
    Node.literalsAll (nodes ++ others) = Node.literalsAll nodes ++ Node.literalsAll others := by
  induction nodes with
  | nil => simp [Node.literalsAll]
  | cons node nodes ih => simp [Node.literalsAll, ih]

/-- The literals of branches are those of each of them. -/
theorem Branch.literalsAll_append (branches others : List Branch) :
    Branch.literalsAll (branches ++ others) =
      Branch.literalsAll branches ++ Branch.literalsAll others := by
  induction branches with
  | nil => simp [Branch.literalsAll]
  | cons branch branches ih => simp [Branch.literalsAll, ih]

/-- A pipeline has the literals of its commands. -/
theorem Pipeline.literals_ofCommands (commands : List Command) (last : Command) :
    (Pipeline.ofCommands commands last).literals =
      Command.literalsAll commands ++ last.literals := by
  cases commands with
  | nil => simp [Pipeline.ofCommands, Pipeline.literals, Command.literalsAll]
  | cons first others =>
    simp [Pipeline.ofCommands, Pipeline.literals, Command.literalsAll,
      Command.literalsAll_append]

/-- A conditional has the literals of its branches and of what it takes otherwise. -/
theorem Node.literals_ofBranches (branches : List Branch) (last : Branch)
    (otherwise : List Node) :
    (Node.ofBranches branches last otherwise).literals =
      Branch.literalsAll branches ++ last.literals ++ Node.literalsAll otherwise := by
  cases branches with
  | nil => simp [Node.ofBranches, Node.literals, Branch.literalsAll]
  | cons first others =>
    simp [Node.ofBranches, Node.literals, Branch.literalsAll, Branch.literalsAll_append]

/-- No value of a list contains trusted markup. -/
def AllPlain (values : List Value) : Prop := ∀ value ∈ values, value.Plain

/-- The empty list contains no trusted markup. -/
@[simp]
theorem allPlain_nil : AllPlain [] := by simp [AllPlain]

/-- A list of one value contains trusted markup only in that value. -/
@[simp]
theorem allPlain_singleton {value : Value} : AllPlain [value] ↔ value.Plain := by
  simp [AllPlain]

/-- No value of two lists contains trusted markup exactly when none of either does. -/
@[simp]
theorem allPlain_append {values others : List Value} :
    AllPlain (values ++ others) ↔ AllPlain values ∧ AllPlain others := by
  simp only [AllPlain, List.mem_append, or_imp, forall_and]

/-- The operand of a token has no literal with trusted markup. -/
theorem Operand.literals_plain_of_token {token : Token} {operand : Operand}
    (read : operand? token = some operand) : AllPlain operand.literals := by
  cases token with
  | text content =>
    obtain rfl := Option.some.inj read
    exact allPlain_singleton.2 (.str content)
  | int number =>
    obtain rfl := Option.some.inj read
    exact allPlain_singleton.2 (.int number)
  | float number =>
    obtain rfl := Option.some.inj read
    exact allPlain_singleton.2 (.float number)
  | word name =>
    obtain rfl := Option.some.inj read
    unfold operandOfWord
    split
    · exact allPlain_singleton.2 (.bool true)
    · split
      · exact allPlain_singleton.2 (.bool false)
      · split
        · exact allPlain_singleton.2 .null
        · exact allPlain_nil
  | dot path =>
    obtain rfl := Option.some.inj read
    exact allPlain_nil
  | root path =>
    obtain rfl := Option.some.inj read
    exact allPlain_nil
  | opening => simp [operand?] at read
  | closing => simp [operand?] at read
  | pipe => simp [operand?] at read

/-- A pipeline that is read has no literal with trusted markup if the commands and operands
read before have none. -/
theorem readPipeline_literals_plain {commands : List Command} {operands : List Operand}
    {tokens : List Token} {pipeline : Pipeline}
    (read : readPipeline commands operands tokens = .ok pipeline)
    (before : AllPlain (Command.literalsAll commands))
    (current : AllPlain (Operand.literalsAll operands)) : AllPlain pipeline.literals := by
  fun_induction readPipeline commands operands tokens generalizing pipeline with
  | case1 => simp at read
  | case2 commands head arguments =>
    obtain rfl := Except.ok.inj read
    have last : AllPlain (Command.of head arguments).literals := by
      simpa [Command.literals, Operand.literalsAll] using current
    rw [Pipeline.literals_ofCommands, allPlain_append]
    exact ⟨before, last⟩
  | case3 => simp at read
  | case4 commands rest head arguments ih =>
    have command : AllPlain (Command.literalsAll [.of head arguments]) := by
      simpa [Command.literalsAll, Command.literals, Operand.literalsAll] using current
    have grown : AllPlain (Command.literalsAll (commands ++ [.of head arguments])) := by
      rw [Command.literalsAll_append, allPlain_append]
      exact ⟨before, command⟩
    exact ih read grown allPlain_nil
  | case5 => simp at read
  | case6 commands operands rest inner after _ inside outside =>
    obtain ⟨made, group, later⟩ := exists_of_bind_ok read
    have members : AllPlain made.literals := inside group allPlain_nil allPlain_nil
    have operand : AllPlain (Operand.literalsAll [.group made]) := by
      simpa [Operand.literalsAll, Operand.literals] using members
    have grown : AllPlain (Operand.literalsAll (operands ++ [.group made])) := by
      rw [Operand.literalsAll_append, allPlain_append]
      exact ⟨current, operand⟩
    exact outside made later before grown
  | case7 => simp at read
  | case8 commands operands token rest _ _ operand found ih =>
    have last : AllPlain (Operand.literalsAll [operand]) := by
      simpa [Operand.literalsAll] using Operand.literals_plain_of_token found
    have grown : AllPlain (Operand.literalsAll (operands ++ [operand])) := by
      rw [Operand.literalsAll_append, allPlain_append]
      exact ⟨current, last⟩
    exact ih read before grown

/-- The literals of an action. -/
def Action.literals : Action → List Value
  | .output pipeline => pipeline.literals
  | .openIf condition => condition.literals
  | .openRange source => source.literals
  | .openWith value => value.literals
  | .elseIf condition => condition.literals
  | .elseOnly => []
  | .endBlock => []

/-- The literals of the parts of an open block that have been read. -/
def OpenBlock.literals : OpenBlock → List Value
  | .branch before condition => Branch.literalsAll before ++ condition.literals
  | .otherwise first others => first.literals ++ Branch.literalsAll others
  | .range source => source.literals
  | .rangeOtherwise source body => source.literals ++ Node.literalsAll body
  | .within value => value.literals
  | .withinOtherwise value body => value.literals ++ Node.literalsAll body

/-- The literals of what has been read, with those of the open blocks. -/
def Reading.literals (reading : Reading) : List Value :=
  Node.literalsAll reading.nodes ++
    reading.blocks.flatMap fun block => block.1.literals ++ Node.literalsAll block.2

/-- The pipeline of tokens has no literal with trusted markup. -/
theorem Pipeline.literals_plain {tokens : List Token} {pipeline : Pipeline}
    (read : Pipeline.ofTokens tokens = .ok pipeline) : AllPlain pipeline.literals :=
  readPipeline_literals_plain read allPlain_nil allPlain_nil

/-- What a pipeline of tokens is turned into has no literal with trusted markup if it has those
of the pipeline. -/
theorem Action.literals_plain_of_map {tokens : List Token} {build : Pipeline → Action}
    {action : Action} (same : ∀ pipeline, (build pipeline).literals = pipeline.literals)
    (read : (Pipeline.ofTokens tokens).map build = .ok action) : AllPlain action.literals := by
  obtain ⟨pipeline, made, rfl⟩ := exists_of_map_ok read
  rw [same]
  exact Pipeline.literals_plain made

/-- An action has no literal with trusted markup. -/
theorem Action.literals_plain {tokens : List Token} {action : Action}
    (read : Action.ofTokens tokens = .ok action) : AllPlain action.literals := by
  unfold Action.ofTokens at read
  split at read
  · rename_i name rest
    split at read
    · obtain rfl := Except.ok.inj read
      exact allPlain_nil
    · split at read
      · unfold Action.ofElse at read
        split at read
        · obtain rfl := Except.ok.inj read
          exact allPlain_nil
        · split at read
          · exact Action.literals_plain_of_map (fun _ => rfl) read
          · simp at read
        · simp at read
      · split at read
        · exact Action.literals_plain_of_map (fun _ => rfl) read
        · split at read
          · exact Action.literals_plain_of_map (fun _ => rfl) read
          · split at read
            · exact Action.literals_plain_of_map (fun _ => rfl) read
            · exact Action.literals_plain_of_map (fun _ => rfl) read
  · exact Action.literals_plain_of_map (fun _ => rfl) read

/-- The node of a block that ends has the literals of its parts. -/
theorem OpenBlock.literals_close (nodes : List Node) (block : OpenBlock) :
    (block.close nodes).literals = block.literals ++ Node.literalsAll nodes := by
  cases block <;>
    simp [OpenBlock.close, OpenBlock.literals, Node.literals, Node.literals_ofBranches,
      Branch.literals, Node.literalsAll]

/-- A block after its `else` has the literals of its parts. -/
theorem OpenBlock.literals_toElse {nodes : List Node} {block next : OpenBlock}
    (goes : block.toElse nodes = .ok next) :
    next.literals = block.literals ++ Node.literalsAll nodes := by
  unfold OpenBlock.toElse at goes
  split at goes
  case h_1 | h_2 | h_3 | h_4 =>
    obtain rfl := Except.ok.inj goes
    simp [OpenBlock.literals, Branch.literals, Branch.literalsAll, Branch.literalsAll_append]
  case h_5 | h_6 | h_7 => simp at goes

/-- A block after an `else if` has the literals of its parts and of the condition. -/
theorem OpenBlock.literals_toElseIf {nodes : List Node} {condition : Pipeline}
    {block next : OpenBlock} (goes : block.toElseIf nodes condition = .ok next) :
    next.literals = block.literals ++ Node.literalsAll nodes ++ condition.literals := by
  unfold OpenBlock.toElseIf at goes
  split at goes
  case h_1 =>
    obtain rfl := Except.ok.inj goes
    simp [OpenBlock.literals, Branch.literals, Branch.literalsAll, Branch.literalsAll_append]
  case h_2 | h_3 | h_4 | h_5 | h_6 => simp at goes

/-- What has been read contains no trusted markup exactly when neither the nodes of the
innermost block nor the open blocks do. -/
theorem Reading.allPlain_cons {nodes before : List Node} {block : OpenBlock}
    {outer : List (OpenBlock × List Node)} :
    AllPlain (Reading.literals ⟨nodes, (block, before) :: outer⟩) ↔
      AllPlain (Node.literalsAll nodes) ∧ AllPlain block.literals ∧
        AllPlain (Reading.literals ⟨before, outer⟩) := by
  simp [Reading.literals]

/-- Reading an action adds no literal with trusted markup. -/
theorem Reading.literals_act {reading next : Reading} {action : Action}
    (goes : reading.act action = .ok next) (before : AllPlain reading.literals)
    (here : AllPlain action.literals) : AllPlain next.literals := by
  obtain ⟨nodes, blocks⟩ := reading
  cases action with
  | output pipeline =>
    obtain rfl := Except.ok.inj goes
    obtain ⟨current, opened⟩ := allPlain_append.1 before
    have added : AllPlain (Node.literalsAll (nodes ++ [.output pipeline])) := by
      simpa [Node.literalsAll_append, Node.literalsAll, Node.literals] using ⟨current, here⟩
    exact allPlain_append.2 ⟨added, opened⟩
  | openIf condition =>
    obtain rfl := Except.ok.inj goes
    exact Reading.allPlain_cons.2 ⟨allPlain_nil, here, before⟩
  | openRange source =>
    obtain rfl := Except.ok.inj goes
    exact Reading.allPlain_cons.2 ⟨allPlain_nil, here, before⟩
  | openWith value =>
    obtain rfl := Except.ok.inj goes
    exact Reading.allPlain_cons.2 ⟨allPlain_nil, here, before⟩
  | elseIf condition =>
    cases blocks with
    | nil => simp [Reading.act] at goes
    | cons block outer =>
      obtain ⟨current, parts, held⟩ := Reading.allPlain_cons.1 before
      obtain ⟨later, moved, rfl⟩ := exists_of_map_ok goes
      have opened : AllPlain later.literals := by
        rw [OpenBlock.literals_toElseIf moved, allPlain_append, allPlain_append]
        exact ⟨⟨parts, current⟩, here⟩
      exact Reading.allPlain_cons.2 ⟨allPlain_nil, opened, held⟩
  | elseOnly =>
    cases blocks with
    | nil => simp [Reading.act] at goes
    | cons block outer =>
      obtain ⟨current, parts, held⟩ := Reading.allPlain_cons.1 before
      obtain ⟨later, moved, rfl⟩ := exists_of_map_ok goes
      have opened : AllPlain later.literals := by
        rw [OpenBlock.literals_toElse moved, allPlain_append]
        exact ⟨parts, current⟩
      exact Reading.allPlain_cons.2 ⟨allPlain_nil, opened, held⟩
  | endBlock =>
    cases blocks with
    | nil => simp [Reading.act] at goes
    | cons block outer =>
      obtain ⟨current, parts, held⟩ := Reading.allPlain_cons.1 before
      obtain rfl := Except.ok.inj goes
      obtain ⟨earlier, opened⟩ := allPlain_append.1 held
      have closed : AllPlain (Node.literalsAll (block.2 ++ [block.1.close nodes])) := by
        simpa [Node.literalsAll_append, Node.literalsAll, OpenBlock.literals_close]
          using ⟨earlier, parts, current⟩
      exact allPlain_append.2 ⟨closed, opened⟩

/-- Reading a segment adds no literal with trusted markup. -/
theorem Reading.literals_step {reading next : Reading} {segment : Segment}
    (goes : reading.step segment = .ok next) (before : AllPlain reading.literals) :
    AllPlain next.literals := by
  cases segment with
  | text content =>
    obtain rfl := Except.ok.inj goes
    obtain ⟨current, opened⟩ := allPlain_append.1 before
    have added : AllPlain (Node.literalsAll (reading.nodes ++ [.text content])) := by
      simpa [Node.literalsAll_append, Node.literalsAll, Node.literals] using current
    exact allPlain_append.2 ⟨added, opened⟩
  | action tokens =>
    obtain ⟨action, said, acts⟩ := exists_of_bind_ok goes
    have here : AllPlain action.literals := Action.literals_plain said
    exact Reading.literals_act acts before here

/-- Reading segments adds no literal with trusted markup. -/
theorem Reading.literals_foldlM {segments : List Segment} {reading next : Reading}
    (goes : segments.foldlM Reading.step reading = .ok next)
    (before : AllPlain reading.literals) : AllPlain next.literals := by
  induction segments generalizing reading with
  | nil =>
    obtain rfl := Except.ok.inj goes
    exact before
  | cons segment segments ih =>
    rw [List.foldlM_cons] at goes
    obtain ⟨middle, first, rest⟩ := exists_of_bind_ok goes
    have after : AllPlain middle.literals := Reading.literals_step first before
    exact ih rest after

/-- The contents of the text nodes of a template. -/
def texts (template : Template) : List String := Node.textsAll template.nodes

/-- The literals of a template. -/
def literals (template : Template) : List Value := Node.literalsAll template.nodes

/-- A parsed template has no literal with trusted markup. -/
theorem literals_plain {name source : String} {template : Template}
    (parsed : Template.parse name source = .ok template) : AllPlain template.literals := by
  unfold Template.parse at parsed
  split at parsed
  · rename_i nodes made
    obtain rfl := Except.ok.inj parsed
    obtain ⟨parts, -, reads⟩ := exists_of_bind_ok made
    obtain ⟨reading, read, finished⟩ := exists_of_bind_ok reads
    have start : AllPlain (Reading.literals ⟨[], []⟩) := by
      simp [Reading.literals, Node.literalsAll]
    have plain : AllPlain reading.literals := Reading.literals_foldlM read start
    unfold Reading.finish at finished
    split at finished
    · obtain rfl := Except.ok.inj finished
      exact (allPlain_append.1 plain).1
    · simp at finished
  · simp at parsed

end ComponentPages.Template
