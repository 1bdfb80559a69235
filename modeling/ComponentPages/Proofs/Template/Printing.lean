import ComponentPages.Proofs.Template.Parsing
import ComponentPages.Proofs.Template.Writing

/-!
# Printing templates

A tree of nodes as the canonical text of its segments, and the trees that are printed without
loss (`Node.Printable`). Parsing inverts printing (`parse_print`): a printable tree has a
derivation with its segments (`Node.exists_items`), and these segments are read back from their
text, since every token can be written and no text touches an action or another text that it
would be read together with (`Node.isChain_segmentsAll`).
-/
namespace ComponentPages.Template

open Grammar

/-- The token of a literal. -/
def literalToken : Value → Token
  | .null => .word "nil"
  | .bool flag => .word (if flag then "true" else "false")
  | .int number => .int number
  | .float number => .float number
  | .str content => .text content
  | value => .text value.text

mutual

/-- The canonical tokens of an operand. -/
def Operand.tokens : Operand → List Token
  | .dot path => [.dot path]
  | .root path => [.root path]
  | .call name => [.word name]
  | .literal value => [literalToken value]
  | .group pipeline => .opening :: pipeline.tokens ++ [.closing]

/-- The canonical tokens of operands. -/
def Operand.tokensAll : List Operand → List Token
  | [] => []
  | operand :: operands => operand.tokens ++ Operand.tokensAll operands

/-- The canonical tokens of a command. -/
def Command.tokens : Command → List Token
  | .of head arguments => head.tokens ++ Operand.tokensAll arguments

/-- The canonical tokens of commands, each after a pipe. -/
def Command.tokensAll : List Command → List Token
  | [] => []
  | command :: commands => .pipe :: command.tokens ++ Command.tokensAll commands

/-- The canonical tokens of a pipeline. -/
def Pipeline.tokens : Pipeline → List Token
  | .of first others => first.tokens ++ Command.tokensAll others

end

/-- The action that starts a block or a branch with the words before its pipeline. -/
def openingAction (words : List String) (pipeline : Pipeline) : Segment :=
  .action (words.map Token.word ++ pipeline.tokens)

mutual

/-- The canonical segments of a node. -/
def Node.segments : Node → List Segment
  | .text content => [.text content]
  | .output pipeline => [.action pipeline.tokens]
  | .conditional (.of condition body) others otherwise =>
    openingAction ["if"] condition ::
      (Node.segmentsAll body ++ (Branch.segmentsAll others ++
        (Node.elseSegments otherwise ++ [endAction []])))
  | .range source body otherwise =>
    openingAction ["range"] source ::
      (Node.segmentsAll body ++ (Node.elseSegments otherwise ++ [endAction []]))
  | .within value body otherwise =>
    openingAction ["with"] value ::
      (Node.segmentsAll body ++ (Node.elseSegments otherwise ++ [endAction []]))

/-- The canonical segments of nodes. -/
def Node.segmentsAll : List Node → List Segment
  | [] => []
  | node :: nodes => node.segments ++ Node.segmentsAll nodes

/-- The canonical segments of the last part of a block, which is left out if it is empty. -/
def Node.elseSegments : List Node → List Segment
  | [] => []
  | node :: nodes => otherwiseAction :: (node.segments ++ Node.segmentsAll nodes)

/-- The canonical segments of the branches after the first one. -/
def Branch.segmentsAll : List Branch → List Segment
  | [] => []
  | .of condition body :: branches =>
    openingAction ["else", "if"] condition ::
      (Node.segmentsAll body ++ Branch.segmentsAll branches)

end

/-- The canonical text of a tree of nodes. -/
def Node.print (nodes : List Node) : String :=
  String.ofList (Segment.writeAll (Node.segmentsAll nodes))

/-- A name that is a function in an action. -/
structure IsFunctionName (name : String) : Prop where
  wordName : IsWordName name
  noLiteral : name ∉ ["true", "false", "nil"]

/-- A literal that can be printed: a text, an integer, a truth value or nothing. -/
def PrintableLiteral : Value → Prop
  | .null | .bool _ | .int _ | .str _ => True
  | .float _ | .html _ | .list _ | .map _ => False

mutual

/-- An operand that is printed without loss. -/
def Operand.Printable : Operand → Prop
  | .dot path => ∀ name ∈ path, IsPathName name
  | .root path => ∀ name ∈ path, IsPathName name
  | .call name => IsFunctionName name
  | .literal value => PrintableLiteral value
  | .group pipeline => pipeline.Printable

/-- Operands that are printed without loss. -/
def Operand.PrintableAll : List Operand → Prop
  | [] => True
  | operand :: operands => operand.Printable ∧ Operand.PrintableAll operands

/-- A command that is printed without loss. -/
def Command.Printable : Command → Prop
  | .of head arguments => head.Printable ∧ Operand.PrintableAll arguments

/-- Commands that are printed without loss. -/
def Command.PrintableAll : List Command → Prop
  | [] => True
  | command :: commands => command.Printable ∧ Command.PrintableAll commands

/-- A pipeline that is printed without loss. -/
def Pipeline.Printable : Pipeline → Prop
  | .of first others => first.Printable ∧ Command.PrintableAll others

end

/-- A text that may stand before an action: it does not end with a brace. -/
def EndsBeforeAction (content : String) : Prop := content.toList.getLast? ≠ some '{'

/-- A node may be followed by another: a text is not followed by a text, and may stand before an
action if it is followed by any other node. -/
def Node.Follows : Node → Node → Prop
  | .text _, .text _ => False
  | .text content, _ => EndsBeforeAction content
  | _, _ => True

/-- Nodes that follow each other in a block, where an action follows the last one. -/
structure Node.FillBlock (nodes : List Node) : Prop where
  follow : nodes.IsChain Node.Follows
  ends : ∀ content, nodes.getLast? = some (.text content) → EndsBeforeAction content

mutual

/-- A node that is printed without loss. -/
def Node.Printable : Node → Prop
  | .text content => content ≠ "" ∧ ¬ ['{', '{'] <:+: content.toList
  | .output pipeline => pipeline.Printable ∧ StartsPlain pipeline.tokens
  | .conditional (.of condition body) others otherwise =>
    condition.Printable ∧ (Node.PrintableAll body ∧ Node.FillBlock body) ∧
      Branch.PrintableAll others ∧ Node.PrintableAll otherwise ∧ Node.FillBlock otherwise
  | .range source body otherwise =>
    source.Printable ∧ (Node.PrintableAll body ∧ Node.FillBlock body) ∧
      Node.PrintableAll otherwise ∧ Node.FillBlock otherwise
  | .within value body otherwise =>
    value.Printable ∧ (Node.PrintableAll body ∧ Node.FillBlock body) ∧
      Node.PrintableAll otherwise ∧ Node.FillBlock otherwise

/-- Nodes that are each printed without loss. -/
def Node.PrintableAll : List Node → Prop
  | [] => True
  | node :: nodes => node.Printable ∧ Node.PrintableAll nodes

/-- Branches that are printed without loss. -/
def Branch.PrintableAll : List Branch → Prop
  | [] => True
  | .of condition body :: branches =>
    condition.Printable ∧ (Node.PrintableAll body ∧ Node.FillBlock body) ∧
      Branch.PrintableAll branches

end

section Derivations

mutual

/-- A printable operand has a derivation. -/
theorem Operand.exists_term {operand : Operand} (printable : operand.Printable) :
    ∃ term : Term, term.tokens = operand.tokens ∧ term.tree = operand := by
  match operand with
  | .dot path => exact ⟨.atom (.dot path), rfl, rfl⟩
  | .root path => exact ⟨.atom (.root path), rfl, rfl⟩
  | .call name =>
    obtain ⟨noTrue, noFalse, noNil⟩ : name ≠ "true" ∧ name ≠ "false" ∧ name ≠ "nil" := by
      simpa using printable.noLiteral
    refine ⟨.atom (.word name), rfl, ?_⟩
    rw [Term.tree, Atom.tree, operandOfWord, if_neg noTrue, if_neg noFalse, if_neg noNil]
  | .literal value =>
    cases value with
    | null => exact ⟨.atom (.word "nil"), rfl, rfl⟩
    | bool flag => cases flag <;> exact ⟨.atom (.word _), rfl, rfl⟩
    | int number => exact ⟨.atom (.int number), rfl, rfl⟩
    | str content => exact ⟨.atom (.text content), rfl, rfl⟩
    | float | html | list | map => exact printable.elim
  | .group pipeline =>
    have inside : pipeline.Printable := printable
    obtain ⟨chain, tokens, tree⟩ := Pipeline.exists_chain inside
    exact ⟨.group chain, by rw [Term.tokens, tokens, Operand.tokens], by rw [Term.tree, tree]⟩

/-- Printable operands have derivations. -/
theorem Operand.exists_terms {operands : List Operand}
    (printable : Operand.PrintableAll operands) :
    ∃ terms, Term.tokensAll terms = Operand.tokensAll operands ∧
      Term.treeAll terms = operands := by
  match operands with
  | [] => exact ⟨[], rfl, rfl⟩
  | operand :: operands =>
    obtain ⟨term, tokens, tree⟩ := Operand.exists_term printable.1
    obtain ⟨terms, others, trees⟩ := Operand.exists_terms printable.2
    refine ⟨term :: terms, ?_, by rw [Term.treeAll, tree, trees]⟩
    rw [Term.tokensAll, tokens, others, Operand.tokensAll]

/-- A printable command has a derivation. -/
theorem Command.exists_clause {command : Command} (printable : command.Printable) :
    ∃ clause : Clause, clause.tokens = command.tokens ∧ clause.tree = command := by
  match command with
  | .of head arguments =>
    obtain ⟨term, tokens, tree⟩ := Operand.exists_term printable.1
    obtain ⟨terms, others, trees⟩ := Operand.exists_terms printable.2
    refine ⟨.of term terms, ?_, by rw [Clause.tree, tree, trees]⟩
    rw [Clause.tokens, tokens, others, Command.tokens]

/-- Printable commands have derivations. -/
theorem Command.exists_clauses {commands : List Command}
    (printable : Command.PrintableAll commands) :
    ∃ clauses, Clause.tokensAll clauses = Command.tokensAll commands ∧
      Clause.treeAll clauses = commands := by
  match commands with
  | [] => exact ⟨[], rfl, rfl⟩
  | command :: commands =>
    obtain ⟨clause, tokens, tree⟩ := Command.exists_clause printable.1
    obtain ⟨clauses, others, trees⟩ := Command.exists_clauses printable.2
    refine ⟨clause :: clauses, ?_, by rw [Clause.treeAll, tree, trees]⟩
    rw [Clause.tokensAll, tokens, others, Command.tokensAll]

/-- A printable pipeline has a derivation. -/
theorem Pipeline.exists_chain {pipeline : Pipeline} (printable : pipeline.Printable) :
    ∃ chain : Chain, chain.tokens = pipeline.tokens ∧ chain.tree = pipeline := by
  match pipeline with
  | .of first others =>
    obtain ⟨clause, tokens, tree⟩ := Command.exists_clause printable.1
    obtain ⟨clauses, others, trees⟩ := Command.exists_clauses printable.2
    refine ⟨.of clause clauses, ?_, by rw [Chain.tree, tree, trees]⟩
    rw [Chain.tokens, tokens, others, Pipeline.tokens]

end

/-- The action that starts a block or a branch is that of the derivation of its pipeline. -/
theorem opening_eq {chain : Chain} {pipeline : Pipeline} (same : chain.tokens = pipeline.tokens)
    (words : List String) : opening words chain = openingAction words pipeline := by
  rw [opening, openingAction, same]

mutual

/-- A printable node has a derivation. -/
theorem Node.exists_item {node : Node} (printable : node.Printable) :
    ∃ item : Item, item.segments = node.segments ∧ item.node = node := by
  match node with
  | .text content => exact ⟨.text content, rfl, rfl⟩
  | .output pipeline =>
    obtain ⟨writable, plain⟩ := printable
    obtain ⟨chain, tokens, tree⟩ := Pipeline.exists_chain writable
    refine ⟨.output chain (tokens ▸ plain), ?_, by rw [Item.node, tree]⟩
    rw [Item.segments, tokens, Node.segments]
  | .conditional (.of condition body) others otherwise =>
    obtain ⟨guarded, ⟨filled, -⟩, branched, ended, -⟩ := printable
    obtain ⟨chain, tokens, tree⟩ := Pipeline.exists_chain guarded
    obtain ⟨items, bodies, nodes⟩ := Node.exists_items filled
    obtain ⟨arms, branches, trees⟩ := Branch.exists_arms branched
    obtain ⟨last, lasts, lastNodes⟩ := Node.exists_otherwise ended
    refine ⟨.conditional chain items arms last [], ?_, ?_⟩
    · rw [Item.segments, opening_eq tokens, bodies, branches, lasts, Node.segments]
    · rw [Item.node, tree, nodes, trees, lastNodes]
  | .range source body otherwise =>
    obtain ⟨sourced, ⟨filled, -⟩, ended, -⟩ := printable
    obtain ⟨chain, tokens, tree⟩ := Pipeline.exists_chain sourced
    obtain ⟨items, bodies, nodes⟩ := Node.exists_items filled
    obtain ⟨last, lasts, lastNodes⟩ := Node.exists_otherwise ended
    refine ⟨.block .range chain items last [], ?_, ?_⟩
    · rw [Item.segments, opening_eq tokens, bodies, lasts, Node.segments]
      rfl
    · rw [Item.node, tree, nodes, lastNodes]
      rfl
  | .within value body otherwise =>
    obtain ⟨valued, ⟨filled, -⟩, ended, -⟩ := printable
    obtain ⟨chain, tokens, tree⟩ := Pipeline.exists_chain valued
    obtain ⟨items, bodies, nodes⟩ := Node.exists_items filled
    obtain ⟨last, lasts, lastNodes⟩ := Node.exists_otherwise ended
    refine ⟨.block .within chain items last [], ?_, ?_⟩
    · rw [Item.segments, opening_eq tokens, bodies, lasts, Node.segments]
      rfl
    · rw [Item.node, tree, nodes, lastNodes]
      rfl

/-- Printable nodes have derivations. -/
theorem Node.exists_items {nodes : List Node} (printable : Node.PrintableAll nodes) :
    ∃ items, Item.segmentsAll items = Node.segmentsAll nodes ∧ Item.nodeAll items = nodes := by
  match nodes with
  | [] => exact ⟨[], rfl, rfl⟩
  | node :: nodes =>
    obtain ⟨item, segments, same⟩ := Node.exists_item printable.1
    obtain ⟨items, others, trees⟩ := Node.exists_items printable.2
    refine ⟨item :: items, ?_, by rw [Item.nodeAll, same, trees]⟩
    rw [Item.segmentsAll, segments, others, Node.segmentsAll]

/-- The last part of a block has a derivation if its nodes are printable. -/
theorem Node.exists_otherwise {nodes : List Node} (printable : Node.PrintableAll nodes) :
    ∃ otherwise : Otherwise, otherwise.segments = Node.elseSegments nodes ∧
      otherwise.nodes = nodes := by
  match nodes with
  | [] => exact ⟨.absent, rfl, rfl⟩
  | node :: nodes =>
    obtain ⟨item, segments, same⟩ := Node.exists_item printable.1
    obtain ⟨items, others, trees⟩ := Node.exists_items printable.2
    refine ⟨.present (item :: items), ?_, ?_⟩
    · rw [Otherwise.segments, Item.segmentsAll, segments, others, Node.elseSegments]
    · rw [Otherwise.nodes, Item.nodeAll, same, trees]

/-- Printable branches have derivations. -/
theorem Branch.exists_arms {branches : List Branch} (printable : Branch.PrintableAll branches) :
    ∃ arms, Arm.segmentsAll arms = Branch.segmentsAll branches ∧ Arm.treeAll arms = branches := by
  match branches with
  | [] => exact ⟨[], rfl, rfl⟩
  | .of condition body :: branches =>
    obtain ⟨guarded, ⟨filled, -⟩, branched⟩ := printable
    obtain ⟨chain, tokens, tree⟩ := Pipeline.exists_chain guarded
    obtain ⟨items, bodies, nodes⟩ := Node.exists_items filled
    obtain ⟨arms, others, trees⟩ := Branch.exists_arms branched
    refine ⟨.of chain items :: arms, ?_, by rw [Arm.treeAll, tree, nodes, trees]⟩
    rw [Arm.segmentsAll, opening_eq tokens, bodies, others, Branch.segmentsAll]

end

end Derivations

section Tokens

/-- The words that have a meaning of their own can be written. -/
theorem isWordName_of_mem {word : String}
    (listed : word ∈ keywords ++ ["true", "false", "nil"]) : IsWordName word := by
  have named : ∀ word ∈ keywords ++ ["true", "false", "nil"], IsWordName word := by decide
  exact named word listed

/-- The token of a printable literal can be written. -/
theorem written_literalToken {value : Value} (printable : PrintableLiteral value) :
    (literalToken value).Written := by
  cases value with
  | null => exact isWordName_of_mem (by decide)
  | bool flag => cases flag <;> exact isWordName_of_mem (by decide)
  | int | str => trivial
  | float | html | list | map => exact printable.elim

mutual

/-- The tokens of a printable operand can be written. -/
theorem Operand.written_tokens {operand : Operand} (printable : operand.Printable) :
    ∀ token ∈ operand.tokens, token.Written := by
  match operand with
  | .dot path => exact List.forall_mem_singleton.2 printable
  | .root path => exact List.forall_mem_singleton.2 printable
  | .call name => exact List.forall_mem_singleton.2 printable.wordName
  | .literal value => exact List.forall_mem_singleton.2 (written_literalToken printable)
  | .group pipeline =>
    have inside : pipeline.Printable := printable
    rw [Operand.tokens]
    simp only [List.cons_append, List.forall_mem_cons, List.forall_mem_append]
    exact ⟨trivial, Pipeline.written_tokens inside, trivial, by simp⟩

/-- The tokens of printable operands can be written. -/
theorem Operand.written_tokensAll {operands : List Operand}
    (printable : Operand.PrintableAll operands) :
    ∀ token ∈ Operand.tokensAll operands, token.Written := by
  match operands with
  | [] => simp [Operand.tokensAll]
  | operand :: operands =>
    rw [Operand.tokensAll]
    exact List.forall_mem_append.2
      ⟨Operand.written_tokens printable.1, Operand.written_tokensAll printable.2⟩

/-- The tokens of a printable command can be written. -/
theorem Command.written_tokens {command : Command} (printable : command.Printable) :
    ∀ token ∈ command.tokens, token.Written := by
  match command with
  | .of head arguments =>
    rw [Command.tokens]
    exact List.forall_mem_append.2
      ⟨Operand.written_tokens printable.1, Operand.written_tokensAll printable.2⟩

/-- The tokens of printable commands can be written. -/
theorem Command.written_tokensAll {commands : List Command}
    (printable : Command.PrintableAll commands) :
    ∀ token ∈ Command.tokensAll commands, token.Written := by
  match commands with
  | [] => simp [Command.tokensAll]
  | command :: commands =>
    rw [Command.tokensAll, List.cons_append]
    exact List.forall_mem_cons.2 ⟨trivial, List.forall_mem_append.2
      ⟨Command.written_tokens printable.1, Command.written_tokensAll printable.2⟩⟩

/-- The tokens of a printable pipeline can be written. -/
theorem Pipeline.written_tokens {pipeline : Pipeline} (printable : pipeline.Printable) :
    ∀ token ∈ pipeline.tokens, token.Written := by
  match pipeline with
  | .of first others =>
    rw [Pipeline.tokens]
    exact List.forall_mem_append.2
      ⟨Command.written_tokens printable.1, Command.written_tokensAll printable.2⟩

end

/-- The action that starts a block or a branch can be written. -/
theorem written_openingAction {words : List String} (listed : ∀ word ∈ words, word ∈ keywords)
    {pipeline : Pipeline} (printable : pipeline.Printable) :
    (openingAction words pipeline).Written := by
  refine List.forall_mem_append.2 ⟨?_, Pipeline.written_tokens printable⟩
  intro token member
  obtain ⟨word, inside, rfl⟩ := List.mem_map.1 member
  exact isWordName_of_mem (List.mem_append_left _ (listed word inside))

/-- The action before the last part of a block can be written. -/
theorem written_otherwiseAction : otherwiseAction.Written :=
  List.forall_mem_singleton.2 (isWordName_of_mem (by decide))

/-- The action that ends a block can be written. -/
theorem written_endAction : (endAction []).Written :=
  List.forall_mem_singleton.2 (isWordName_of_mem (by decide))

mutual

/-- The segments of a printable node can be written. -/
theorem Node.written_segments {node : Node} (printable : node.Printable) :
    ∀ part ∈ node.segments, part.Written := by
  match node with
  | .text content => exact List.forall_mem_singleton.2 printable
  | .output pipeline => exact List.forall_mem_singleton.2 (Pipeline.written_tokens printable.1)
  | .conditional (.of condition body) others otherwise =>
    obtain ⟨guarded, ⟨filled, -⟩, branched, ended, -⟩ := printable
    simp only [Node.segments, List.forall_mem_cons, List.forall_mem_append]
    exact ⟨written_openingAction (by decide) guarded, Node.written_segmentsAll filled,
      Branch.written_segmentsAll branched, Node.written_elseSegments ended, written_endAction,
      by simp⟩
  | .range source body otherwise =>
    obtain ⟨sourced, ⟨filled, -⟩, ended, -⟩ := printable
    simp only [Node.segments, List.forall_mem_cons, List.forall_mem_append]
    exact ⟨written_openingAction (by decide) sourced, Node.written_segmentsAll filled,
      Node.written_elseSegments ended, written_endAction, by simp⟩
  | .within value body otherwise =>
    obtain ⟨valued, ⟨filled, -⟩, ended, -⟩ := printable
    simp only [Node.segments, List.forall_mem_cons, List.forall_mem_append]
    exact ⟨written_openingAction (by decide) valued, Node.written_segmentsAll filled,
      Node.written_elseSegments ended, written_endAction, by simp⟩

/-- The segments of printable nodes can be written. -/
theorem Node.written_segmentsAll {nodes : List Node} (printable : Node.PrintableAll nodes) :
    ∀ part ∈ Node.segmentsAll nodes, part.Written := by
  match nodes with
  | [] => simp [Node.segmentsAll]
  | node :: nodes =>
    rw [Node.segmentsAll]
    exact List.forall_mem_append.2
      ⟨Node.written_segments printable.1, Node.written_segmentsAll printable.2⟩

/-- The segments of the last part of a block can be written if its nodes are printable. -/
theorem Node.written_elseSegments {nodes : List Node} (printable : Node.PrintableAll nodes) :
    ∀ part ∈ Node.elseSegments nodes, part.Written := by
  match nodes with
  | [] => simp [Node.elseSegments]
  | node :: nodes =>
    rw [Node.elseSegments]
    exact List.forall_mem_cons.2 ⟨written_otherwiseAction, List.forall_mem_append.2
      ⟨Node.written_segments printable.1, Node.written_segmentsAll printable.2⟩⟩

/-- The segments of printable branches can be written. -/
theorem Branch.written_segmentsAll {branches : List Branch}
    (printable : Branch.PrintableAll branches) :
    ∀ part ∈ Branch.segmentsAll branches, part.Written := by
  match branches with
  | [] => simp [Branch.segmentsAll]
  | .of condition body :: branches =>
    obtain ⟨guarded, ⟨filled, -⟩, branched⟩ := printable
    simp only [Branch.segmentsAll, List.forall_mem_cons, List.forall_mem_append]
    exact ⟨written_openingAction (by decide) guarded, Node.written_segmentsAll filled,
      Branch.written_segmentsAll branched⟩

end

end Tokens

section Seams

/-- Anything may follow an action. -/
theorem isChain_action {tokens : List Token} {rest : List Segment}
    (follow : rest.IsChain Segment.Follows) :
    (.action tokens :: rest : List Segment).IsChain Segment.Follows := by
  cases rest with
  | nil => exact .singleton _
  | cons next rest => exact .cons_cons trivial follow

/-- What follows the last node of a list may stand there. -/
def Seam (nodes : List Node) (rest : List Segment) : Prop :=
  ∀ content, nodes.getLast? = some (.text content) →
    ∀ next ∈ rest.head?, (Segment.text content).Follows next

/-- The segments start with an action. -/
def StartsAction (rest : List Segment) : Prop := ∃ tokens others, rest = .action tokens :: others

/-- An action may follow the nodes of a block. -/
theorem Node.FillBlock.seam {nodes : List Node} (fill : Node.FillBlock nodes)
    {rest : List Segment} (starts : StartsAction rest) : Seam nodes rest := by
  obtain ⟨tokens, others, rfl⟩ := starts
  rintro content last next ⟨⟩
  exact fill.ends content last

/-- After the branches of a block stands an action. -/
theorem startsAction_elseSegments (nodes : List Node) (rest : List Segment) :
    StartsAction (Node.elseSegments nodes ++ endAction [] :: rest) := by
  cases nodes with
  | nil => exact ⟨_, _, rfl⟩
  | cons node nodes => exact ⟨_, _, rfl⟩

/-- After the body of a branch stands an action. -/
theorem startsAction_segmentsAll (branches : List Branch) {rest : List Segment}
    (starts : StartsAction rest) : StartsAction (Branch.segmentsAll branches ++ rest) := by
  cases branches with
  | nil => exact starts
  | cons branch branches =>
    obtain ⟨condition, body⟩ := branch
    exact ⟨_, _, rfl⟩

/-- The segments of a node that follows a text may stand after the text. -/
theorem Node.Follows.segments {content : String} {node : Node}
    (follows : Node.Follows (.text content) node) (rest : List Segment) :
    ∀ next ∈ (node.segments ++ rest).head?, (Segment.text content).Follows next := by
  cases node with
  | text other => exact follows.elim
  | conditional first =>
    cases first
    rintro next ⟨⟩
    exact follows
  | output | range | within =>
    rintro next ⟨⟩
    exact follows

/-- What follows all nodes may stand after those behind the first. -/
theorem Seam.tail {node : Node} {nodes : List Node} {rest : List Segment}
    (seam : Seam (node :: nodes) rest) : Seam nodes rest := by
  intro content last
  exact seam content (by rw [List.getLast?_cons, last]; rfl)

/-- The nodes behind the first may stand after it. -/
theorem Seam.head {node : Node} {nodes : List Node} {rest : List Segment}
    (seam : Seam (node :: nodes) rest) (follow : (node :: nodes).IsChain Node.Follows) :
    Seam [node] (Node.segmentsAll nodes ++ rest) := by
  intro content last
  cases nodes with
  | nil => exact seam content last
  | cons next nodes =>
    obtain rfl := Option.some.inj last
    have follows := (List.isChain_cons_cons.1 follow).1
    rw [Node.segmentsAll, List.append_assoc]
    exact follows.segments _

mutual

/-- The segments of a node stand in front of others that they may be followed by. -/
theorem Node.isChain_segments {node : Node} (printable : node.Printable) {rest : List Segment}
    (follow : rest.IsChain Segment.Follows) (seam : Seam [node] rest) :
    (node.segments ++ rest).IsChain Segment.Follows := by
  match node with
  | .text content =>
    cases rest with
    | nil => exact .singleton _
    | cons next rest => exact .cons_cons (seam content rfl next rfl) follow
  | .output pipeline => exact isChain_action follow
  | .conditional (.of condition body) others otherwise =>
    obtain ⟨-, ⟨filled, fill⟩, branched, ended, last⟩ := printable
    have ends := startsAction_elseSegments otherwise rest
    simp only [Node.segments, List.cons_append, List.append_assoc, List.nil_append]
    refine isChain_action (Node.isChain_segmentsAll filled fill.follow ?_ ?_)
    · exact Branch.isChain_segmentsAll branched (Node.isChain_elseSegments ended last follow) ends
    · exact fill.seam (startsAction_segmentsAll others ends)
  | .range source body otherwise =>
    obtain ⟨-, ⟨filled, fill⟩, ended, last⟩ := printable
    simp only [Node.segments, List.cons_append, List.append_assoc, List.nil_append]
    exact isChain_action (Node.isChain_segmentsAll filled fill.follow
      (Node.isChain_elseSegments ended last follow)
      (fill.seam (startsAction_elseSegments otherwise rest)))
  | .within value body otherwise =>
    obtain ⟨-, ⟨filled, fill⟩, ended, last⟩ := printable
    simp only [Node.segments, List.cons_append, List.append_assoc, List.nil_append]
    exact isChain_action (Node.isChain_segmentsAll filled fill.follow
      (Node.isChain_elseSegments ended last follow)
      (fill.seam (startsAction_elseSegments otherwise rest)))

/-- The segments of nodes that follow each other stand in front of others that they may be
followed by. -/
theorem Node.isChain_segmentsAll {nodes : List Node} (printable : Node.PrintableAll nodes)
    (nodesFollow : nodes.IsChain Node.Follows) {rest : List Segment}
    (follow : rest.IsChain Segment.Follows) (seam : Seam nodes rest) :
    (Node.segmentsAll nodes ++ rest).IsChain Segment.Follows := by
  match nodes with
  | [] => exact follow
  | node :: nodes =>
    rw [Node.segmentsAll, List.append_assoc]
    exact Node.isChain_segments printable.1
      (Node.isChain_segmentsAll printable.2 nodesFollow.tail follow seam.tail)
      (seam.head nodesFollow)

/-- The segments of the last part of a block stand in front of its end. -/
theorem Node.isChain_elseSegments {nodes : List Node} (printable : Node.PrintableAll nodes)
    (fill : Node.FillBlock nodes) {rest : List Segment}
    (follow : rest.IsChain Segment.Follows) :
    (Node.elseSegments nodes ++ endAction [] :: rest).IsChain Segment.Follows := by
  have ended : (endAction [] :: rest).IsChain Segment.Follows := isChain_action follow
  match nodes with
  | [] => exact ended
  | node :: nodes =>
    have seam : Seam (node :: nodes) (endAction [] :: rest) := fill.seam ⟨_, _, rfl⟩
    rw [Node.elseSegments, List.cons_append, List.append_assoc]
    exact isChain_action (Node.isChain_segments printable.1
      (Node.isChain_segmentsAll printable.2 fill.follow.tail ended seam.tail)
      (seam.head fill.follow))

/-- The segments of branches stand in front of an action. -/
theorem Branch.isChain_segmentsAll {branches : List Branch}
    (printable : Branch.PrintableAll branches) {rest : List Segment}
    (follow : rest.IsChain Segment.Follows) (starts : StartsAction rest) :
    (Branch.segmentsAll branches ++ rest).IsChain Segment.Follows := by
  match branches with
  | [] => exact follow
  | .of condition body :: branches =>
    obtain ⟨-, ⟨filled, fill⟩, branched⟩ := printable
    rw [Branch.segmentsAll, List.cons_append, List.append_assoc]
    exact isChain_action (Node.isChain_segmentsAll filled fill.follow
      (Branch.isChain_segmentsAll branched follow starts)
      (fill.seam (startsAction_segmentsAll branches starts)))

end

end Seams

/-- A printable tree is what its canonical text parses to. -/
theorem parse_print {nodes : List Node} (printable : Node.PrintableAll nodes)
    (follow : nodes.IsChain Node.Follows) (name : String) :
    parse name (Node.print nodes) = .ok ⟨name, nodes⟩ := by
  have seam : Seam nodes [] := by simp [Seam]
  have spaced := Node.isChain_segmentsAll printable follow .nil seam
  rw [List.append_nil] at spaced
  have lexes : segments (Node.print nodes).toList = .ok (Node.segmentsAll nodes) := by
    rw [Node.print, String.toList_ofList, segments]
    exact readSegments_writeAll (Node.written_segmentsAll printable) spaced
  obtain ⟨items, derived, described⟩ := Node.exists_items printable
  have reads : Node.ofSegments (Node.segmentsAll nodes) = .ok nodes := by
    rw [← derived, Item.ofSegments_segmentsAll, described]
  have made : (segments (Node.print nodes).toList >>= Node.ofSegments) = .ok nodes := by
    rw [lexes]
    exact reads
  rw [parse, made]

/-- A literal that holds the ends of an action, a quote and a backslash. -/
def markLiteral : Operand := .literal (.str "\x7d\x7d \"\x7b\x7b\\")

/-- A conditional with that literal, between texts with single braces. -/
def markedNodes : List Node :=
  [.text "a\x7bb",
    .conditional (.of (.of (.of (.call "eq") [.dot ["Mark"], markLiteral]) [])
      [.output (.of (.of (.root ["Rows"]) [])
        [.of (.call "add") [.literal (.int (-1)), .group (.of (.of (.dot []) []) [])]])])
      [.of (.of (.of (.literal (.bool true)) []) []) []] [.text "-"],
    .text "\x7b"]

/-- The tree is printed without loss. Its condition is written `{{ if eq .Mark "}} \"{{\\" }}`. -/
theorem parse_print_markedNodes :
    Node.PrintableAll markedNodes ∧ markedNodes.IsChain Node.Follows ∧
      parse "marked" (Node.print markedNodes) = .ok ⟨"marked", markedNodes⟩ := by
  have equals : IsFunctionName "eq" := ⟨by decide, by decide⟩
  have adds : IsFunctionName "add" := ⟨by decide, by decide⟩
  have mark : ∀ name ∈ ["Mark"], IsPathName name := by decide
  have rows : ∀ name ∈ ["Rows"], IsPathName name := by decide
  have fillOne {node : Node} (ends : ∀ content, node = .text content → EndsBeforeAction content) :
      Node.FillBlock [node] :=
    ⟨.singleton _, fun content last => ends content (Option.some.inj last)⟩
  have fillNone : Node.FillBlock [] := ⟨.nil, by simp⟩
  have dash : EndsBeforeAction "-" := by unfold EndsBeforeAction; decide
  have current : (Operand.group (.of (.of (.dot []) []) [])).Printable :=
    ⟨⟨by simp [Operand.Printable], trivial⟩, trivial⟩
  have printable : Node.PrintableAll markedNodes :=
    ⟨⟨by decide, by decide⟩,
      ⟨⟨⟨equals, mark, trivial, trivial⟩, trivial⟩,
        ⟨⟨⟨⟨⟨rows, trivial⟩, ⟨adds, trivial, current, trivial⟩, trivial⟩, trivial⟩, trivial⟩,
          fillOne (by simp)⟩,
        ⟨⟨⟨⟨trivial, trivial⟩, trivial⟩, ⟨trivial, fillNone⟩, trivial⟩,
          ⟨⟨by decide, by decide⟩, trivial⟩, fillOne (by rintro content ⟨⟩; exact dash)⟩⟩,
      ⟨by decide, by decide⟩, trivial⟩
  have apart : EndsBeforeAction "a\x7bb" := by unfold EndsBeforeAction; decide
  have follow : markedNodes.IsChain Node.Follows :=
    .cons_cons apart (.cons_cons trivial (.singleton _))
  exact ⟨printable, follow, parse_print printable follow "marked"⟩

end ComponentPages.Template
