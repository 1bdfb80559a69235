import ComponentPages.Template.Block

/-!
# The grammar of templates

The derivations of the grammar as trees: a pipeline is made of commands between pipes, a command
of operands, and an operand is a token by itself or a pipeline in parentheses; a list of items is
made of texts, outputs and blocks. A derivation has the tokens or the segments that it derives,
from left to right, and the tree that it describes. The grammar is unambiguous
(`Item.segmentsAll_injective`): items end by themselves, and a list of them ends at the first
action that continues or ends a block.
-/
namespace ComponentPages.Template.Grammar

/-- A token that is an operand by itself. -/
inductive Atom where
  | text (content : String)
  | int (number : Int64)
  | float (number : Float)
  | word (name : String)
  | dot (path : List String)
  | root (path : List String)

/-- The token of an atom. -/
def Atom.token : Atom → Token
  | .text content => .text content
  | .int number => .int number
  | .float number => .float number
  | .word name => .word name
  | .dot path => .dot path
  | .root path => .root path

/-- The operand that an atom describes. -/
def Atom.tree : Atom → Operand
  | .text content => .literal (.str content)
  | .int number => .literal (.int number)
  | .float number => .literal (.float number)
  | .word name => operandOfWord name
  | .dot path => .dot path
  | .root path => .root path

mutual

/-- A derivation of an operand: an atom, or a pipeline in parentheses. -/
inductive Term where
  | atom (atom : Atom)
  | group (chain : Chain)

/-- A derivation of a command: one operand or more. -/
inductive Clause where
  | of (head : Term) (arguments : List Term)

/-- A derivation of a pipeline: one command or more, with pipes between them. -/
inductive Chain where
  | of (first : Clause) (others : List Clause)

end

mutual

/-- The tokens that an operand is derived to. -/
def Term.tokens : Term → List Token
  | .atom atom => [atom.token]
  | .group chain => .opening :: chain.tokens ++ [.closing]

/-- The tokens that operands are derived to. -/
def Term.tokensAll : List Term → List Token
  | [] => []
  | term :: terms => term.tokens ++ Term.tokensAll terms

/-- The tokens that a command is derived to. -/
def Clause.tokens : Clause → List Token
  | .of head arguments => head.tokens ++ Term.tokensAll arguments

/-- The tokens that commands are derived to, each after a pipe. -/
def Clause.tokensAll : List Clause → List Token
  | [] => []
  | clause :: clauses => .pipe :: clause.tokens ++ Clause.tokensAll clauses

/-- The tokens that a pipeline is derived to. -/
def Chain.tokens : Chain → List Token
  | .of first others => first.tokens ++ Clause.tokensAll others

end

mutual

/-- The operand that a derivation describes. -/
def Term.tree : Term → Operand
  | .atom atom => atom.tree
  | .group chain => .group chain.tree

/-- The operands that derivations describe. -/
def Term.treeAll : List Term → List Operand
  | [] => []
  | term :: terms => term.tree :: Term.treeAll terms

/-- The command that a derivation describes. -/
def Clause.tree : Clause → Command
  | .of head arguments => .of head.tree (Term.treeAll arguments)

/-- The commands that derivations describe. -/
def Clause.treeAll : List Clause → List Command
  | [] => []
  | clause :: clauses => clause.tree :: Clause.treeAll clauses

/-- The pipeline that a derivation describes. -/
def Chain.tree : Chain → Pipeline
  | .of first others => .of first.tree (Clause.treeAll others)

end

/-- The words that an output does not start with. -/
def keywords : List String := ["end", "else", "if", "range", "with"]

/-- The tokens of an action do not start with a keyword. -/
def StartsPlain : List Token → Prop
  | .word name :: _ => name ∉ keywords
  | _ => True

/-- The blocks that have one value and two parts. -/
inductive Scope where
  | range
  | within

/-- The word that starts a block. -/
def Scope.word : Scope → String
  | .range => "range"
  | .within => "with"

/-- The node of a block. -/
def Scope.node : Scope → Pipeline → List Node → List Node → Node
  | .range => .range
  | .within => .within

mutual

/-- A derivation of an item: a text, an output or a block. The action that ends a block may hold
any tokens after its first word. -/
inductive Item where
  | text (content : String)
  | output (chain : Chain) (plain : StartsPlain chain.tokens)
  | conditional (condition : Chain) (body : List Item) (others : List Arm)
    (otherwise : Otherwise) (ending : List Token)
  | block (scope : Scope) (value : Chain) (body : List Item) (otherwise : Otherwise)
    (ending : List Token)

/-- A derivation of a further branch of a conditional. -/
inductive Arm where
  | of (condition : Chain) (body : List Item)

/-- A derivation of the last part of a block, which may be absent. -/
inductive Otherwise where
  | absent
  | present (items : List Item)

end

/-- The action that starts a block or a branch. -/
def opening (words : List String) (chain : Chain) : Segment :=
  .action (words.map Token.word ++ chain.tokens)

/-- The action before the last part of a block. -/
def otherwiseAction : Segment := .action [.word "else"]

/-- The action that ends a block. -/
def endAction (ending : List Token) : Segment := .action (.word "end" :: ending)

mutual

/-- The segments that an item is derived to. -/
def Item.segments : Item → List Segment
  | .text content => [.text content]
  | .output chain _ => [.action chain.tokens]
  | .conditional condition body others otherwise ending =>
    opening ["if"] condition ::
      (Item.segmentsAll body ++ (Arm.segmentsAll others ++
        (otherwise.segments ++ [endAction ending])))
  | .block scope value body otherwise ending =>
    opening [scope.word] value ::
      (Item.segmentsAll body ++ (otherwise.segments ++ [endAction ending]))

/-- The segments that a list of items is derived to. -/
def Item.segmentsAll : List Item → List Segment
  | [] => []
  | item :: items => item.segments ++ Item.segmentsAll items

/-- The segments that further branches are derived to. -/
def Arm.segmentsAll : List Arm → List Segment
  | [] => []
  | .of condition body :: arms =>
    opening ["else", "if"] condition ::
      (Item.segmentsAll body ++ Arm.segmentsAll arms)

/-- The segments that the last part of a block is derived to. -/
def Otherwise.segments : Otherwise → List Segment
  | .absent => []
  | .present items => otherwiseAction :: Item.segmentsAll items

end

mutual

/-- The node that an item describes. -/
def Item.node : Item → Node
  | .text content => .text content
  | .output chain _ => .output chain.tree
  | .conditional condition body others otherwise _ =>
    .conditional (.of condition.tree (Item.nodeAll body)) (Arm.treeAll others) otherwise.nodes
  | .block scope value body otherwise _ =>
    scope.node value.tree (Item.nodeAll body) otherwise.nodes

/-- The nodes that a list of items describes. -/
def Item.nodeAll : List Item → List Node
  | [] => []
  | item :: items => item.node :: Item.nodeAll items

/-- The branches that further branches describe. -/
def Arm.treeAll : List Arm → List Branch
  | [] => []
  | .of condition body :: arms =>
    .of condition.tree (Item.nodeAll body) :: Arm.treeAll arms

/-- The nodes that the last part of a block describes, none if it is absent. -/
def Otherwise.nodes : Otherwise → List Node
  | .absent => []
  | .present items => Item.nodeAll items

end

section Tokens

/-- No operand starts at the front of the tokens. -/
def EndsCommand (rest : List Token) : Prop :=
  ∀ token ∈ rest.head?, token = .pipe ∨ token = .closing

/-- Neither an operand nor a further command starts at the front of the tokens. -/
def EndsPipeline (rest : List Token) : Prop := ∀ token ∈ rest.head?, token = .closing

/-- Tokens that end a pipeline end its last command. -/
theorem EndsPipeline.endsCommand {rest : List Token} (ends : EndsPipeline rest) :
    EndsCommand rest := fun token member => .inr (ends token member)

/-- An operand does not start with a token that ends a command. -/
theorem Term.not_endsCommand (term : Term) (rest : List Token) :
    ¬ EndsCommand (term.tokens ++ rest) := by
  intro ends
  cases term with
  | atom atom =>
    have first := ends atom.token rfl
    cases atom <;> simp [Atom.token] at first
  | group chain =>
    have first := ends .opening rfl
    simp at first

/-- Operands that follow others have the tokens of each. -/
theorem Term.tokensAll_append (terms others : List Term) :
    Term.tokensAll (terms ++ others) = Term.tokensAll terms ++ Term.tokensAll others := by
  induction terms with
  | nil => rfl
  | cons term terms ih => simp [Term.tokensAll, ih]

/-- Operands that follow others have the trees of each. -/
theorem Term.treeAll_append (terms others : List Term) :
    Term.treeAll (terms ++ others) = Term.treeAll terms ++ Term.treeAll others := by
  induction terms with
  | nil => rfl
  | cons term terms ih => simp [Term.treeAll, ih]

/-- Commands that follow others have the tokens of each. -/
theorem Clause.tokensAll_append (clauses others : List Clause) :
    Clause.tokensAll (clauses ++ others) = Clause.tokensAll clauses ++ Clause.tokensAll others := by
  induction clauses with
  | nil => rfl
  | cons clause clauses ih => simp [Clause.tokensAll, ih]

/-- Commands that follow others have the trees of each. -/
theorem Clause.treeAll_append (clauses others : List Clause) :
    Clause.treeAll (clauses ++ others) = Clause.treeAll clauses ++ Clause.treeAll others := by
  induction clauses with
  | nil => rfl
  | cons clause clauses ih => simp [Clause.treeAll, ih]

/-- A derivation of a pipeline has tokens. -/
theorem Chain.tokens_ne_nil (chain : Chain) : chain.tokens ≠ [] := by
  obtain ⟨⟨head, arguments⟩, others⟩ := chain
  cases head <;> simp [Chain.tokens, Clause.tokens, Term.tokens]

/-- Atoms with one token are the same. -/
theorem Atom.token_injective {atom other : Atom} (same : atom.token = other.token) :
    atom = other := by
  cases atom <;> cases other <;> simp_all [Atom.token]

/-- The token of an atom opens no group. -/
theorem Atom.token_ne_opening (atom : Atom) : atom.token ≠ .opening := by
  cases atom <;> simp [Atom.token]

/-- A command ends where further commands or the end of the pipeline follow. -/
theorem Clause.endsCommand_tokensAll (clauses : List Clause) {rest : List Token}
    (ends : EndsPipeline rest) : EndsCommand (Clause.tokensAll clauses ++ rest) := by
  cases clauses with
  | nil => exact ends.endsCommand
  | cons clause clauses => simp [Clause.tokensAll, EndsCommand]

mutual

/-- Of two operands at the front of the same tokens, both are the same and end at one place. -/
theorem Term.tokens_unique (term other : Term) {rest more : List Token}
    (same : term.tokens ++ rest = other.tokens ++ more) : term = other ∧ rest = more := by
  match term, other with
  | .atom atom, .atom second =>
    obtain ⟨token, rests⟩ := List.cons.inj same
    exact ⟨congrArg _ (Atom.token_injective token), rests⟩
  | .atom atom, .group chain => exact absurd (List.cons.inj same).1 atom.token_ne_opening
  | .group chain, .atom atom =>
    exact absurd (List.cons.inj same).1.symm atom.token_ne_opening
  | .group chain, .group second =>
    have inner : chain.tokens ++ .closing :: rest = second.tokens ++ .closing :: more := by
      simpa [Term.tokens] using same
    have closed (tokens : List Token) : EndsPipeline (.closing :: tokens) := by
      simp [EndsPipeline]
    obtain ⟨equal, rests⟩ := Chain.tokens_unique chain second inner (closed _) (closed _)
    exact ⟨congrArg _ equal, (List.cons.inj rests).2⟩

/-- Of two lists of operands at the front of the same tokens, where a command ends after each,
both are the same. -/
theorem Term.tokensAll_unique (terms others : List Term) {rest more : List Token}
    (same : Term.tokensAll terms ++ rest = Term.tokensAll others ++ more)
    (ends : EndsCommand rest) (stops : EndsCommand more) : terms = others ∧ rest = more := by
  match terms, others with
  | [], [] => exact ⟨rfl, same⟩
  | [], other :: others =>
    rw [Term.tokensAll, Term.tokensAll, List.nil_append, List.append_assoc] at same
    exact absurd (same ▸ ends) (other.not_endsCommand _)
  | term :: terms, [] =>
    rw [Term.tokensAll, Term.tokensAll, List.nil_append, List.append_assoc] at same
    exact absurd (same ▸ stops) (term.not_endsCommand _)
  | term :: terms, other :: others =>
    rw [Term.tokensAll, Term.tokensAll, List.append_assoc, List.append_assoc] at same
    obtain ⟨rfl, later⟩ := Term.tokens_unique term other same
    obtain ⟨rfl, rests⟩ := Term.tokensAll_unique terms others later ends stops
    exact ⟨rfl, rests⟩

/-- Of two commands at the front of the same tokens, where a command ends after each, both are
the same. -/
theorem Clause.tokens_unique (clause other : Clause) {rest more : List Token}
    (same : clause.tokens ++ rest = other.tokens ++ more)
    (ends : EndsCommand rest) (stops : EndsCommand more) : clause = other ∧ rest = more := by
  match clause, other with
  | .of head arguments, .of first others =>
    rw [Clause.tokens, Clause.tokens, List.append_assoc, List.append_assoc] at same
    obtain ⟨rfl, later⟩ := Term.tokens_unique head first same
    obtain ⟨rfl, rests⟩ := Term.tokensAll_unique arguments others later ends stops
    exact ⟨rfl, rests⟩

/-- Of two lists of commands at the front of the same tokens, where a pipeline ends after each,
both are the same. -/
theorem Clause.tokensAll_unique (clauses others : List Clause) {rest more : List Token}
    (same : Clause.tokensAll clauses ++ rest = Clause.tokensAll others ++ more)
    (ends : EndsPipeline rest) (stops : EndsPipeline more) :
    clauses = others ∧ rest = more := by
  match clauses, others with
  | [], [] => exact ⟨rfl, same⟩
  | [], other :: others =>
    rw [Clause.tokensAll, List.nil_append] at same
    exact nomatch ends .pipe (by rw [same]; rfl)
  | clause :: clauses, [] =>
    rw [Clause.tokensAll, Clause.tokensAll, List.nil_append] at same
    exact nomatch stops .pipe (by rw [← same]; rfl)
  | clause :: clauses, other :: others =>
    have later : clause.tokens ++ (Clause.tokensAll clauses ++ rest) =
        other.tokens ++ (Clause.tokensAll others ++ more) := by
      simpa [Clause.tokensAll] using same
    obtain ⟨rfl, after⟩ := Clause.tokens_unique clause other later
      (Clause.endsCommand_tokensAll clauses ends) (Clause.endsCommand_tokensAll others stops)
    obtain ⟨rfl, rests⟩ := Clause.tokensAll_unique clauses others after ends stops
    exact ⟨rfl, rests⟩

/-- Of two pipelines at the front of the same tokens, where a pipeline ends after each, both are
the same. -/
theorem Chain.tokens_unique (chain other : Chain) {rest more : List Token}
    (same : chain.tokens ++ rest = other.tokens ++ more)
    (ends : EndsPipeline rest) (stops : EndsPipeline more) :
    chain = other ∧ rest = more := by
  match chain, other with
  | .of first clauses, .of second others =>
    rw [Chain.tokens, Chain.tokens, List.append_assoc, List.append_assoc] at same
    obtain ⟨rfl, after⟩ := Clause.tokens_unique first second same
      (Clause.endsCommand_tokensAll clauses ends) (Clause.endsCommand_tokensAll others stops)
    obtain ⟨rfl, rests⟩ := Clause.tokensAll_unique clauses others after ends stops
    exact ⟨rfl, rests⟩

end

/-- A pipeline is determined by its tokens. -/
theorem Chain.tokens_injective {chain other : Chain}
    (same : chain.tokens = other.tokens) : chain = other := by
  have ends : EndsPipeline [] := by simp [EndsPipeline]
  have whole : chain.tokens ++ [] = other.tokens ++ [] := congrArg (· ++ []) same
  exact (Chain.tokens_unique chain other whole ends ends).1

/-- A pipeline is determined by the action that it starts a block or a branch with. -/
theorem opening_injective {words : List String} {chain other : Chain}
    (same : opening words chain = opening words other) : chain = other := by
  have tokens : words.map Token.word ++ chain.tokens = words.map Token.word ++ other.tokens :=
    Segment.action.inj same
  exact Chain.tokens_injective (List.append_cancel_left tokens)

end Tokens

section Segments

/-- Neither a further branch nor an item starts at the front of the segments. -/
def EndsBranches (rest : List Segment) : Prop :=
  ∀ segment ∈ rest.head?, segment = otherwiseAction ∨ ∃ ending, segment = endAction ending

/-- No item starts at the front of the segments, but an action that continues or ends a block. -/
def EndsItems (rest : List Segment) : Prop :=
  ∀ segment ∈ rest.head?, ∃ tokens,
    segment = .action (.word "else" :: tokens) ∨ segment = endAction tokens

/-- Segments that end the branches of a conditional end the items of the last one. -/
theorem EndsBranches.endsItems {rest : List Segment} (ends : EndsBranches rest) :
    EndsItems rest := by
  intro segment member
  rcases ends segment member with last | ⟨ending, last⟩
  · exact ⟨[], .inl last⟩
  · exact ⟨ending, .inr last⟩

/-- Branches end where the last part of the block or its end follows. -/
theorem Otherwise.endsBranches (otherwise : Otherwise) (ending : List Token)
    (rest : List Segment) :
    EndsBranches (otherwise.segments ++ endAction ending :: rest) := by
  cases otherwise with
  | absent =>
    rintro segment ⟨⟩
    exact .inr ⟨ending, rfl⟩
  | present items =>
    rintro segment ⟨⟩
    exact .inl rfl

/-- Items end where further branches follow, or what ends the branches. -/
theorem Arm.endsItems (arms : List Arm) {rest : List Segment}
    (ends : EndsBranches rest) : EndsItems (Arm.segmentsAll arms ++ rest) := by
  cases arms with
  | nil => exact ends.endsItems
  | cons arm arms =>
    obtain ⟨condition, body⟩ := arm
    simp [Arm.segmentsAll, EndsItems, opening]

/-- A further branch does not start with a segment that ends the branches. -/
theorem Arm.not_endsBranches (condition : Chain) (rest : List Segment) :
    ¬ EndsBranches (opening ["else", "if"] condition :: rest) := by
  simp [EndsBranches, opening, otherwiseAction, endAction]

/-- The keyword that a segment starts with, if it does. -/
def keyword? : Segment → Option String
  | .action (.word name :: _) => if name ∈ keywords then some name else none
  | _ => none

/-- Blocks that start with one word are of one kind. -/
theorem Scope.word_injective {scope other : Scope} (same : scope.word = other.word) :
    scope = other := by
  cases scope <;> cases other <;> simp_all [Scope.word]

/-- The keyword of a block. -/
def Item.keyword : Item → Option String
  | .text _ => none
  | .output _ _ => none
  | .conditional _ _ _ _ _ => some "if"
  | .block scope _ _ _ _ => some scope.word

/-- The keyword of an item, if there is one, starts a block. -/
theorem Item.keyword_mem (item : Item) :
    item.keyword ∈ [none, some "if", some "range", some "with"] := by
  cases item with
  | block scope => cases scope <;> simp [Item.keyword, Scope.word]
  | _ => simp [Item.keyword]

/-- An action whose tokens do not start with a keyword has none. -/
theorem keyword?_of_startsPlain {tokens : List Token} (plain : StartsPlain tokens) :
    keyword? (.action tokens) = none := by
  unfold StartsPlain at plain
  unfold keyword?
  split
  · rename_i name rest same
    obtain rfl := Segment.action.inj same
    exact if_neg plain
  · rfl

/-- The first segment of an item starts with the keyword of the item. -/
theorem Item.exists_segments_eq (item : Item) :
    ∃ first rest, item.segments = first :: rest ∧ keyword? first = item.keyword := by
  cases item with
  | text content => exact ⟨_, _, rfl, rfl⟩
  | output chain plain => exact ⟨_, _, rfl, keyword?_of_startsPlain plain⟩
  | conditional => exact ⟨_, _, rfl, rfl⟩
  | block scope value body otherwise ending => cases scope <;> exact ⟨_, _, rfl, rfl⟩

/-- Items at the front of the same segments have one keyword. -/
theorem Item.keyword_eq {item other : Item} {rest more : List Segment}
    (same : item.segments ++ rest = other.segments ++ more) : item.keyword = other.keyword := by
  obtain ⟨first, tail, begins, keyword⟩ := item.exists_segments_eq
  obtain ⟨second, tail', starts, keyword'⟩ := other.exists_segments_eq
  rw [begins, starts] at same
  rw [← keyword, ← keyword', (List.cons.inj same).1]

/-- An item does not start with a segment that ends a list of items. -/
theorem Item.not_endsItems (item : Item) (rest : List Segment) :
    ¬ EndsItems (item.segments ++ rest) := by
  intro ends
  have opens := item.keyword_mem
  obtain ⟨first, tail, begins, keyword⟩ := item.exists_segments_eq
  rw [begins] at ends
  obtain ⟨tokens, last | last⟩ := ends first rfl
  · have found : some "else" = item.keyword := by rw [← keyword, last]; rfl
    rw [← found] at opens
    simp at opens
  · have found : some "end" = item.keyword := by rw [← keyword, last]; rfl
    rw [← found] at opens
    simp at opens

mutual

/-- Of two items at the front of the same segments, both are the same and end at one place. -/
theorem Item.segments_unique (item other : Item) {rest more : List Segment}
    (same : item.segments ++ rest = other.segments ++ more) : item = other ∧ rest = more := by
  have keywords := Item.keyword_eq same
  match item with
  | .text content =>
    cases other with
    | text second =>
      obtain ⟨text, rests⟩ := List.cons.inj same
      exact ⟨congrArg _ (Segment.text.inj text), rests⟩
    | output chain plain => exact nomatch (List.cons.inj same).1
    | _ => simp [Item.keyword] at keywords
  | .output chain plain =>
    cases other with
    | text content => exact nomatch (List.cons.inj same).1
    | output second other =>
      obtain ⟨action, rests⟩ := List.cons.inj same
      obtain rfl := Chain.tokens_injective (Segment.action.inj action)
      exact ⟨rfl, rests⟩
    | _ => simp [Item.keyword] at keywords
  | .conditional condition body others otherwise ending =>
    cases other with
    | conditional guard items arms last closing =>
      obtain ⟨first, later⟩ := List.cons.inj same
      obtain rfl := opening_injective first
      simp only [List.append_eq, List.append_assoc, List.singleton_append] at later
      obtain ⟨rfl, next⟩ := Item.segmentsAll_unique body items later
        (Arm.endsItems others (otherwise.endsBranches _ _))
        (Arm.endsItems arms (last.endsBranches _ _))
      obtain ⟨rfl, parts⟩ := Arm.segmentsAll_unique others arms next
        (otherwise.endsBranches _ _) (last.endsBranches _ _)
      obtain ⟨rfl, rfl, rests⟩ := Otherwise.segments_unique otherwise last parts
      exact ⟨rfl, rests⟩
    | block scope => cases scope <;> simp [Item.keyword, Scope.word] at keywords
    | _ => simp [Item.keyword] at keywords
  | .block scope value body otherwise ending =>
    cases other with
    | block kind second items last closing =>
      obtain ⟨first, later⟩ := List.cons.inj same
      obtain rfl := Scope.word_injective (Option.some.inj keywords)
      obtain rfl := opening_injective first
      simp only [List.append_eq, List.append_assoc, List.singleton_append] at later
      obtain ⟨rfl, parts⟩ := Item.segmentsAll_unique body items later
        (otherwise.endsBranches _ _).endsItems (last.endsBranches _ _).endsItems
      obtain ⟨rfl, rfl, rests⟩ := Otherwise.segments_unique otherwise last parts
      exact ⟨rfl, rests⟩
    | conditional => cases scope <;> simp [Item.keyword, Scope.word] at keywords
    | _ => simp [Item.keyword] at keywords

/-- Of two lists of items at the front of the same segments, where items end after each, both are
the same. -/
theorem Item.segmentsAll_unique (items others : List Item) {rest more : List Segment}
    (same : Item.segmentsAll items ++ rest = Item.segmentsAll others ++ more)
    (ends : EndsItems rest) (stops : EndsItems more) : items = others ∧ rest = more := by
  match items, others with
  | [], [] => exact ⟨rfl, same⟩
  | [], other :: others =>
    rw [Item.segmentsAll, Item.segmentsAll, List.nil_append, List.append_assoc] at same
    exact absurd (same ▸ ends) (other.not_endsItems _)
  | item :: items, [] =>
    rw [Item.segmentsAll, Item.segmentsAll, List.nil_append, List.append_assoc] at same
    exact absurd (same ▸ stops) (item.not_endsItems _)
  | item :: items, other :: others =>
    rw [Item.segmentsAll, Item.segmentsAll, List.append_assoc, List.append_assoc] at same
    obtain ⟨rfl, later⟩ := Item.segments_unique item other same
    obtain ⟨rfl, rests⟩ := Item.segmentsAll_unique items others later ends stops
    exact ⟨rfl, rests⟩

/-- Of two lists of branches at the front of the same segments, where branches end after each,
both are the same. -/
theorem Arm.segmentsAll_unique (arms others : List Arm) {rest more : List Segment}
    (same : Arm.segmentsAll arms ++ rest = Arm.segmentsAll others ++ more)
    (ends : EndsBranches rest) (stops : EndsBranches more) :
    arms = others ∧ rest = more := by
  match arms, others with
  | [], [] => exact ⟨rfl, same⟩
  | [], .of condition body :: others =>
    rw [Arm.segmentsAll, List.nil_append] at same
    exact absurd (same ▸ ends) (Arm.not_endsBranches condition _)
  | .of condition body :: arms, [] =>
    rw [Arm.segmentsAll, Arm.segmentsAll, List.nil_append] at same
    exact absurd (same ▸ stops) (Arm.not_endsBranches condition _)
  | .of condition body :: arms, .of guard items :: others =>
    obtain ⟨first, later⟩ := List.cons.inj same
    obtain rfl := opening_injective first
    simp only [List.append_eq, List.append_assoc] at later
    obtain ⟨rfl, next⟩ := Item.segmentsAll_unique body items later
      (Arm.endsItems arms ends) (Arm.endsItems others stops)
    obtain ⟨rfl, rests⟩ := Arm.segmentsAll_unique arms others next ends stops
    exact ⟨rfl, rests⟩

/-- Of two last parts of a block with its end, at the front of the same segments, both are the
same. -/
theorem Otherwise.segments_unique (otherwise other : Otherwise) {ending closing : List Token}
    {rest more : List Segment}
    (same : otherwise.segments ++ endAction ending :: rest =
      other.segments ++ endAction closing :: more) :
    otherwise = other ∧ ending = closing ∧ rest = more := by
  match otherwise, other with
  | .absent, .absent =>
    obtain ⟨action, rests⟩ := List.cons.inj same
    exact ⟨rfl, (List.cons.inj (Segment.action.inj action)).2, rests⟩
  | .absent, .present items => simp [Otherwise.segments, endAction, otherwiseAction] at same
  | .present items, .absent => simp [Otherwise.segments, endAction, otherwiseAction] at same
  | .present items, .present others =>
    obtain ⟨-, later⟩ := List.cons.inj same
    have stops (ending : List Token) (rest : List Segment) :
        EndsItems (endAction ending :: rest) := by
      rintro segment ⟨⟩
      exact ⟨ending, .inr rfl⟩
    obtain ⟨rfl, last⟩ := Item.segmentsAll_unique items others later (stops _ _) (stops _ _)
    obtain ⟨action, rests⟩ := List.cons.inj last
    exact ⟨rfl, (List.cons.inj (Segment.action.inj action)).2, rests⟩

end

/-- A list of items is determined by the segments that it is derived to. -/
theorem Item.segmentsAll_injective {items others : List Item}
    (same : Item.segmentsAll items = Item.segmentsAll others) : items = others := by
  have ends : EndsItems [] := by simp [EndsItems]
  have whole : Item.segmentsAll items ++ [] = Item.segmentsAll others ++ [] :=
    congrArg (· ++ []) same
  exact (Item.segmentsAll_unique items others whole ends ends).1

end Segments

end ComponentPages.Template.Grammar
