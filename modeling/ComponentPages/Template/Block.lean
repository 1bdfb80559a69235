import ComponentPages.Template.Pipeline
import ComponentPages.Template.Segment

/-!
# Blocks of a template

The nodes that the segments of a template stand for. The segments are read one by one with a
stack of the blocks that are open; a segment adds a node to the innermost one, opens a block,
goes on to another part of one, or ends one. Reading is a fold of `Reading.step`, so that
what is read of a template depends on what comes before it only through the open blocks.
-/
namespace ComponentPages.Template

/-- What an action says. -/
inductive Action where
  | output (pipeline : Pipeline)
  | openIf (condition : Pipeline)
  | openRange (source : Pipeline)
  | openWith (value : Pipeline)
  | elseIf (condition : Pipeline)
  | elseOnly
  | endBlock

/-- What the tokens after `else` say. -/
def Action.ofElse : List Token → Except ParseFault Action
  | [] => .ok .elseOnly
  | .word name :: rest =>
    if name = "if" then (Pipeline.ofTokens rest).map .elseIf else .error .tokensAfterElse
  | _ => .error .tokensAfterElse

/-- What the tokens of an action say; the first one tells the kind. What follows `end` says
nothing. -/
def Action.ofTokens (tokens : List Token) : Except ParseFault Action :=
  match tokens with
  | .word name :: rest =>
    if name = "end" then .ok .endBlock
    else if name = "else" then Action.ofElse rest
    else if name = "if" then (Pipeline.ofTokens rest).map .openIf
    else if name = "range" then (Pipeline.ofTokens rest).map .openRange
    else if name = "with" then (Pipeline.ofTokens rest).map .openWith
    else (Pipeline.ofTokens tokens).map .output
  | _ => (Pipeline.ofTokens tokens).map .output

/-- A block whose end has not been read, with the parts of it that have been read. -/
inductive OpenBlock where
  /-- In the branch of the condition, after the given branches. -/
  | branch (before : List Branch) (condition : Pipeline)
  /-- After the last branch. -/
  | otherwise (first : Branch) (others : List Branch)
  | range (source : Pipeline)
  | rangeOtherwise (source : Pipeline) (body : List Node)
  | within (value : Pipeline)
  | withinOtherwise (value : Pipeline) (body : List Node)

/-- The conditional of branches that end with the given one. -/
def Node.ofBranches : List Branch → Branch → List Node → Node
  | [], last, otherwise => .conditional last [] otherwise
  | first :: others, last, otherwise => .conditional first (others ++ [last]) otherwise

/-- The node of a block that ends, where the nodes are those of its last part. -/
def OpenBlock.close (nodes : List Node) : OpenBlock → Node
  | .branch before condition => .ofBranches before (.of condition nodes) []
  | .otherwise first others => .conditional first others nodes
  | .range source => .range source nodes []
  | .rangeOtherwise source body => .range source body nodes
  | .within value => .within value nodes []
  | .withinOtherwise value body => .within value body nodes

/-- The block after its `else`, where the nodes are those of the part before. -/
def OpenBlock.toElse (nodes : List Node) : OpenBlock → Except ParseFault OpenBlock
  | .branch [] condition => .ok (.otherwise (.of condition nodes) [])
  | .branch (first :: others) condition =>
    .ok (.otherwise first (others ++ [.of condition nodes]))
  | .range source => .ok (.rangeOtherwise source nodes)
  | .within value => .ok (.withinOtherwise value nodes)
  | .otherwise _ _ => .error .unexpectedElse
  | .rangeOtherwise _ _ => .error .unexpectedElse
  | .withinOtherwise _ _ => .error .unexpectedElse

/-- The block after an `else if`, where the nodes are those of the part before. -/
def OpenBlock.toElseIf (nodes : List Node) (condition : Pipeline) :
    OpenBlock → Except ParseFault OpenBlock
  | .branch before guard => .ok (.branch (before ++ [.of guard nodes]) condition)
  | .range _ => .error .elseIfOutsideIf
  | .within _ => .error .elseIfOutsideIf
  | .otherwise _ _ => .error .unexpectedElse
  | .rangeOtherwise _ _ => .error .unexpectedElse
  | .withinOtherwise _ _ => .error .unexpectedElse

/-- How far a template has been read: the nodes of the innermost open block, and the open
blocks from the innermost outwards, each with the nodes before it. -/
structure Reading where
  nodes : List Node
  blocks : List (OpenBlock × List Node)

namespace Reading

/-- Adds a node. -/
def add (reading : Reading) (node : Node) : Reading :=
  { reading with nodes := reading.nodes ++ [node] }

/-- Opens a block. -/
def enter (reading : Reading) (block : OpenBlock) : Reading :=
  ⟨[], (block, reading.nodes) :: reading.blocks⟩

/-- Goes on after an action. -/
def act (reading : Reading) : Action → Except ParseFault Reading
  | .output pipeline => .ok (reading.add (.output pipeline))
  | .openIf condition => .ok (reading.enter (.branch [] condition))
  | .openRange source => .ok (reading.enter (.range source))
  | .openWith value => .ok (reading.enter (.within value))
  | .elseIf condition =>
    match reading.blocks with
    | [] => .error .unexpectedElse
    | (block, before) :: outer =>
      (block.toElseIf reading.nodes condition).map fun block => ⟨[], (block, before) :: outer⟩
  | .elseOnly =>
    match reading.blocks with
    | [] => .error .unexpectedElse
    | (block, before) :: outer =>
      (block.toElse reading.nodes).map fun block => ⟨[], (block, before) :: outer⟩
  | .endBlock =>
    match reading.blocks with
    | [] => .error .unexpectedEnd
    | (block, before) :: outer => .ok ⟨before ++ [block.close reading.nodes], outer⟩

/-- Goes on after a segment. -/
def step (reading : Reading) : Segment → Except ParseFault Reading
  | .text content => .ok (reading.add (.text content))
  | .action tokens => do reading.act (← Action.ofTokens tokens)

/-- The nodes of a template that has been read to its end. -/
def finish (reading : Reading) : Except ParseFault (List Node) :=
  match reading.blocks with
  | [] => .ok reading.nodes
  | _ :: _ => .error .missingEnd

end Reading

/-- The nodes that segments stand for. -/
def Node.ofSegments (segments : List Segment) : Except ParseFault (List Node) := do
  (← segments.foldlM Reading.step ⟨[], []⟩).finish

end ComponentPages.Template
