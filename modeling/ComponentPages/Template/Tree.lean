import ComponentPages.Value

/-!
# Trees of a template

What a parsed template consists of. A pipeline is a first command and the commands that its
value is piped through; a command is an operand and its arguments. A node is text, an action
that writes the value of a pipeline, or a block. A conditional has a first branch and the
branches after it, so it is never without one.
-/
namespace ComponentPages.Template

mutual

/-- A part of a command. -/
inductive Operand where
  /-- A path into the current value. -/
  | dot (path : List String)
  /-- A path into the data of the template. -/
  | root (path : List String)
  /-- A function, called without arguments unless it heads its command. -/
  | call (name : String)
  | literal (value : Value)
  | group (pipeline : Pipeline)

/-- An operand and its arguments. -/
inductive Command where
  | of (head : Operand) (arguments : List Operand)

/-- A command and the commands after it, each given the value before it. -/
inductive Pipeline where
  | of (first : Command) (others : List Command)

end

mutual

/-- A part of a template. -/
inductive Node where
  | text (content : String)
  | output (pipeline : Pipeline)
  | conditional (first : Branch) (others : List Branch) (otherwise : List Node)
  | range (source : Pipeline) (body otherwise : List Node)
  | within (value : Pipeline) (body otherwise : List Node)

/-- A condition and what is taken when it is the first that holds. -/
inductive Branch where
  | of (condition : Pipeline) (body : List Node)

end

/-- The pipeline of commands that end with the given one. -/
def Pipeline.ofCommands : List Command → Command → Pipeline
  | [], last => .of last []
  | first :: others, last => .of first (others ++ [last])

end ComponentPages.Template
