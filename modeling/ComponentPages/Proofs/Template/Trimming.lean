import ComponentPages.Proofs.Template.Comments
import Mathlib

/-!
# Texts between actions

What a template writes that is made of texts with actions between them, each an output or a comment,
and each with or without a mark on either side: the outputs of its actions between its texts, where a
text has lost the blanks at its front exactly if the action before it has the mark for the text after
it, and the blanks at its end exactly if the action after it has the mark for the text before it
(`execute_writeAll`). The marks are read off the action that they stand in, so that one induction over
the actions, with the mark of the action before, tells all of their combinations.
-/
namespace ComponentPages.Template

open Text

/-- What stands in an action that opens no block. -/
inductive Content where
  | output (text : String) (pipeline : Pipeline)
  | comment (text : String)

namespace Content

/-- The text of an action with the content. -/
def text : Content → List Char
  | output text _ => text.toList
  | comment text => commentText text.toList

/-- The text of an output stands for its pipeline, and a comment ends no action. -/
def Legible : Content → Prop
  | output text pipeline => Outputs text.toList pipeline
  | comment text => Inert text.toList

/-- The nodes of the content. -/
def nodes : Content → List Node
  | output _ pipeline => [.output pipeline]
  | comment _ => []

/-- What the content writes: the value of a pipeline, and nothing for a comment. -/
def evaluate {σ : Type} (setting : Setting σ) (dot : Value) : Content → Eval σ String
  | output _ pipeline => written <$> pipeline.evaluate setting dot
  | comment _ => pure ""

variable {content : Content}

/-- A legible content is the text of an action. -/
theorem Legible.body (legible : content.Legible) : Body content.text := by
  cases content with
  | output text pipeline => exact Outputs.body legible
  | comment text => exact Inert.body legible

/-- The nodes of the segments of a legible content, in front of others. -/
theorem Legible.exists_segments (legible : content.Legible) :
    ∃ here, actionSegment (trim content.text) = .ok here ∧
      Node.ofSegments here = .ok content.nodes := by
  cases content with
  | output text pipeline =>
    obtain ⟨tokens, read, said⟩ := legible
    exact ⟨_, actionSegment_of_tokenize read, ofSegments_output said []⟩
  | comment text => exact ⟨[], actionSegment_commentText _, rfl⟩

/-- The nodes of a content write what the content writes. -/
theorem evaluateAll_nodes {σ : Type} (setting : Setting σ) (dot : Value) (content : Content) :
    Node.evaluateAll setting dot content.nodes = content.evaluate setting dot := by
  cases content with
  | output text pipeline => exact evaluateAll_output setting dot pipeline
  | comment text => rfl

end Content

/-- An action with the marks that it is written with. -/
structure Inset where
  content : Content
  /-- Whether it has the mark for the text before it. -/
  before : Bool
  /-- Whether it has the mark for the text after it. -/
  after : Bool

/-- The text of an action between its braces. -/
def Inset.write (inset : Inset) : List Char :=
  '{' :: '{' :: (marked inset.before inset.after inset.content.text ++ ['\x7d', '\x7d'])

/-- A text, and actions with a text after each. -/
def writeAll (first : List Char) : List (Inset × List Char) → List Char
  | [] => first
  | (inset, text) :: others => first ++ inset.write ++ writeAll text others

/-- Of a text are kept all of its characters but the blanks at its front, if it is to lose these, and
the blanks at its end, if it is to lose these. -/
theorem keptBetween_exact (trimming before : Bool) (text : List Char) :
    ∃ front back, text = front ++ keptBetween trimming before text ++ back ∧
      (∀ c ∈ front, isBlank c = true) ∧ (∀ c ∈ back, isBlank c = true) ∧
      (trimming = false → front = []) ∧ (before = false → back = []) ∧
      (trimming = true → ∀ c ∈ (keptBetween trimming before text).head?, isBlank c = false) ∧
      (before = true → ∀ c ∈ (keptBetween trimming before text).getLast?, isBlank c = false) := by
  have unblank (text : List Char) : ∀ c ∈ (trimStart text).head?, isBlank c = false := by
    intro c first
    obtain ⟨rest, starts⟩ := List.head?_eq_some_iff.1 first
    exact trimStart_eq_cons starts
  obtain ⟨front, whole, blank, kept, bare⟩ : ∃ front, text = front ++ keptAfter trimming text ∧
      (∀ c ∈ front, isBlank c = true) ∧ (trimming = false → front = []) ∧
      (trimming = true → ∀ c ∈ (keptAfter trimming text).head?, isBlank c = false) := by
    cases trimming with
    | false => exact ⟨[], rfl, nofun, fun _ => rfl, nofun⟩
    | true =>
      exact ⟨text.takeWhile isBlank, List.takeWhile_append_dropWhile.symm,
        List.all_eq_true.1 List.all_takeWhile, nofun, fun _ => unblank text⟩
  cases before with
  | false => exact ⟨front, [], by simpa [keptBetween] using whole, blank, nofun, kept,
      fun _ => rfl, bare, nofun⟩
  | true =>
    obtain ⟨back, same, blanks⟩ := eq_trimEnd_append (keptAfter trimming text)
    refine ⟨front, back, ?_, blank, blanks, kept, nofun, fun here c first => ?_, fun _ c last => ?_⟩
    · rw [List.append_assoc, keptBetween, if_pos rfl, ← same, ← whole]
    · refine bare here c ?_
      rw [same]
      exact List.mem_head?_append_of_mem_head? first
    · refine unblank (keptAfter trimming text).reverse c ?_
      rwa [← List.getLast?_reverse]

/-- The texts as they are kept, where the flag says whether the first one loses the blanks at its
front. -/
def keptTexts (trimming : Bool) (first : List Char) : List (Inset × List Char) → List (List Char)
  | [] => [keptBetween trimming false first]
  | (inset, text) :: others =>
    keptBetween trimming inset.before first :: keptTexts inset.after text others

/-- Texts with an output between each and the next. -/
def weave : List (List Char) → List String → String
  | text :: texts, output :: outputs => String.ofList text ++ output ++ weave texts outputs
  | texts, _ => String.ofList texts.flatten

/-- Texts that start no action: none has a doubled brace, and none ends with one in front of an
action. -/
def Plain (first : List Char) : List (Inset × List Char) → Prop
  | [] => ¬ ['{', '{'] <:+: first
  | (_, text) :: others =>
    ¬ ['{', '{'] <:+: first ∧ first.getLast? ≠ some '{' ∧ Plain text others

section Reading

/-- The segments of a source without the start of an action are its text as it is kept. -/
theorem readSegments_kept {source : List Char} (free : ¬ ['{', '{'] <:+: source)
    (trimming : Bool) :
    readSegments trimming source = .ok (textSegment (keptBetween trimming false source)) := by
  rw [readSegments_eq, cut_eq_none free]
  rfl

/-- Texts and actions between them are read as nodes that write the outputs of the actions between
the texts as they are kept, also behind an action that trims the first text. -/
theorem exists_nodes_writeAll {first : List Char} {rest : List (Inset × List Char)}
    (plain : Plain first rest) (legible : ∀ part ∈ rest, part.1.content.Legible)
    (trimming : Bool) :
    ∃ parts nodes, readSegments trimming (writeAll first rest) = .ok parts ∧
      Node.ofSegments parts = .ok nodes ∧
      ∀ {σ : Type} (setting : Setting σ) (dot : Value), Node.evaluateAll setting dot nodes =
        weave (keptTexts trimming first rest) <$>
          rest.mapM fun part => part.1.content.evaluate setting dot := by
  induction rest generalizing first trimming with
  | nil =>
    refine ⟨_, textNodes (keptBetween trimming false first), readSegments_kept plain trimming, ?_,
      fun setting dot => ?_⟩
    · have alone := ofSegments_textSegment_append (keptBetween trimming false first) []
      rw [List.append_nil] at alone
      rw [alone]
      exact congrArg Except.ok (List.append_nil _)
    · rw [evaluateAll_textNodes]
      simp [keptTexts, weave]
  | cons part rest ih =>
    obtain ⟨inset, text⟩ := part
    obtain ⟨free, apart, later⟩ := plain
    obtain ⟨here, following⟩ := List.forall_mem_cons.1 legible
    obtain ⟨parts, nodes, read, made, writes⟩ := ih later following inset.after
    obtain ⟨segments, acted, stands⟩ := Content.Legible.exists_segments here
    have source : writeAll first ((inset, text) :: rest) =
        first ++ '{' :: '{' :: (marked inset.before inset.after inset.content.text ++
          '\x7d' :: '\x7d' :: writeAll text rest) := by
      simp [writeAll, Inset.write]
    refine ⟨textSegment (keptBetween trimming inset.before first) ++ (segments ++ parts),
      textNodes (keptBetween trimming inset.before first) ++ (inset.content.nodes ++ nodes),
      ?_, ?_, fun setting dot => ?_⟩
    · rw [source, here.body.readSegments_marked inset.before inset.after free apart, acted, read]
      rfl
    · rw [ofSegments_textSegment_append, ofSegments_append stands, made]
      rfl
    · simp only [evaluateAll_append, evaluateAll_textNodes, Content.evaluateAll_nodes, writes,
        List.mapM_cons, map_eq_pure_bind, bind_assoc, pure_bind, keptTexts, weave,
        String.append_assoc]

end Reading

/-- A template of texts with actions between them parses, and writes the outputs of its actions in
order, between its texts as they are kept: without the blanks at the front behind a mark, without
those at the end in front of one, and otherwise as they are. -/
theorem execute_writeAll {first : List Char} {rest : List (Inset × List Char)}
    (plain : Plain first rest) (legible : ∀ part ∈ rest, part.1.content.Legible) (name : String) :
    ∃ template : Template, parse name (String.ofList (writeAll first rest)) = .ok template ∧
      ∀ {σ : Type} (data : Value) (host : Host σ), template.execute data host =
        weave (keptTexts false first rest) <$>
          rest.mapM fun part => part.1.content.evaluate ⟨name, data, host⟩ data := by
  obtain ⟨parts, nodes, read, made, writes⟩ := exists_nodes_writeAll plain legible false
  rw [← String.toList_ofList (l := writeAll first rest)] at read
  exact ⟨⟨name, nodes⟩, parse_of_readSegments read made name, fun data host => writes _ data⟩

/-- A pipeline that looks a name up. -/
def namePipeline : Pipeline := .of (.of (.dot ["name"]) []) []

/-- A pipeline with a text that looks like a mark and the end of an action. -/
def markPipeline : Pipeline :=
  .of (.of (.call "print") [.literal (.str " -\x7d\x7d")]) [.of (.call "len") []]

/-- A name, a comment and a size, with marks on one side, on both and on none. -/
def noteParts : List (Inset × List Char) := [
  (⟨.output ".name" namePipeline, true, false⟩, "\t,\n ".toList),
  (⟨.comment " the \"\x7d\x7d\" of it ", true, true⟩, " \n".toList),
  (⟨.output " print \" -\x7d\x7d\" | len" markPipeline, false, false⟩, " \x7b".toList)]

/-- The text before the name and the one in front of the comment lose the blanks at their ends, and
nothing is left of the one behind the comment. -/
theorem execute_writeAll_note :
    ∃ template : Template,
      parse "note" ("To \x7b \x7b\x7b- .name\x7d\x7d\t,\n \x7b\x7b- /* the \"\x7d\x7d\" of it */ -\x7d\x7d \n" ++
        "\x7b\x7b print \" -\x7d\x7d\" | len\x7d\x7d \x7b") = .ok template ∧
      ∀ {σ : Type} (data : Value) (host : Host σ), template.execute data host =
        weave ["To \x7b".toList, "\t,".toList, [], " \x7b".toList] <$>
          noteParts.mapM fun part => part.1.content.evaluate ⟨"note", data, host⟩ data := by
  have plain : Plain "To \x7b ".toList noteParts := by
    simp only [Plain, noteParts]
    decide
  have legible : ∀ part ∈ noteParts, part.1.content.Legible := by
    have name : Outputs ".name".toList namePipeline := ⟨_, by cbv, by cbv⟩
    have comment : Inert " the \"\x7d\x7d\" of it ".toList := by decide
    have mark : Outputs " print \" -\x7d\x7d\" | len".toList markPipeline := ⟨_, by cbv, by cbv⟩
    exact List.forall_mem_cons.2 ⟨name, List.forall_mem_cons.2 ⟨comment,
      List.forall_mem_singleton.2 mark⟩⟩
  obtain ⟨template, parsed, writes⟩ := execute_writeAll plain legible "note"
  refine ⟨template, ?_, fun data host => ?_⟩
  · rw [← parsed]
    rfl
  · rw [writes]
    rfl

end ComponentPages.Template
