import ComponentPages.Proofs.Render.Fragment
import ComponentPages.Value.Read

/-!
# Escaping across composition

The output of a render is made of pieces, each of which is a text of a template that the render
executes or escaped text (`output_composed`). This is so whatever way a value takes through
invocations, arguments, maps and functions: all trusted markup that a value contains is output
of an invocation, which is made of such pieces itself. So markup on a page comes from texts of
components alone, never from data or from a literal.
-/
namespace ComponentPages

open Template Comparison

/-- An output that is made of texts of a kind and of escaped text, one after the other. Escaped
text holds no character of markup. -/
def Composed (isText : String → Prop) (output : String) : Prop :=
  ∃ pieces, output = String.join pieces ∧ ∀ piece ∈ pieces,
    isText piece ∨ (∃ text, piece = escape text) ∧ ∀ c ∈ piece.toList, isMarkup c = false

variable {isText : String → Prop}

/-- No output is made of no pieces. -/
theorem composed_empty : Composed isText "" := ⟨[], rfl, fun _ member => nomatch member⟩

/-- A text is a piece. -/
theorem composed_text {text : String} (here : isText text) : Composed isText text := by
  refine ⟨[text], by simp, fun piece member => ?_⟩
  obtain rfl := List.mem_singleton.1 member
  exact .inl here

/-- Escaped text is a piece. -/
theorem composed_escape (text : String) : Composed isText (escape text) := by
  refine ⟨[escape text], by simp, fun piece member => ?_⟩
  obtain rfl := List.mem_singleton.1 member
  exact .inr ⟨⟨text, rfl⟩, escape_safe text⟩

/-- The pieces of two outputs are those of both together. -/
theorem composed_append {output others : String} (first : Composed isText output)
    (second : Composed isText others) : Composed isText (output ++ others) := by
  obtain ⟨pieces, rfl, each⟩ := first
  obtain ⟨rest, rfl, eachRest⟩ := second
  refine ⟨pieces ++ rest, by rw [String.join_append], fun piece member => ?_⟩
  rcases List.mem_append.1 member with member | member
  · exact each piece member
  · exact eachRest piece member

/-- The kind of the texts may be widened. -/
theorem Composed.mono {wider : String → Prop} (widens : ∀ text, isText text → wider text)
    {output : String} (composed : Composed isText output) : Composed wider output := by
  obtain ⟨pieces, rfl, each⟩ := composed
  exact ⟨pieces, rfl, fun piece member => (each piece member).imp_left (widens piece)⟩

namespace Registry

/-- A render of the component that a reference stands for executes a component: that one, or
one whose invocation has begun. -/
def Executes (registry : Registry) (reference : String) (begun : List Invocation)
    (executed : Registered) : Prop :=
  registry.entry? reference = some executed ∨
    ∃ invocation ∈ begun, registry.entry? invocation.frame.name = some executed

/-- A piece is a text of the parsed markup of a component that a render executes. -/
def TextOf (registry : Registry) (reference : String) (begun : List Invocation)
    (piece : String) : Prop :=
  ∃ executed, registry.Executes reference begun executed ∧
    Template.parse executed.component.name executed.component.markup = .ok executed.template ∧
    piece ∈ executed.template.texts

variable {registry : Registry}

/-- A text goes on to be one of a component that is executed. -/
theorem TextOf.later {reference piece : String} {trace last : List Invocation}
    (later : trace <+: last) (ofText : registry.TextOf reference trace piece) :
    registry.TextOf reference last piece := by
  obtain ⟨executed, executes, parsed, text⟩ := ofText
  refine ⟨executed, executes.imp_right ?_, parsed, text⟩
  rintro ⟨invocation, member, found⟩
  exact ⟨invocation, later.subset member, found⟩

/-- With nothing but the default helpers, the output that is made of texts of the components
executed and of escaped text may be trusted. -/
def composedTrust (formed : registry.WellFormed) (standard : registry.helpers = Helper.defaults)
    (reference : String) : Trust registry where
  Trusted trace := Composed (registry.TextOf reference trace)
  trusted_later later _ := Composed.mono fun _ => TextOf.later later
  trusted_empty _ := composed_empty
  trusted_append := composed_append
  trusted_escape _ := composed_escape
  trusted_text member found _ inside := composed_text
    ⟨_, .inr ⟨_, member, found⟩, (formed.entry found).2, inside⟩
  trusted_literal found value member :=
    (literals_plain (formed.entry found).2 value member).holds
  trusted_helper _ answers := (callHelper_plain standard answers).holds

/-- What a component writes for plain data in a session of its own is made of texts of the
components executed and of escaped text. -/
theorem composed_execute (formed : registry.WellFormed)
    (standard : registry.helpers = Helper.defaults) {reference : String} {entry : Registered}
    (found : registry.entry? reference = some entry) {data : Value} (plain : data.Plain)
    (usage : Usage) {html : String} {last : Session}
    (executed : (entry.template.execute data registry.host).run ⟨[], usage, []⟩ =
      (.ok html, last)) :
    Composed (registry.TextOf reference last.begun) html := by
  let start : Session := ⟨[], usage, []⟩
  let trust := composedTrust formed standard reference
  have parsed := (formed.entry found).2
  have supports : (trust.comparison start start [] []).Supports [] registry.host :=
    supports_host rfl rfl fun frame top => nomatch top
  have runs : (trust.comparison start start [] []).Matches []
      (trust.comparison start start [] []).Trusted (entry.template.execute data registry.host) :=
    matches_execute supports plain.holds
      (fun value member => (literals_plain parsed value member).holds)
      (fun text inside => composed_text ⟨entry, .inl found, parsed, inside⟩)
  obtain ⟨trace, -, ⟨course, -⟩, -, yields⟩ :=
    runs start start ⟨start.course_nil.symm, start.course_nil.symm⟩
  rw [executed] at course yields
  have begun : last.begun = trace := congrArg Session.begun course
  rw [begun]
  exact yields html rfl

/-- What a template writes for plain data by itself is made of its texts and of escaped text. -/
theorem composed_isolated (standard : registry.helpers = Helper.defaults)
    {template : Template} (literals : AllPlain template.literals) {data : Value}
    (plain : data.Plain) {html : String}
    (executed : ((template.execute data registry.isolatedHost).run ()).1 = .ok html) :
    Composed (fun piece => piece ∈ template.texts) html := by
  let comparison : Comparison Unit Unit :=
    { Later := fun _ _ => True
      Corresponds := fun _ _ _ => True
      Trusted := fun _ => Composed fun piece => piece ∈ template.texts
      later_refl := fun _ => trivial
      later_trans := fun _ _ => trivial
      trusted_later := fun _ _ => id
      trusted_empty := fun _ => composed_empty
      trusted_append := composed_append
      trusted_escape := fun _ => composed_escape }
  have supports : comparison.Supports () registry.isolatedHost := by
    intro _ _ name arguments answer good answers
    unfold isolatedHost at answers
    split at answers
    · obtain rfl := Option.some.inj answers
      exact matches_liftExcept fun value made => Value.holds_dict good made
    · obtain ⟨result, called, rfl⟩ := Option.map_eq_some_iff.1 answers
      exact matches_liftExcept fun value made => (callHelper_plain standard (made ▸ called)).holds
  have runs : comparison.Matches () comparison.Trusted
      (template.execute data registry.isolatedHost) :=
    matches_execute supports plain.holds (fun value member => (literals value member).holds)
      fun text inside => composed_text inside
  obtain ⟨_, -, -, -, yields⟩ := runs () () trivial
  exact yields html executed

/-- With nothing but the default helpers, the output of a fragment is made of texts of the
components that its render executes and of escaped text, and that of an isolated render of
texts of its own template and of escaped text. -/
theorem output_composed {registry : Registry} (reachable : registry.Reachable)
    (standard : registry.helpers = Helper.defaults) (json : Json) :
    (∀ reference fragment, registry.renderFragment reference (.ofJson json) = .ok fragment →
      ∃ entry, registry.entry? reference = some entry ∧
        let begun := ((registry.evaluateFragment entry (.ofJson json)).run .start).2.begun
        Composed (registry.TextOf reference begun) fragment.html) ∧
    (∀ identity source html,
      (registry.renderIsolated identity source (.ofJson json)).1 = .ok html →
      ∃ template after kept, registry.isolatedTemplate identity source = .ok (template, after) ∧
        Digest.ofText kept = Digest.ofText source ∧
        Template.parse (isolatedName identity) (markupOrWhole kept) = .ok template ∧
        Composed (fun piece => piece ∈ template.texts) html) := by
  have formed := reachable.wellFormed
  have plain := Value.ofJson_plain json
  constructor
  · intro reference fragment rendered
    obtain ⟨entry, found, made⟩ := evaluateFragment_of_renderFragment rendered
    obtain ⟨executed, last, -, -⟩ := evaluateFragment_ok made
    refine ⟨entry, found, ?_⟩
    simp only [last]
    exact composed_execute formed standard found plain _ (Prod.ext executed rfl)
  · intro identity source html rendered
    unfold renderIsolated at rendered
    split at rendered
    · simp at rendered
    · rename_i template after made
      obtain ⟨kept, digest, parsed⟩ := formed.isolatedTemplate made
      exact ⟨template, after, kept, made, digest, parsed,
        composed_isolated standard (literals_plain parsed) plain rendered⟩

/-- A guest with a name that looks like markup is greeted by escaped text. -/
theorem output_composed_greeting :
    let json := Json.object [(some "name", .string (some "<Ada>"))]
    let source := "<i>\x7b\x7b.name\x7d\x7d</i>"
    greetings.Reachable ∧ greetings.helpers = Helper.defaults ∧
    (∃ entry, greetings.entry? "greeting" = some entry ∧
      let begun := ((greetings.evaluateFragment entry (.ofJson json)).run .start).2.begun
      Composed (greetings.TextOf "greeting" begun) "<p><b>&lt;Ada&gt;</b></p>") ∧
    ∃ template after kept, greetings.isolatedTemplate "page" source = .ok (template, after) ∧
      Digest.ofText kept = Digest.ofText source ∧
      Template.parse (isolatedName "page") (markupOrWhole kept) = .ok template ∧
      Composed (fun piece => piece ∈ template.texts) "<i>&lt;Ada&gt;</i>" := by
  intro json source
  have composed := output_composed greetings_reachable greetings_helpers json
  have fragment : greetings.renderFragment "greeting" (.ofJson json) =
      .ok ⟨"<p><b>&lt;Ada&gt;</b></p>", ⟨"b \x7b color: red \x7d\n", "hello()\n"⟩,
        ["greeting", "guest"]⟩ := by decide +kernel
  have isolated : (greetings.renderIsolated "page" source (.ofJson json)).1 =
      .ok "<i>&lt;Ada&gt;</i>" := by decide +kernel
  exact ⟨greetings_reachable, greetings_helpers, composed.1 _ _ fragment,
    composed.2 _ _ _ isolated⟩

end Registry

end ComponentPages
