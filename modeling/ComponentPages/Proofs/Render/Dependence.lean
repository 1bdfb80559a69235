import ComponentPages.Proofs.Registry.History
import ComponentPages.Proofs.Registry.Names
import ComponentPages.Proofs.Session.Accord

/-!
# What a fragment depends on

A fragment depends on no component but those that it lists as used: every registry with the same
options and helpers that holds the same components under these names renders the same fragment
(`fragment_depends`). A failure ends the whole render, so in a render that succeeds every
component that was looked up was found, and what is invoked is marked and stays marked. So the
render can be retraced in the other registry (`Retraces`).
-/
namespace ComponentPages

open Template

/-- The first computation keeps what is used, and the second does the same as the first whenever
the first succeeds with no component used but listed ones. -/
structure Retraces (listed : String → Prop) {α : Type} (first second : Eval Session α) :
    Prop where
  grows : ∀ session, session.usage.Agrees →
    (first.run session).2.usage.Agrees ∧ session.used <+: (first.run session).2.used
  same : ∀ session, session.usage.Agrees → ∀ value, (first.run session).1 = .ok value →
    (∀ name ∈ (first.run session).2.used, listed name) →
      second.run session = first.run session

section Retraces

variable {listed : String → Prop} {α β : Type}

/-- A value that is yielded at once is the same for both. -/
theorem retraces_pure (value : α) : Retraces listed (pure value) (pure value) where
  grows _ agrees := ⟨agrees, List.prefix_refl _⟩
  same _ _ _ _ _ := rfl

/-- Nothing is asked of the second computation where the first fails at once. -/
theorem retraces_throw {failure : Failure} (second : Eval Session α) :
    Retraces listed (throw failure) second where
  grows _ agrees := ⟨agrees, List.prefix_refl _⟩
  same _ _ _ made _ := nomatch made

/-- A sequence is retraced if its parts are: what is used when its first part ends is used when
all of it ends. -/
theorem retraces_bind {first second : Eval Session α} {continuation other : α → Eval Session β}
    (start : Retraces listed first second)
    (rest : ∀ value, Retraces listed (continuation value) (other value)) :
    Retraces listed (first >>= continuation) (second >>= other) := by
  refine ⟨fun session agrees => ?_, fun session agrees result made within => ?_⟩
  · obtain ⟨agreesOn, grows⟩ := start.grows session agrees
    rw [run_bind]
    cases firstRun : first.run session with
    | mk outcome middle =>
      rw [firstRun] at agreesOn grows
      cases outcome with
      | error failure => exact ⟨agreesOn, grows⟩
      | ok value =>
        obtain ⟨agreesLast, growsOn⟩ := (rest value).grows middle agreesOn
        exact ⟨agreesLast, grows.trans growsOn⟩
  · have agreesOn := (start.grows session agrees).1
    have retraced := start.same session agrees
    rw [run_bind] at made within ⊢
    rw [run_bind]
    cases firstRun : first.run session with
    | mk outcome middle =>
      rw [firstRun] at made within agreesOn retraced
      cases outcome with
      | error failure => exact nomatch made
      | ok value =>
        have growsOn := ((rest value).grows middle agreesOn).2
        rw [retraced value rfl fun name member => within name (growsOn.subset member)]
        exact (rest value).same middle agreesOn result made within

/-- What reads the session is retraced if it is once the session is read. -/
theorem retraces_get {continuation other : Session → Eval Session α}
    (rest : ∀ session, Retraces listed (continuation session) (other session)) :
    Retraces listed (get >>= continuation) (get >>= other) where
  grows session := (rest session).grows session
  same session := (rest session).same session

/-- What the first part of a sequence uses is used when the sequence ends. -/
theorem Retraces.mem_used_bind {first second : Eval Session α}
    {continuation other : α → Eval Session β} (start : Retraces listed first second)
    (rest : ∀ value, Retraces listed (continuation value) (other value)) {name : String}
    (uses : ∀ session, session.usage.Agrees → name ∈ (first.run session).2.used) :
    ∀ session, session.usage.Agrees → name ∈ ((first >>= continuation).run session).2.used := by
  intro session agrees
  have agreesOn := (start.grows session agrees).1
  have used := uses session agrees
  rw [run_bind]
  cases firstRun : first.run session with
  | mk outcome middle =>
    rw [firstRun] at agreesOn used
    cases outcome with
    | error failure => exact used
    | ok value => exact ((rest value).grows middle agreesOn).2.subset used

/-- A computation that uses a component needs to be retraced only if that is listed. -/
theorem Retraces.of_used {first second other : Eval Session α} {name : String}
    (start : Retraces listed first other)
    (uses : ∀ session, session.usage.Agrees → name ∈ (first.run session).2.used)
    (retraces : listed name → Retraces listed first second) : Retraces listed first second where
  grows := start.grows
  same session agrees value made within :=
    (retraces (within name (uses session agrees))).same session agrees value made within

/-- Sequences keep that computations are retraced. -/
def retracing (listed : String → Prop) : Congruence Session where
  Relates := Retraces listed
  GivesUp _ := True
  range_givesUp _ := trivial
  relates_pure := retraces_pure
  relates_throw _ := retraces_throw _
  relates_bind := retraces_bind

/-- After an invocation begins, its component is used. -/
theorem Session.mem_used_enter {session : Session} (agrees : session.usage.Agrees)
    (frame : CallFrame) : componentName frame.name ∈ (session.enter frame).used := by
  have marked : (session.usage.use (componentName frame.name)).Agrees :=
    Usage.agrees_use agrees _
  exact (marked _).1 ((Usage.contains_use _ _ _).2 (.inl rfl))

/-- What runs in a frame is retraced if it is once the invocation has begun, and then the
component of the frame is used. -/
theorem retraces_inFrame {first second : Eval Session α} (frame : CallFrame)
    (inside : Retraces listed first second) :
    Retraces listed (Session.inFrame frame first) (Session.inFrame frame second) ∧
      ∀ session, session.usage.Agrees →
        componentName frame.name ∈ ((Session.inFrame frame first).run session).2.used := by
  have runs (computation : Eval Session α) (session : Session) :
      (Session.inFrame frame computation).run session =
        ((computation.run (session.enter frame)).1,
          (computation.run (session.enter frame)).2.leave) := rfl
  have begun {session : Session} (agrees : session.usage.Agrees) :
      (session.enter frame).usage.Agrees := Usage.agrees_use agrees _
  refine ⟨⟨fun session agrees => ?_, fun session agrees value made within => ?_⟩,
    fun session agrees => ?_⟩
  · obtain ⟨agreesOn, grows⟩ := inside.grows _ (begun agrees)
    exact ⟨agreesOn, (Usage.prefix_use session.usage _).trans grows⟩
  · rw [runs first] at made within ⊢
    rw [runs second, inside.same _ (begun agrees) value made within]
  · exact (inside.grows _ (begun agrees)).2.subset (Session.mem_used_enter agrees frame)

end Retraces

namespace Registry

/-- The second registry has the limit and the helpers of the first, and what the first holds
under listed names. -/
structure Shares (registry other : Registry) (listed : String → Prop) : Prop where
  limit : other.options.maxDepth = registry.options.maxDepth
  helpers : other.helpers = registry.helpers
  entries : ∀ {reference entry}, registry.entry? reference = some entry →
    listed (componentName reference) → other.entry? reference = some entry

variable {registry other : Registry} {listed : String → Prop}

/-- The functions of a session are retraced if invocations are. -/
theorem retraces_hostOf {invoke invokeOther : String → List Value → Eval Session Value}
    (helpers : other.helpers = registry.helpers)
    (invokes : ∀ reference arguments,
      Retraces listed (invoke reference arguments) (invokeOther reference arguments)) :
    (retracing listed).Supports (registry.hostOf invoke) (other.hostOf invokeOther) :=
  relates_hostOf (show ∀ _ : Session → Value, (retracing listed).Relates _ _ from
    fun _ => retraces_get fun _ => retraces_pure _) helpers (fun _ _ => trivial) invokes

/-- Invocations are retraced, at every depth. -/
theorem retraces_invokeWithin (shares : registry.Shares other listed) (room : Nat)
    (reference : String) (arguments : List Value) :
    Retraces listed (registry.invokeWithin room reference arguments)
      (other.invokeWithin room reference arguments) := by
  induction room generalizing reference arguments with
  | zero =>
    cases found : registry.entry? (componentName reference) with
    | none =>
      rw [invokeWithin_missing found]
      exact retraces_throw _
    | some entry =>
      rw [invokeWithin_zero found]
      exact retraces_throw _
  | succ room ih =>
    cases found : registry.entry? (componentName reference) with
    | none =>
      rw [invokeWithin_missing found]
      exact retraces_throw _
    | some entry =>
      have executed : Retraces listed
          (entry.template.execute (Session.dataOf arguments)
            (registry.hostOf (registry.invokeWithin room)))
          (entry.template.execute (Session.dataOf arguments)
            (other.hostOf (other.invokeWithin room))) :=
        (retracing listed).relates_execute (retraces_hostOf shares.helpers ih) _ _
      obtain ⟨framed, uses⟩ := retraces_inFrame ⟨componentName reference, arguments⟩ executed
      have yields (html : String) : Retraces listed (pure (Value.html html) : Eval Session Value)
          (pure (Value.html html)) := retraces_pure _
      have whole := retraces_bind framed yields
      rw [invokeWithin_succ found]
      refine whole.of_used (framed.mem_used_bind yields uses) fun isListed => ?_
      rw [invokeWithin_succ (shares.entries found isListed)]
      exact whole

/-- Invocations are retraced. -/
theorem retraces_invoke (shares : registry.Shares other listed) (reference : String)
    (arguments : List Value) :
    Retraces listed (registry.invoke reference arguments) (other.invoke reference arguments) := by
  unfold invoke
  rw [shares.limit]
  exact retraces_get fun session => retraces_invokeWithin shares _ reference arguments

/-- A fragment is the same in a registry that shares what the fragment uses. -/
theorem Shares.renderFragment {reference : String} {data : Value} {fragment : Fragment}
    (shares : registry.Shares other (· ∈ fragment.used))
    (assets : other.assets fragment.used = registry.assets fragment.used)
    (rendered : registry.renderFragment reference data = .ok fragment)
    (named : componentName reference ∈ fragment.used) :
    other.renderFragment reference data = .ok fragment := by
  obtain ⟨entry, found, made⟩ := evaluateFragment_of_renderFragment rendered
  obtain ⟨html, -, used, gathered⟩ := evaluateFragment_ok made
  have retraced : Retraces (· ∈ fragment.used) (entry.template.execute data registry.host)
      (entry.template.execute data other.host) :=
    (retracing _).relates_execute
      (retraces_hostOf shares.helpers (retraces_invoke shares)) entry.template data
  have agrees : (Session.start.mark entry.component.name).usage.Agrees :=
    Usage.agrees_use Usage.agrees_empty _
  have same := retraced.same _ agrees fragment.html html fun name member => used ▸ member
  unfold Registry.renderFragment
  rw [shares.entries found named]
  simp only
  rw [evaluateFragment_run, same]
  cases executed : (entry.template.execute data registry.host).run
      (Session.start.mark entry.component.name) with
  | mk outcome last =>
    rw [executed] at html used gathered
    obtain rfl : outcome = .ok fragment.html := html
    simp only at used gathered ⊢
    rw [← used, assets, used, ← gathered, ← used]

/-- No listed name has the ending of a document. -/
def Unended (registry : Registry) : Prop :=
  ∀ name ∈ registry.names, ¬ documentEnding <:+ name.toList

/-- What is registered under a name is told by the component that it shows. -/
theorem WellFormed.entry?_congr (formed : registry.WellFormed) (otherFormed : other.WellFormed)
    {reference : String} {entry : Registered} (found : registry.entry? reference = some entry)
    (same : other.lookup reference = registry.lookup reference) :
    other.entry? reference = some entry := by
  have shown : other.lookup reference = some entry.component := by
    rw [same, lookup, found]
    rfl
  obtain ⟨held, there, component⟩ := Option.map_eq_some_iff.1 shown
  have parsed := (formed.entry found).2
  rw [← component, (otherFormed.entry there).2] at parsed
  rw [there]
  have template := Except.ok.inj parsed
  cases held
  cases entry
  simp only at component template
  rw [component, template]

/-- A fragment depends on no component but those that it uses: wherever the options, the helpers
and what is held under the used names are the same, the fragment is rendered and is the same,
with its assets and its used names. -/
theorem fragment_depends (reachable : registry.Reachable) (otherReachable : other.Reachable)
    (options : other.options = registry.options) (helpers : other.helpers = registry.helpers)
    (unended : registry.Unended) {reference : String} {data : Value} {fragment : Fragment}
    (rendered : registry.renderFragment reference data = .ok fragment)
    (same : ∀ name ∈ fragment.used, other.lookup name = registry.lookup name) :
    other.renderFragment reference data = .ok fragment := by
  -- The name of a reference that stands for a component stands for itself, so marking it and
  -- looking it up once more finds the same component.
  have itself {reference : String} {entry : Registered}
      (found : registry.entry? reference = some entry) :
      componentName (componentName reference) = componentName reference := by
    have listed : componentName reference ∈ registry.names :=
      contains_iff.1 (by rw [contains, found]; rfl)
    exact componentName_eq_self.2 (unended _ listed)
  have shares : registry.Shares other (· ∈ fragment.used) := by
    refine ⟨congrArg Options.maxDepth options, helpers, fun {reference entry} found used => ?_⟩
    have named (registry : Registry) :
        registry.entry? (componentName reference) = registry.entry? reference := by
      rw [Registry.entry?, itself found, Registry.entry?]
    rw [← named] at found ⊢
    exact reachable.wellFormed.entry?_congr otherReachable.wellFormed found (same _ used)
  obtain ⟨entry, found, made⟩ := evaluateFragment_of_renderFragment rendered
  obtain ⟨-, -, used, -⟩ := evaluateFragment_ok made
  have marked : componentName reference ∈ fragment.used := by
    have named : entry.component.name = componentName reference :=
      (reachable.wellFormed.entry found).1
    obtain ⟨others, first⟩ := @used_head_of_execute registry _ entry.template data (itself found)
    rw [used, named, first]
    exact List.mem_cons_self
  exact shares.renderFragment (assets_congr same) rendered marked

/-- A registry that greets as `greetings` does and holds another component and a page shell. -/
def visits : Registry := (Registry.new .default).run [
  .register ⟨"guest", "<i>\x7b\x7bparam 0\x7d\x7d</i>", "", "", "", .single⟩,
  .register ⟨"aside", "<p>\x7b\x7bcomp \"nobody\"\x7d\x7d</p>", "p\x7ba:b\x7d", "", "", .single⟩,
  .compileShell "layout" "<head></head><body>\x7b\x7b.Content\x7d\x7d</body>",
  .register ⟨"greeting", "<p>\x7b\x7bcomp \"guest\" .name\x7d\x7d</p>", "", "hello()", "",
    .single⟩,
  .register ⟨"guest", "<b>\x7b\x7bparam 0\x7d\x7d</b>", "b \x7b color: red \x7d", "", "",
    .single⟩]

/-- A greeting is the same next to components that it does not use. -/
theorem fragment_depends_greeting :
    let data := Value.map [("name", .str "Ada")]
    let fragment : Fragment := ⟨"<p><b>Ada</b></p>", ⟨"b \x7b color: red \x7d\n", "hello()\n"⟩,
      ["greeting", "guest"]⟩
    greetings.Reachable ∧ visits.Reachable ∧ visits.options = greetings.options ∧
      visits.helpers = greetings.helpers ∧ greetings.Unended ∧
      greetings.renderFragment "greeting" data = .ok fragment ∧
      (∀ name ∈ fragment.used, visits.lookup name = greetings.lookup name) ∧
      visits.renderFragment "greeting" data = .ok fragment := by
  intro data fragment
  have reachable : visits.Reachable := ⟨.default, _, rfl⟩
  have options : visits.options = greetings.options :=
    (options_run _ _).trans (options_run _ _).symm
  have helpers : visits.helpers = greetings.helpers := by
    rw [greetings_helpers]
    exact helpers_run (by simp)
  have unended : greetings.Unended := by
    have known : greetings.names = ["greeting", "guest"] := by decide +kernel
    unfold Unended
    rw [known]
    decide
  have rendered : greetings.renderFragment "greeting" data = .ok fragment := by decide +kernel
  have same : ∀ name ∈ fragment.used, visits.lookup name = greetings.lookup name := by
    have greeting : visits.lookup "greeting" = greetings.lookup "greeting" := by decide +kernel
    have guest : visits.lookup "guest" = greetings.lookup "guest" := by decide +kernel
    intro name member
    rcases List.mem_cons.1 member with rfl | later
    · exact greeting
    · exact List.mem_singleton.1 later ▸ guest
  exact ⟨greetings_reachable, reachable, options, helpers, unended, rendered, same,
    fragment_depends greetings_reachable reachable options helpers unended rendered same⟩

end Registry

end ComponentPages
