import ComponentPages.Proofs.Session.Accord
import ComponentPages.Proofs.Session.Restoration

/-!
# The recursion of invocations

Templates invoke components, whose templates invoke components in turn, themselves among them.
Each invocation looks at the stack before it puts a frame on it (`invokeOnce`), and is made the
deeper the fewer frames may still be added. So the recursion is used up before it is unrolled
more often than the options allow frames: what it would do beyond that is never asked
(`unroll_eq_invoke`). In no moment of an invocation or a render does the stack hold more frames
than the options allow, and each of them ends in a value or a failure with a reason, unless a
helper gives up or a range goes over more integers than a list can hold (`evaluation_ends`). Both
happen with the default helpers (`renderFragment_gives_up`).
-/
namespace ComponentPages

open Template Accord

namespace Session

/-- What happens to the session of a render: a component is marked, an invocation begins, or the
innermost one ends. -/
inductive Step : Session → Session → Prop where
  | mark (session : Session) (reference : String) : Step session (session.mark reference)
  | enter (session : Session) (frame : CallFrame) : Step session (session.enter frame)
  | leave (session : Session) : Step session session.leave

/-- One session becomes another, step by step. -/
abbrev Steps : Session → Session → Prop := Relation.ReflTransGen Step

/-- The invocations that were reported are within a depth. -/
def ReportsWithin (session : Session) (bound : Nat) : Prop :=
  ∀ invocation ∈ session.begun, invocation.depth ≤ bound

/-- A step takes no report back. -/
theorem Step.begun_prefix {session next : Session} (step : Step session next) :
    session.begun <+: next.begun := by
  cases step with
  | mark reference => exact List.prefix_refl _
  | enter frame => exact List.prefix_append _ _
  | leave => exact List.prefix_refl _

/-- Steps take no report back. -/
theorem begun_prefix_of_steps {first last : Session} (steps : Steps first last) :
    first.begun <+: last.begun := by
  induction steps with
  | refl => exact List.prefix_refl _
  | tail _ step ih => exact ih.trans step.begun_prefix

/-- The stack goes on to hold no more frames than its deepest report says. -/
theorem Step.depth_le {session next : Session} (step : Step session next)
    (reported : ∀ bound, session.ReportsWithin bound → session.depth ≤ bound) (bound : Nat)
    (within : next.ReportsWithin bound) : next.depth ≤ bound := by
  cases step with
  | mark reference => exact reported bound within
  | enter frame =>
    have here : (⟨frame, session.depth + 1⟩ : Invocation) ∈ (session.enter frame).begun :=
      List.mem_append_right _ List.mem_cons_self
    exact within _ here
  | leave =>
    have before : session.depth ≤ bound := reported bound within
    have fewer : session.leave.depth = session.depth - 1 := List.length_tail
    omega

/-- From the start of a session on, the stack holds no more frames than its deepest report
says. -/
theorem depth_le_of_steps {session : Session} (steps : Steps start session) :
    ∀ bound, session.ReportsWithin bound → session.depth ≤ bound := by
  induction steps with
  | refl => exact fun bound _ => Nat.zero_le bound
  | tail _ step ih => exact step.depth_le ih

/-- Steps that end with reports within a depth have no moment with more frames. -/
theorem depth_le_between {moment last : Session} {bound : Nat} (before : Steps start moment)
    (after : Steps moment last) (within : last.ReportsWithin bound) : moment.depth ≤ bound := by
  have earlier : moment.begun <+: last.begun := begun_prefix_of_steps after
  exact depth_le_of_steps before bound fun invocation member =>
    within invocation (earlier.subset member)

end Session

namespace Registry

variable {registry : Registry} {reference : String} {arguments : List Value}

/-- An invocation of a component, where those that its template makes are made by the given
computation. -/
def invokeOnce (registry : Registry) (nested : String → List Value → Eval Session Value)
    (reference : String) (arguments : List Value) : Eval Session Value :=
  let name := componentName reference
  match registry.entry? name with
  | none => throw (.componentNotFound name)
  | some entry => do
    if registry.options.maxDepth ≤ (← get).depth then
      throw (.recursionLimit name registry.options.maxDepth)
    else
      let html ← Session.inFrame ⟨name, arguments⟩
        (entry.template.execute (Session.dataOf arguments) (registry.hostOf nested))
      return .html html

/-- The recursion of invocations unrolled so often, with something else beyond. -/
def unroll (registry : Registry) (beyond : String → List Value → Eval Session Value) :
    Nat → String → List Value → Eval Session Value
  | 0 => beyond
  | calls + 1 => registry.invokeOnce (registry.unroll beyond calls)

/-- What is known of the session at a depth of the stack: the depth, and what the steps of the
invocations keep. -/
def atDepth (registry : Registry) (known : Session → Prop) (depth : Nat) : Accord Session where
  Invariant session := session.depth = depth ∧ known session
  Excused _ := False
  GivesUp := registry.GivesUp
  range_givesUp overlong := overlong

/-- What the invocations of a registry keep as they begin and end. -/
structure Keeps (registry : Registry) (known : Session → Prop) : Prop where
  enter : ∀ session frame, session.depth < registry.options.maxDepth → known session →
    known (session.enter frame)
  leave : ∀ session, known session → known session.leave

variable {known : Session → Prop} {depth : Nat}

/-- An invocation of a registered component looks at the stack first. -/
theorem invokeOnce_run {nested : String → List Value → Eval Session Value} {entry : Registered}
    (found : registry.entry? (componentName reference) = some entry) (session : Session) :
    (registry.invokeOnce nested reference arguments).run session =
      (if registry.options.maxDepth ≤ session.depth then
        throw (.recursionLimit (componentName reference) registry.options.maxDepth)
      else do
        let html ← Session.inFrame ⟨componentName reference, arguments⟩
          (entry.template.execute (Session.dataOf arguments) (registry.hostOf nested))
        return .html html : Eval Session Value).run session := by
  unfold invokeOnce
  simp only [found]
  rw [run_bind, run_get]

/-- Computations in a frame follow each other at a depth if they do one frame deeper. -/
theorem follows_frame {α : Type} {first second : Eval Session α} (keeps : registry.Keeps known)
    (room : depth < registry.options.maxDepth) (frame : CallFrame)
    (inside : (registry.atDepth known (depth + 1)).Follows first second) :
    (registry.atDepth known depth).Follows (Session.inFrame frame first)
      (Session.inFrame frame second) := by
  refine Session.follows_inFrame frame inside ?_ ?_ (fun _ excused => excused)
    (fun _ gaveUp => gaveUp)
  · rintro session ⟨here, knows⟩
    exact ⟨congrArg (· + 1) here, keeps.enter session frame (here ▸ room) knows⟩
  · rintro session ⟨here, knows⟩
    have fewer : session.leave.depth = session.depth - 1 := List.length_tail
    exact ⟨by omega, keeps.leave session knows⟩

/-- An invocation that may put as many frames on the stack as are left does what one does that
looks at the stack, if the invocations inside of it do. -/
theorem follows_invokeOnce {nested : String → List Value → Eval Session Value}
    (keeps : registry.Keeps known)
    (inside : depth < registry.options.maxDepth → ∀ reference arguments,
      (registry.atDepth known (depth + 1)).Follows
        (registry.invokeWithin (registry.options.maxDepth - (depth + 1)) reference arguments)
        (nested reference arguments)) :
    (registry.atDepth known depth).Follows
      (registry.invokeWithin (registry.options.maxDepth - depth) reference arguments)
      (registry.invokeOnce nested reference arguments) := by
  cases found : registry.entry? (componentName reference) with
  | none =>
    rw [invokeWithin_missing found]
    unfold invokeOnce
    simp only [found]
    exact follows_throw fun _ wrong => nomatch wrong
  | some entry =>
    intro session holds
    have here : session.depth = depth := holds.1
    rw [invokeOnce_run found, here]
    by_cases full : registry.options.maxDepth ≤ depth
    · have left : registry.options.maxDepth - depth = 0 := Nat.sub_eq_zero_of_le full
      have allowed : (registry.atDepth known depth).Allows
          (.recursionLimit (componentName reference) registry.options.maxDepth) :=
        fun _ wrong => nomatch wrong
      rw [left, invokeWithin_zero found, if_pos full]
      exact follows_throw allowed session holds
    · have room : depth < registry.options.maxDepth := Nat.lt_of_not_le full
      have left : registry.options.maxDepth - depth =
          registry.options.maxDepth - (depth + 1) + 1 := by omega
      rw [left, invokeWithin_succ found, if_neg full]
      have same : registry.helpers = registry.helpers := rfl
      have supports := follows_hostOf same (fun _ gaveUp => gaveUp) (inside room)
      have template := follows_execute supports entry.template (Session.dataOf arguments)
      have framed := follows_frame keeps room ⟨componentName reference, arguments⟩ template
      exact follows_bind framed (fun html => follows_pure (Value.html html)) session holds

/-- An invocation does what the recursion does, unrolled often enough. -/
theorem follows_unroll (keeps : registry.Keeps known)
    (beyond : String → List Value → Eval Session Value) {calls : Nat}
    (enough : registry.options.maxDepth - depth < calls) (reference : String)
    (arguments : List Value) :
    (registry.atDepth known depth).Follows
      (registry.invokeWithin (registry.options.maxDepth - depth) reference arguments)
      (registry.unroll beyond calls reference arguments) := by
  -- The induction is on how often the recursion is still unrolled; each invocation that begins
  -- uses up one of the frames that are left.
  induction calls generalizing depth reference arguments with
  | zero => exact absurd enough (Nat.not_lt_zero _)
  | succ calls ih =>
    refine follows_invokeOnce keeps fun room reference arguments => ?_
    have deeper : registry.options.maxDepth - (depth + 1) < calls := by omega
    exact ih deeper reference arguments

/-- An invocation may put as many frames on the stack as are left. -/
theorem invoke_run (registry : Registry) (reference : String) (arguments : List Value)
    (session : Session) :
    (registry.invoke reference arguments).run session =
      (registry.invokeWithin (registry.options.maxDepth - session.depth) reference
        arguments).run session := rfl

/-- However the recursion of invocations goes on beyond, unrolled more often than the options
allow frames it is the same. -/
theorem unroll_eq_invoke (registry : Registry)
    (beyond : String → List Value → Eval Session Value) {calls : Nat}
    (enough : registry.options.maxDepth < calls) :
    registry.unroll beyond calls = registry.invoke := by
  funext reference arguments
  refine ExceptT.ext (StateT.ext fun session => ?_)
  have keeps : registry.Keeps fun _ => True := ⟨fun _ _ _ _ => trivial, fun _ _ => trivial⟩
  have left : registry.options.maxDepth - session.depth < calls := by omega
  rcases follows_unroll keeps beyond left reference arguments session ⟨rfl, trivial⟩ with
    ⟨_, _, excused⟩ | ⟨same, -⟩
  · exact excused.elim
  · exact same

/-- An invocation at a depth keeps what is known. -/
theorem follows_invoke (keeps : registry.Keeps known) (reference : String)
    (arguments : List Value) :
    (registry.atDepth known depth).Follows (registry.invoke reference arguments)
      (registry.invoke reference arguments) := by
  intro session holds
  have here : session.depth = depth := holds.1
  have enough : registry.options.maxDepth - depth < registry.options.maxDepth + 1 := by omega
  rcases follows_unroll keeps registry.invoke enough reference arguments session holds with
    ⟨_, _, excused⟩ | ⟨-, kept⟩
  · exact excused.elim
  · rw [invoke_run, here]
    exact .inr ⟨rfl, kept⟩

/-- Calls of the functions of a session at a depth keep what is known. -/
theorem follows_host (keeps : registry.Keeps known) :
    (registry.atDepth known depth).Supports registry.host registry.host :=
  follows_hostOf rfl (fun _ gaveUp => gaveUp) (follows_invoke keeps)

/-- The end of an invocation or of a render from the start of a session, with its outcome. -/
structure Orderly {α : Type} (registry : Registry) (ended : Except Failure α × Session) :
    Prop where
  /-- The end is reached step by step. -/
  reached : Session.Steps .start ended.2
  /-- Every invocation that was reported began within the frames that the options allow. -/
  reported : ended.2.ReportsWithin registry.options.maxDepth
  /-- In no moment on the way the stack holds more frames than that. -/
  bounded : ∀ moment, Session.Steps .start moment → Session.Steps moment ended.2 →
    moment.depth ≤ registry.options.maxDepth
  /-- Every invocation that began has ended. -/
  emptied : ended.2.depth = 0
  /-- The outcome is a value or a failure with a reason, unless something gives up. -/
  answered : ∀ cause, ended.1 = .error (.abandoned cause) → registry.GivesUp cause

/-- What is known of a session on the way from its start. -/
def OnTheWay (registry : Registry) (session : Session) : Prop :=
  Session.Steps .start session ∧ session.ReportsWithin registry.options.maxDepth

/-- Invocations that look at the stack first keep the way from the start of a session within
the depth that the options allow. -/
theorem keeps_onTheWay (registry : Registry) : registry.Keeps registry.OnTheWay where
  enter session frame room := by
    rintro ⟨steps, within⟩
    refine ⟨steps.tail (.enter session frame), fun invocation member => ?_⟩
    rcases List.mem_append.1 member with before | here
    · exact within invocation before
    · obtain rfl := List.mem_singleton.1 here
      exact room
  leave session := fun ⟨steps, within⟩ => ⟨steps.tail (.leave session), within⟩

/-- A computation that keeps what is known ends orderly. -/
theorem orderly_of_follows {α : Type} {computation other : Eval Session α}
    (follows : (registry.atDepth registry.OnTheWay 0).Follows computation other) :
    registry.Orderly (computation.run .start) := by
  have start : registry.OnTheWay .start :=
    ⟨.refl, fun invocation member => absurd member List.not_mem_nil⟩
  rcases follows .start ⟨rfl, start⟩ with ⟨_, _, excused⟩ | ⟨-, ⟨empty, steps, within⟩, allowed⟩
  · exact excused.elim
  · exact ⟨steps, within, fun moment before after =>
      Session.depth_le_between before after within, empty,
      fun cause gaveUp => allowed _ gaveUp cause rfl⟩

/-- An isolated render whose template cannot be had fails for a fault of the template. -/
theorem isolatedTemplate_error {identity source : String} {failure : Failure}
    (failed : registry.isolatedTemplate identity source = .error failure) :
    ∃ fault, failure = .templateParse (isolatedName identity) fault := by
  unfold isolatedTemplate at failed
  simp only at failed
  split at failed
  · exact nomatch failed
  · unfold Template.parse at failed
    split at failed
    · exact nomatch failed
    · exact ⟨_, (Except.error.inj failed).symm⟩

/-- The outcome of an isolated render is a value or a failure with a reason, unless something
gives up. -/
theorem renderIsolated_answered (registry : Registry) (identity source : String) (data : Value)
    {cause : Abandonment}
    (abandoned : (registry.renderIsolated identity source data).1 = .error (.abandoned cause)) :
    registry.GivesUp cause := by
  let accord : Accord Unit := ⟨fun _ => True, fun _ => False, registry.GivesUp, id⟩
  have supports : accord.Supports registry.isolatedHost registry.isolatedHost := by
    intro name arguments
    unfold isolatedHost
    split
    · exact .some (follows_liftExcept fun _ failed => allows_dict failed)
    · cases answered : registry.callHelper name arguments with
      | none => exact .none
      | some answer =>
        exact .some (follows_liftExcept fun failure failed =>
          allows_callHelper (fun _ gaveUp => gaveUp) (failed ▸ answered))
  unfold renderIsolated at abandoned
  split at abandoned
  · rename_i failure failed
    obtain ⟨fault, rfl⟩ := isolatedTemplate_error failed
    exact nomatch abandoned
  · rename_i template after made
    rcases follows_execute supports template data () trivial with ⟨_, _, excused⟩ | ⟨-, -, allowed⟩
    · exact excused.elim
    · exact allowed _ abandoned cause rfl

/-- Invocations and renders end, whatever components invoke each other. However the recursion
of invocations goes on beyond, unrolled more often than the options allow frames it is the same.
In no moment of an invocation, a page or a fragment from the start of a session the stack holds
more frames than that, and at the end it holds none. Every outcome, that of an isolated render
too, is a value or a failure with a reason, unless a helper gives up or a range goes over more
integers than a list can hold. -/
theorem evaluation_ends (registry : Registry) :
    (∀ beyond calls, registry.options.maxDepth < calls →
      registry.unroll beyond calls = registry.invoke) ∧
    (∀ reference arguments,
      registry.Orderly ((registry.invoke reference arguments).run .start)) ∧
    (∀ entry shell data,
      registry.Orderly ((registry.evaluatePage entry shell data).run .start)) ∧
    (∀ entry data, registry.Orderly ((registry.evaluateFragment entry data).run .start)) ∧
    ∀ identity source data cause,
      (registry.renderIsolated identity source data).1 = .error (.abandoned cause) →
        registry.GivesUp cause := by
  have keeps : registry.Keeps registry.OnTheWay := registry.keeps_onTheWay
  have supports : (registry.atDepth registry.OnTheWay 0).Supports registry.host registry.host :=
    follows_host keeps
  have marks : ∀ session reference, (registry.atDepth registry.OnTheWay 0).Invariant session →
      (registry.atDepth registry.OnTheWay 0).Invariant (session.mark reference) := by
    rintro session reference ⟨here, steps, within⟩
    exact ⟨here, steps.tail (.mark session reference), within⟩
  refine ⟨fun beyond calls enough => registry.unroll_eq_invoke beyond enough,
    fun reference arguments => ?_, fun entry shell data => ?_, fun entry data => ?_,
    fun identity source data cause => registry.renderIsolated_answered identity source data⟩
  · exact orderly_of_follows (follows_invoke keeps reference arguments)
  · exact orderly_of_follows (follows_evaluatePage supports marks rfl entry shell data)
  · exact orderly_of_follows (follows_evaluateFragment supports marks rfl entry data)

/-- A component that invokes itself fails once the stack holds as many frames as are allowed. -/
example :
    let registry := (Registry.new ⟨"layout", [], 3, "div"⟩).run [
      .register ⟨"loop", "<p>\x7b\x7bcomp \"loop\"\x7d\x7d</p>", "", "", "", .single⟩]
    registry.renderFragment "loop" .null = .error (.recursionLimit "loop" 3) := by
  decide +kernel

/-- A registry with a component that goes over the integers below the largest one. -/
def spans : Registry := (Registry.new .default).run [
  .register ⟨"span", "<p>\x7b\x7brange 9223372036854775807\x7d\x7d\x7b\x7bend\x7d\x7d</p>", "", "", "",
    .single⟩]

/-- A render that calls a default helper that gives up, and one with a range over more integers than
a list can hold, end neither in a value nor in a failure with a reason. -/
theorem renderFragment_gives_up :
    numbers.Reachable ∧ numbers.helpers = Helper.defaults ∧
      numbers.renderFragment "number" .null = .error (.abandoned "mod") ∧
      spans.Reachable ∧
      spans.renderFragment "span" .null = .error (.abandoned (.range Int64.maxValue)) ∧
      ∀ cause, (Failure.abandoned cause).message = "" := by
  have helpers : numbers.helpers = (Registry.new .default).helpers := helpers_run (by simp)
  exact ⟨⟨.default, _, rfl⟩, helpers, by decide +kernel, ⟨.default, _, rfl⟩, by decide +kernel,
    fun _ => rfl⟩

end Registry

end ComponentPages
