import ComponentPages.Proofs.Registry.Reachable
import ComponentPages.Proofs.Session.Accord

/-!
# Limits of nesting

The limit of nesting is looked at by invocations alone, and a failure for it ends the whole
render, from whatever part of a template it comes. So a render under a higher limit follows the
one under a lower limit up to such a failure, and a higher limit changes no other answer
(`withLimit_answers`).
-/
namespace ComponentPages

open Template Accord

namespace Registry

/-- The registry with another limit of nesting. -/
def withLimit (registry : Registry) (limit : Nat) : Registry :=
  { registry with options := { registry.options with maxDepth := limit } }

/-- An outcome is the failure of an invocation that would nest deeper than allowed. -/
def LimitReached {α : Type} (outcome : Except Failure α) : Prop :=
  ∃ name limit, outcome = .error (.recursionLimit name limit)

/-- A second run does what the first does, unless that reaches its limit. -/
def belowLimit : Accord Session where
  Invariant _ := True
  Excused failure := ∃ name limit, failure = .recursionLimit name limit
  GivesUp _ := True
  range_givesUp _ := trivial

/-- A run that does not reach its limit is followed by the same run. -/
theorem run_eq_of_follows {α : Type} {first second : Eval Session α} {session : Session}
    (follows : belowLimit.Follows first second)
    (below : ¬ LimitReached (first.run session).1) : second.run session = first.run session := by
  rcases follows session trivial with ⟨failure, failed, name, limit, rfl⟩ | ⟨same, -⟩
  · exact absurd ⟨name, limit, failed⟩ below
  · exact same

variable {registry : Registry} {limit : Nat}

/-- Another limit registers nothing else. -/
theorem entry?_withLimit (reference : String) :
    Registry.entry? (registry.withLimit limit) reference = registry.entry? reference := by rfl

/-- Calls of the functions of a session follow those under the lower limit if invocations
do. -/
theorem supports_withLimit {invoke invokeOther : String → List Value → Eval Session Value}
    (invokes : ∀ reference arguments,
      belowLimit.Follows (invoke reference arguments) (invokeOther reference arguments)) :
    belowLimit.Supports (registry.hostOf invoke)
      ((registry.withLimit limit).hostOf invokeOther) :=
  follows_hostOf rfl (fun _ _ => trivial) invokes

/-- An invocation of what is not registered fails in the same way under another limit. -/
theorem follows_missing {room more : Nat} {reference : String} {arguments : List Value}
    (missing : registry.entry? (componentName reference) = none) :
    belowLimit.Follows (registry.invokeWithin room reference arguments)
      ((registry.withLimit limit).invokeWithin more reference arguments) := by
  rw [invokeWithin_missing missing, invokeWithin_missing ((entry?_withLimit _).trans missing)]
  exact follows_throw fun _ wrong => nomatch wrong

/-- An invocation that may put more frames on the stack follows one that may put fewer. -/
theorem follows_invokeWithin {room more : Nat} (fewer : room ≤ more) (reference : String)
    (arguments : List Value) :
    belowLimit.Follows (registry.invokeWithin room reference arguments)
      ((registry.withLimit limit).invokeWithin more reference arguments) := by
  -- The induction is on the frames that the first run may still add; where it may add none, its
  -- failure excuses the second.
  induction room generalizing more reference arguments with
  | zero =>
    cases found : registry.entry? (componentName reference) with
    | none => exact follows_missing found
    | some entry =>
      rw [invokeWithin_zero found]
      exact fun session _ => .inl ⟨_, rfl, _, _, rfl⟩
  | succ room ih =>
    cases found : registry.entry? (componentName reference) with
    | none => exact follows_missing found
    | some entry =>
      obtain ⟨others, rfl⟩ : ∃ others, more = others + 1 := ⟨more - 1, by omega⟩
      rw [invokeWithin_succ found, invokeWithin_succ ((entry?_withLimit _).trans found)]
      have supports : belowLimit.Supports (registry.hostOf (registry.invokeWithin room))
          ((registry.withLimit limit).hostOf ((registry.withLimit limit).invokeWithin others)) :=
        supports_withLimit (ih (Nat.le_of_succ_le_succ fewer))
      have template := follows_execute supports entry.template (Session.dataOf arguments)
      have framed := Session.follows_inFrame ⟨componentName reference, arguments⟩ template
        (fun _ _ => trivial) (fun _ _ => trivial) (fun _ excused => excused)
        (fun _ gaveUp => gaveUp)
      exact follows_bind framed fun html => follows_pure (Value.html html)

/-- An invocation under a higher limit follows the one under the lower limit. -/
theorem follows_invoke_withLimit (higher : registry.options.maxDepth ≤ limit)
    (reference : String) (arguments : List Value) :
    belowLimit.Follows (registry.invoke reference arguments)
      ((registry.withLimit limit).invoke reference arguments) := by
  intro session holds
  have fewer : registry.options.maxDepth - session.depth ≤ limit - session.depth := by omega
  exact follows_invokeWithin fewer reference arguments session holds

/-- A higher limit of nesting changes no answer but that for the limit itself: pages and
fragments are rendered to the same, or fail for the same reason, and invocations at the start
of a session leave the same session as well. -/
theorem withLimit_answers (higher : registry.options.maxDepth ≤ limit) :
    (∀ reference data, ¬ LimitReached (registry.render reference data) →
      (registry.withLimit limit).render reference data = registry.render reference data) ∧
    (∀ reference data, ¬ LimitReached (registry.renderFragment reference data) →
      (registry.withLimit limit).renderFragment reference data =
        registry.renderFragment reference data) ∧
    ∀ reference arguments,
      ¬ LimitReached ((registry.invoke reference arguments).run .start).1 →
        ((registry.withLimit limit).invoke reference arguments).run .start =
          (registry.invoke reference arguments).run .start := by
  have supports : belowLimit.Supports registry.host (registry.withLimit limit).host :=
    supports_withLimit (follows_invoke_withLimit higher)
  refine ⟨fun reference data below => ?_, fun reference data below => ?_,
    fun reference arguments below => ?_⟩
  · have installed : (registry.withLimit limit).shell = registry.shell := rfl
    unfold render at below ⊢
    rw [entry?_withLimit, installed]
    split at below
    · rfl
    · rfl
    · rename_i entry shell _ _
      have page := follows_evaluatePage supports (fun _ _ _ => trivial) rfl entry shell data
      exact congrArg Prod.fst (run_eq_of_follows page below)
  · unfold renderFragment at below ⊢
    rw [entry?_withLimit]
    split at below
    · rfl
    · rename_i entry _
      have fragment := follows_evaluateFragment supports (fun _ _ _ => trivial) rfl entry data
      exact congrArg Prod.fst (run_eq_of_follows fragment below)
  · exact run_eq_of_follows (follows_invoke_withLimit higher reference arguments) below

/-- A greeting invokes one component, which invokes none, so it is the same under the limits of
one frame and of four. -/
theorem withLimit_answers_greeting :
    let data : Value := .map [("name", .str "Ada")]
    let fragment : Fragment :=
      ⟨"<p><b>Ada</b></p>", ⟨"b \x7b color: red \x7d\n", "hello()\n"⟩, ["greeting", "guest"]⟩
    (greetings.withLimit 1).options.maxDepth ≤ 4 ∧
    ¬ LimitReached ((greetings.withLimit 1).renderFragment "greeting" data) ∧
    ((greetings.withLimit 1).withLimit 4).renderFragment "greeting" data = .ok fragment := by
  intro data fragment
  have greeted : (greetings.withLimit 1).renderFragment "greeting" data = .ok fragment := by
    decide +kernel
  have higher : (greetings.withLimit 1).options.maxDepth ≤ 4 := by decide
  have below : ¬ LimitReached ((greetings.withLimit 1).renderFragment "greeting" data) := by
    rintro ⟨name, limit, failed⟩
    exact nomatch greeted.symm.trans failed
  exact ⟨higher, below, ((withLimit_answers higher).2.1 _ _ below).trans greeted⟩

/-- Where no frame is allowed at all the greeting fails for the limit. -/
example : (greetings.withLimit 0).renderFragment "greeting" .null =
    .error (.recursionLimit "guest" 0) := by
  decide +kernel

end Registry

end ComponentPages
