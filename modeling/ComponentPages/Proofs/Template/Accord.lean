import ComponentPages.Proofs.Template.Comparison
import ComponentPages.Proofs.Template.Congruence

/-!
# Evaluations with two hosts

One template is evaluated with two hosts, from one state. The second evaluation follows the
first one: it has the same outcome and leaves the same state, unless the first fails in a way
that excuses the second. What is known of the state before is known after, and only what may give
up does (`Accord.Follows`). A failure ends an evaluation wherever it arises, so one
that excuses is never turned into anything else: sequences keep the relation
(`Accord.congruence`), and if the calls of the second host follow those of the first, so do the
executions of every template (`Template.follows_execute`).
-/
namespace ComponentPages.Template

variable {σ α β : Type}

/-- What a second run is held to, against a first run from the same state. -/
structure Accord (σ : Type) where
  /-- What is known of the state. -/
  Invariant : σ → Prop
  /-- The failures of the first run after which nothing is asked of the second. -/
  Excused : Failure → Prop
  /-- What may give up: some helpers, and the ranges that no list is long enough for. -/
  GivesUp : Abandonment → Prop
  range_givesUp : ∀ {count : Int64}, Overlong count → GivesUp (.range count)

/-- A failure is of a kind that is always allowed, or for a cause that may give up. -/
def Accord.Allows (accord : Accord σ) (failure : Failure) : Prop :=
  ∀ cause, failure = .abandoned cause → accord.GivesUp cause

/-- Nothing is asked of a second run, because of the outcome of the first. -/
def Accord.Excuses (accord : Accord σ) (outcome : Except Failure α) : Prop :=
  ∃ failure, outcome = .error failure ∧ accord.Excused failure

/-- Every run of the first computation excuses the second, or the second does the same and what
is known of the state goes on to hold. -/
def Accord.Follows (accord : Accord σ) (first second : Eval σ α) : Prop :=
  ∀ state, accord.Invariant state →
    accord.Excuses (first.run state).1 ∨
      second.run state = first.run state ∧ accord.Invariant (first.run state).2 ∧
        ∀ failure, (first.run state).1 = .error failure → accord.Allows failure

/-- The hosts know the same functions, and the calls of the second follow those of the first. -/
def Accord.Supports (accord : Accord σ) (first second : Host σ) : Prop :=
  ∀ name arguments, Option.Rel accord.Follows (first name arguments) (second name arguments)

namespace Accord

variable {accord : Accord σ}

/-- A value that is yielded at once is the same for both. -/
theorem follows_pure (value : α) : accord.Follows (pure value) (pure value) :=
  fun _ holds => .inr ⟨rfl, holds, fun _ wrong => nomatch wrong⟩

/-- A failure at once is the same for both. -/
theorem follows_throw {failure : Failure} (allowed : accord.Allows failure) :
    accord.Follows (throw failure : Eval σ α) (throw failure) :=
  fun _ holds => .inr ⟨rfl, holds, fun _ same => Except.error.inj same ▸ allowed⟩

/-- An answer that does not depend on the state is the same for both. -/
theorem follows_liftExcept {answer : Except Failure α}
    (allowed : ∀ failure, answer = .error failure → accord.Allows failure) :
    accord.Follows (liftExcept answer) (liftExcept answer) := by
  cases answer with
  | error failure => exact follows_throw (allowed failure rfl)
  | ok value => exact follows_pure value

/-- A sequence follows a sequence if its parts follow those of the other. -/
theorem follows_bind {first second : Eval σ α} {continuation other : α → Eval σ β}
    (start : accord.Follows first second)
    (rest : ∀ value, accord.Follows (continuation value) (other value)) :
    accord.Follows (first >>= continuation) (second >>= other) := by
  intro state holds
  simp only [run_bind]
  rcases start state holds with ⟨failure, failed, excused⟩ | ⟨same, kept, allowed⟩
  · cases firstRun : first.run state with
    | mk outcome next =>
      rw [firstRun] at failed
      obtain rfl : outcome = .error failure := failed
      exact .inl ⟨failure, rfl, excused⟩
  · rw [same]
    cases firstRun : first.run state with
    | mk outcome next =>
      rw [firstRun] at kept allowed
      cases outcome with
      | error failure =>
        refine .inr ⟨rfl, kept, fun found wrong => allowed found ?_⟩
        exact congrArg Except.error (Except.error.inj wrong)
      | ok value => exact rest value next kept

/-- Runs that read the state follow each other if they do once it is read. -/
theorem follows_get {continuation other : σ → Eval σ α}
    (rest : ∀ state, accord.Invariant state →
      accord.Follows (continuation state) (other state)) :
    accord.Follows (get >>= continuation) (get >>= other) := by
  intro state holds
  simp only [run_bind, run_get]
  exact rest state holds state holds

/-- Sequences keep the relation between a first run and a second. -/
def congruence (accord : Accord σ) : Congruence σ where
  Relates := accord.Follows
  GivesUp := accord.GivesUp
  range_givesUp := accord.range_givesUp
  relates_pure := follows_pure
  relates_throw := follows_throw
  relates_bind := follows_bind

end Accord

/-- Executions of a template follow each other if the calls that the hosts answer do. -/
theorem follows_execute {accord : Accord σ} {first second : Host σ}
    (supports : accord.Supports first second) (template : Template) (data : Value) :
    accord.Follows (template.execute data first) (template.execute data second) :=
  Congruence.relates_execute (show accord.congruence.Supports first second from supports)
    template data

end ComponentPages.Template
