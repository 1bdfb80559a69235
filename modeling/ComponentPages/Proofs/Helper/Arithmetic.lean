import ComponentPages.Render
import ComponentPages.Proofs.Template.Comparison
import Mathlib

/-!
# The arithmetic of the helpers

What the default helpers answer for two integers. A sum, a difference and a product are exact where
they fit in a word, and overflow otherwise; a remainder is that of a division towards zero. Every
pair of integers has such an answer but one: the remainder of the least integer by minus one, which
is zero, is given up (`defaults_calculate`, `defaults_give_up`). A template gets the answers that the
helpers give, whatever it is rendered for (`Lends.run_call`).
-/
namespace ComponentPages

open Template

/-- The operations on two integers among the default helpers. -/
inductive Calculation where
  | add
  | sub
  | mul
  | mod
  deriving DecidableEq, Repr

namespace Calculation

/-- The name under which a template calls an operation. -/
def name : Calculation → String
  | add => "add"
  | sub => "sub"
  | mul => "mul"
  | mod => "mod"

/-- The helper for an operation. -/
def helper : Calculation → Helper
  | add => Helper.arithmetic (· + ·)
  | sub => Helper.arithmetic (· - ·)
  | mul => Helper.arithmetic (· * ·)
  | mod => Helper.remainder

/-- The answer is a number where it fits in a word, and an overflow otherwise. -/
structure IsExact (number : Int) (answer : Except Refusal Value) : Prop where
  fits : -2 ^ 63 ≤ number → number < 2 ^ 63 →
    ∃ word : Int64, word.toInt = number ∧ answer = .ok (.int word)
  overflows : ¬ (-2 ^ 63 ≤ number ∧ number < 2 ^ 63) →
    ∃ fault : CallFault, fault.message = "integer overflow" ∧ answer = .error (.fault fault)

/-- The answer is the remainder of a division towards zero, or a refusal to divide by zero. -/
structure IsRemainder (dividend divisor : Int64) (answer : Except Refusal Value) : Prop where
  refuses : divisor = 0 → ∃ fault, answer = .error (.fault fault)
  divides : divisor ≠ 0 → ∃ rest : Int64, answer = .ok (.int rest) ∧
    (∃ quotient : Int, dividend.toInt = divisor.toInt * quotient + rest.toInt) ∧
    |rest.toInt| < |divisor.toInt| ∧ (rest.toInt = 0 ∨ rest.toInt.sign = dividend.toInt.sign)

/-- What an operation is to answer for two integers. -/
def IsAnswer (left right : Int64) : Calculation → Except Refusal Value → Prop
  | add => IsExact (left.toInt + right.toInt)
  | sub => IsExact (left.toInt - right.toInt)
  | mul => IsExact (left.toInt * right.toInt)
  | mod => IsRemainder left right

/-- The one remainder that is given up, of all operations on two integers. -/
def IsGivenUp (calculation : Calculation) (left right : Int64) : Prop :=
  calculation = mod ∧ left = Int64.minValue ∧ right = -1

end Calculation

namespace Helper

open Calculation

/-- The default helpers have each operation under its name. -/
theorem find?_defaults (calculation : Calculation) :
    Entries.find? calculation.name defaults = some calculation.helper := by
  rw [defaults, Entries.find?_ofList]
  cases calculation <;> rfl

/-- A number is answered exactly. -/
theorem isExact_exactly (number : Int) : IsExact number (exactly number) := by
  constructor
  · intro least most
    have fits : Number.word? number = some (Int64.ofInt number) := by
      rw [Number.word?, if_pos (by omega)]
    exact ⟨Int64.ofInt number, Int64.toInt_ofInt_of_le least most, by rw [exactly, fits]⟩
  · intro outside
    have apart : Number.word? number = none := by
      rw [Number.word?, if_neg (by omega)]
    exact ⟨.integerOverflow, rfl, by rw [exactly, apart]⟩

/-- The remainder of a word by a word that is not zero is a word. -/
theorem toInt_remainder (dividend : Int64) {divisor : Int64} (some_divisor : divisor ≠ 0) :
    |dividend.toInt.tmod divisor.toInt| < |divisor.toInt| ∧
      (Int64.ofInt (dividend.toInt.tmod divisor.toInt)).toInt =
        dividend.toInt.tmod divisor.toInt := by
  have positive : divisor.toInt ≠ 0 := fun zero => some_divisor (Int64.toInt_inj.1 zero)
  have size : (dividend.toInt.tmod divisor.toInt).natAbs < divisor.toInt.natAbs := by
    rw [Int.natAbs_tmod]
    exact Nat.mod_lt _ (Int.natAbs_pos.2 positive)
  have least := divisor.le_toInt
  have most := divisor.toInt_lt
  constructor
  · rw [Int.abs_eq_natAbs, Int.abs_eq_natAbs]
    exact_mod_cast size
  · exact Int64.toInt_ofInt_of_le (by omega) (by omega)

/-- A remainder that is not given up is that of a division towards zero. -/
theorem isRemainder_remainder {dividend divisor : Int64}
    (kept : ¬ (dividend = Int64.minValue ∧ divisor = -1)) :
    IsRemainder dividend divisor (remainder [.int dividend, .int divisor]) := by
  have answer : remainder [.int dividend, .int divisor] =
      if divisor = 0 then .error (.fault .divisionByZero)
      else if dividend = Int64.minValue ∧ divisor = -1 then .error .abandon
      else .ok (.int (Int64.ofInt (dividend.toInt.tmod divisor.toInt))) := rfl
  constructor
  · intro zero
    exact ⟨.divisionByZero, by rw [answer, if_pos zero]⟩
  · intro some_divisor
    obtain ⟨small, written⟩ := toInt_remainder dividend some_divisor
    refine ⟨_, by rw [answer, if_neg some_divisor, if_neg kept], ?_⟩
    rw [written]
    refine ⟨⟨dividend.toInt.tdiv divisor.toInt, (Int.mul_tdiv_add_tmod _ _).symm⟩, small, ?_⟩
    rw [← Int.sign_eq_zero_iff_zero, Int.sign_tmod]
    split
    · exact .inl rfl
    · exact .inr rfl

/-- The remainder of the least integer by minus one is given up. -/
theorem remainder_least : remainder [.int Int64.minValue, .int (-1)] = .error .abandon := by rfl

/-- An operation answers, unless it is given up. -/
theorem helper_answers {calculation : Calculation} {left right : Int64}
    (kept : ¬ IsGivenUp calculation left right) :
    IsAnswer left right calculation (calculation.helper [.int left, .int right]) := by
  cases calculation with
  | add => exact isExact_exactly _
  | sub => exact isExact_exactly _
  | mul => exact isExact_exactly _
  | mod => exact isRemainder_remainder fun least => kept ⟨rfl, least⟩

/-- The answer of a helper as the caller of its name is told it. -/
def told (name : String) : Except Refusal Value → Except Failure Value
  | .ok value => .ok value
  | .error (.fault fault) => .error (.function name fault)
  | .error .abandon => .error (.abandoned name)

end Helper

/-- The functions that a registry lends to templates: to those of a session, where invocations are
made by some computation, and to those that are rendered by themselves. -/
inductive Registry.Lends (registry : Registry) : {σ : Type} → Host σ → Prop
  | session (invoke : String → List Value → Eval Session Value) :
    Registry.Lends registry (registry.hostOf invoke)
  | isolated : Registry.Lends registry registry.isolatedHost

section Calls

variable {registry : Registry} {σ : Type} {host : Host σ}

/-- A template calls a helper by each name that is not taken by a function of the render. -/
theorem Registry.Lends.callHelper_eq (lends : registry.Lends host) {name : String}
    (free : name ∉ Helper.reserved) (arguments : List Value) :
    host name arguments = (registry.callHelper name arguments).map liftExcept := by
  cases lends with
  | session invoke =>
    unfold Registry.hostOf
    split
    · exact absurd (by decide) free
    · exact absurd (by decide) free
    · exact absurd (by decide) free
    · exact absurd (by decide) free
    · rfl
  | isolated =>
    have other : name ≠ "dict" := by
      rintro rfl
      exact absurd (by decide) free
    rw [Registry.isolatedHost, if_neg other]

/-- A call in a template has the answer of the helper for the values of its arguments. -/
theorem Registry.Lends.run_call (lends : registry.Lends host) {name : String} {helper : Helper}
    (free : name ∉ Helper.reserved) (found : Entries.find? name registry.helpers = some helper)
    {template : String} {data dot : Value} {arguments : List Operand} (piped : Option Value)
    {values : List Value} {state after : σ}
    (evaluated : (Operand.evaluateAll ⟨template, data, host⟩ dot arguments).run state =
      (.ok values, after)) :
    ((Command.of (.call name) arguments).evaluate ⟨template, data, host⟩ dot piped).run state =
      (Helper.told name (helper (values ++ piped.toList)), after) := by
  have called : host name (values ++ piped.toList) =
      some (liftExcept (Helper.told name (helper (values ++ piped.toList)))) := by
    rw [lends.callHelper_eq free, Registry.callHelper, found]
    rfl
  have answered : ((Setting.mk template data host).call name (values ++ piped.toList)).run after =
      (Helper.told name (helper (values ++ piped.toList)), after) := by
    have lent : (Setting.mk template data host).call name (values ++ piped.toList) =
        liftExcept (Helper.told name (helper (values ++ piped.toList))) := by
      simp only [Setting.call, called]
    rw [lent]
    cases Helper.told name (helper (values ++ piped.toList)) <;> rfl
  rw [Command.evaluate, run_bind, evaluated]
  exact answered

end Calls

namespace Helper

open Calculation

/-- Each calculation with two integers has an exact answer or an overflow, each remainder that of a
division towards zero, but for the one that is given up. A template that calls the helper with two
integers, the last of which may be piped, has this answer, in a session or rendered by itself. -/
theorem defaults_calculate (calculation : Calculation) (left right : Int64) :
    ∃ helper, Entries.find? calculation.name defaults = some helper ∧
      (¬ IsGivenUp calculation left right →
        IsAnswer left right calculation (helper [.int left, .int right])) ∧
      (IsGivenUp calculation left right → helper [.int left, .int right] = .error .abandon) ∧
      ∀ (registry : Registry), Entries.find? calculation.name registry.helpers = some helper →
        ∀ {σ : Type} (host : Host σ), registry.Lends host →
        ∀ (template : String) (data dot : Value) (arguments : List Operand) (piped : Option Value)
          (values : List Value) (state after : σ),
          (Operand.evaluateAll ⟨template, data, host⟩ dot arguments).run state =
              (.ok values, after) →
            values ++ piped.toList = [.int left, .int right] →
            ((Command.of (.call calculation.name) arguments).evaluate ⟨template, data, host⟩ dot
              piped).run state =
                (told calculation.name (helper [.int left, .int right]), after) := by
  refine ⟨calculation.helper, find?_defaults calculation, helper_answers, ?_, ?_⟩
  · rintro ⟨rfl, rfl, rfl⟩
    exact remainder_least
  · intro registry found σ host lends template data dot arguments piped values state after evaluated
      given
    have free : calculation.name ∉ reserved := by
      cases calculation <;> decide
    have answered := lends.run_call free found piped evaluated
    rw [given] at answered
    exact answered

/-- A component that pipes four into the remainder of minus seven writes minus three. -/
theorem defaults_calculate_piped :
    Entries.find? "mod" (Registry.new .default).helpers = some remainder ∧
      ((Command.of (.call "mod") [.literal (.int (-7))]).evaluate
        ⟨"card", .null, (Registry.new .default).host⟩ .null (some (.int 4))).run .start =
          (.ok (.int (-3)), .start) := by
  obtain ⟨helper, found, -, -, calls⟩ := defaults_calculate .mod (-7) 4
  obtain rfl : remainder = helper := Option.some.inj ((find?_defaults .mod).symm.trans found)
  refine ⟨found, ?_⟩
  have answer : remainder [.int (-7), .int 4] = .ok (.int (-3)) := by rfl
  have answered := calls (Registry.new .default) found (Registry.new .default).host (.session _)
    "card" .null .null [.literal (.int (-7))] (some (.int 4)) [.int (-7)] .start .start rfl rfl
  rw [answer] at answered
  exact answered

/-- The remainder of the least integer by minus one, which is zero, is given up. -/
theorem defaults_give_up :
    ∃ helper, Entries.find? "mod" defaults = some helper ∧
      helper [.int Int64.minValue, .int (-1)] = .error .abandon ∧
      ¬ IsAnswer Int64.minValue (-1) .mod (helper [.int Int64.minValue, .int (-1)]) := by
  refine ⟨remainder, find?_defaults .mod, remainder_least, fun isRemainder => ?_⟩
  obtain ⟨rest, divided, -⟩ := isRemainder.divides (by decide)
  cases remainder_least.symm.trans divided

end Helper

end ComponentPages
