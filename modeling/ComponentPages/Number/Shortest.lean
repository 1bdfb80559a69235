import ComponentPages.Number.Binary

/-!
# The shortest decimal of a number

Among the decimals that read back to a number, the shortest one, and among those of that
length the nearest. A decimal reads back to a magnitude when it lies between the half way
points to the two neighbouring magnitudes: then the magnitude owns it. A half way point is
owned by the magnitude with the even significand. The search tries one digit, then two, and so
on, and takes the neighbours of the number on the grid of that many digits, all in exact
natural arithmetic.
-/
namespace ComponentPages.Number

/-- A decimal `digits * 10 ^ exponent`. -/
structure Decimal where
  /-- The digits, as one natural. -/
  digits : Nat
  /-- The power of ten they are scaled by. -/
  exponent : Int
  deriving DecidableEq, Repr

/-- Which of two equally near decimals is taken. -/
inductive Tie where
  /-- The one whose last digit is even. -/
  | even
  /-- The larger one. -/
  | up

/-- The order of `left * 10 ^ tens` and `right * 2 ^ twos`. -/
def compareScaled (left : Nat) (tens : Int) (right : Nat) (twos : Int) : Ordering :=
  compare ((left * Nat.pow 10 tens.toNat) <<< (-twos).toNat)
    ((right <<< twos.toNat) * Nat.pow 10 (-tens).toNat)

/-- Whether a decimal lies among the numbers that round to a magnitude. -/
def Magnitude.owns (magnitude : Magnitude) (decimal : Decimal) : Bool :=
  let quarter := magnitude.exponent - 2
  let low := 4 * magnitude.significand - (if magnitude.tightBelow then 1 else 2)
  let high := 4 * magnitude.significand + 2
  let closed := magnitude.significand % 2 == 0
  let fromLow := compareScaled decimal.digits decimal.exponent low quarter
  let fromHigh := compareScaled decimal.digits decimal.exponent high quarter
  (fromLow == .gt || (closed && fromLow == .eq)) && (fromHigh == .lt || (closed && fromHigh == .eq))

/-- The decimal on the grid of a power of ten that is taken for a magnitude: of its two
neighbours on the grid the one that reads back, and of two that do the nearer. -/
def Magnitude.onGrid (magnitude : Magnitude) (tie : Tie) (exponent : Int) : Option Decimal :=
  let numerator := (magnitude.significand <<< magnitude.exponent.toNat) *
    Nat.pow 10 (-exponent).toNat
  let denominator := Nat.pow 10 exponent.toNat <<< (-magnitude.exponent).toNat
  let below := numerator / denominator
  let lower : Decimal := ⟨below, exponent⟩
  let upper : Decimal := ⟨below + 1, exponent⟩
  match magnitude.owns lower, magnitude.owns upper with
  | false, false => none
  | true, false => some lower
  | false, true => some upper
  | true, true =>
    match compare (2 * numerator) ((2 * below + 1) * denominator), tie with
    | .lt, _ => some lower
    | .gt, _ => some upper
    | .eq, .up => some upper
    | .eq, .even => some (if below % 2 = 0 then lower else upper)

/-- The least power of ten above a positive magnitude. -/
def Magnitude.scale (magnitude : Magnitude) : Int :=
  let bits : Int := (magnitude.significand.log2 : Int) + magnitude.exponent
  let estimate : Int := bits * 30103 / 100000
  let candidates := [estimate - 1, estimate, estimate + 1, estimate + 2]
  (candidates.find? fun power =>
    compareScaled 1 power magnitude.significand magnitude.exponent == .gt).getD (estimate + 3)

/-- A decimal without the zeros at its end. -/
def Decimal.strip : Nat → Decimal → Decimal
  | 0, decimal => decimal
  | fuel + 1, decimal =>
    if decimal.digits % 10 = 0 && decimal.digits != 0 then
      strip fuel ⟨decimal.digits / 10, decimal.exponent + 1⟩
    else decimal

/-- The shortest decimal that reads back to a positive magnitude. Seventeen digits are enough;
were they not, the exact value would be written. -/
def Magnitude.shortest (magnitude : Magnitude) (tie : Tie) : Decimal :=
  let lengths := (List.range 17).map fun index => magnitude.scale - (index + 1 : Nat)
  let exact : Decimal :=
    ⟨(magnitude.significand <<< magnitude.exponent.toNat) *
        Nat.pow 5 (-magnitude.exponent).toNat,
      min magnitude.exponent 0⟩
  let chosen := (lengths.findSome? (magnitude.onGrid tie)).getD exact
  chosen.strip (Nat.toDigits 10 chosen.digits).length

end ComponentPages.Number
