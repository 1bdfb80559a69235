/-!
# Binary numbers

The integers of the program are words of 64 bits with a sign; a number is taken for one only if it
fits (`word?`). A finite number of double precision is a sign and a magnitude
`significand * 2 ^ exponent`. `Magnitude.ofBits` reads the magnitude from the stored word, and
`nearestBits` goes the other way: it is the word of the magnitude nearest to a quotient of naturals,
a half going to the even significand, and the infinite magnitude beyond the largest finite one.
-/
namespace ComponentPages.Number

/-- The word of a number that fits in one. -/
def word? (number : Int) : Option Int64 :=
  if -0x8000000000000000 ≤ number ∧ number < 0x8000000000000000 then some (Int64.ofInt number)
  else none

/-- A finite magnitude `significand * 2 ^ exponent` of double precision. -/
structure Magnitude where
  /-- The significand, below `2 ^ 53`. -/
  significand : Nat
  /-- The power of two it is scaled by. -/
  exponent : Int
  /-- Whether the gap to the next smaller magnitude is half the gap to the next larger one. -/
  tightBelow : Bool

/-- The word of the infinite magnitude. -/
def infiniteBits : Nat := 0x7FF0000000000000

/-- The magnitude that a word without its sign stands for; the infinite ones are not asked. -/
def Magnitude.ofBits (word : Nat) : Magnitude :=
  let scale : Nat := word / 0x10000000000000
  let fraction : Nat := word % 0x10000000000000
  if scale = 0 then ⟨fraction, -1074, false⟩
  else ⟨0x10000000000000 + fraction, (scale : Int) - 1075, fraction == 0 && scale != 1⟩

/-- A quotient rounded to the nearest natural, a half to the even one. -/
def roundHalfEven (numerator denominator : Nat) : Nat :=
  let quotient := numerator / denominator
  let twice := 2 * (numerator % denominator)
  if twice < denominator then quotient
  else if denominator < twice then quotient + 1
  else quotient + quotient % 2

/-- The largest power of two that is at most a quotient of positive naturals. -/
def floorLog (numerator denominator : Nat) : Int :=
  let estimate : Int := (numerator.log2 : Int) - denominator.log2
  if denominator <<< estimate.toNat ≤ numerator <<< (-estimate).toNat then estimate
  else estimate - 1

/-- The word, without sign, of the magnitude nearest to a quotient of naturals. A carry of the
rounded significand into the next power of two carries into the scale of the word as well. -/
def nearestBits (numerator denominator : Nat) : Nat :=
  if numerator = 0 then 0
  else
    let exponent := max (floorLog numerator denominator - 52) (-1074)
    let significand := roundHalfEven (numerator <<< (-exponent).toNat)
      (denominator <<< exponent.toNat)
    min ((exponent + 1074).toNat * 0x10000000000000 + significand) infiniteBits

/-- The number with a sign and the word of a magnitude. -/
def signed (negative : Bool) (word : Nat) : Float :=
  Float.ofBits (UInt64.ofNat (if negative then 0x8000000000000000 + word else word))

/-- The number nearest to `significand * 10 ^ exponent` with a sign. Beyond four hundred places
on either side the number is infinite or zero whatever its digits are. -/
def nearest (negative : Bool) (significand : Nat) (exponent : Int) : Float :=
  let places : Int := (Nat.toDigits 10 significand).length
  if significand = 0 || exponent + places < -400 then signed negative 0
  else if 400 < exponent then signed negative infiniteBits
  else signed negative
    (nearestBits (significand * Nat.pow 10 exponent.toNat) (Nat.pow 10 (-exponent).toNat))

end ComponentPages.Number
