import ComponentPages.Number.Shortest

/-!
# Layout of numbers

How a number is written once its digits are chosen. A `Layout` holds the decisions of one
form of output: which numbers are written positionally, what marks a whole number and an
exponent, and what stands for the numbers that are not finite. `Layout.write` is the text of
a number in a layout.
-/
namespace ComponentPages.Number

/-- The decisions of one way to write numbers. -/
structure Layout where
  /-- The exponents of the first digit for which a number is written positionally. -/
  positional : Int → Bool
  /-- What follows the digits of a whole number that is written positionally. -/
  wholeMark : String
  /-- What stands between the `e` and the digits of an exponent that is not negative. -/
  exponentPlus : String
  /-- Which of two equally near shortest decimals is written. -/
  tie : Tie
  /-- The text of what is not a number. -/
  notANumber : String
  /-- The texts of the infinite numbers, positive and negative. -/
  infinite : String × String

namespace Layout

/-- The digits with a decimal point, where the first digit has the given exponent. -/
def point (layout : Layout) (digits : List Char) (leading : Int) : String :=
  if leading < 0 then
    "0." ++ String.ofList (List.replicate (-leading - 1).toNat '0' ++ digits)
  else
    let whole := leading.toNat + 1
    if digits.length ≤ whole then
      String.ofList (digits ++ List.replicate (whole - digits.length) '0') ++ layout.wholeMark
    else String.ofList (digits.take whole ++ '.' :: digits.drop whole)

/-- The digits with an exponent, which is the exponent of the first digit. -/
def scientific (layout : Layout) (digits : List Char) (leading : Int) : String :=
  let mantissa := match digits with
    | [] => []
    | [digit] => [digit]
    | digit :: others => digit :: '.' :: others
  let sign := if leading < 0 then "-" else layout.exponentPlus
  String.ofList mantissa ++ "e" ++ sign ++ String.ofList (Nat.toDigits 10 leading.natAbs)

/-- A decimal in a layout. -/
def decimal (layout : Layout) (value : Decimal) : String :=
  let digits := Nat.toDigits 10 value.digits
  let leading := value.exponent + digits.length - 1
  if layout.positional leading then layout.point digits leading
  else layout.scientific digits leading

/-- The text of a number. -/
def write (layout : Layout) (number : Float) : String :=
  let word := number.toBits.toNat
  let negative := decide (0x8000000000000000 ≤ word)
  let bits := word % 0x8000000000000000
  if infiniteBits < bits then layout.notANumber
  else if bits = infiniteBits then
    if negative then layout.infinite.2 else layout.infinite.1
  else
    let magnitude := Magnitude.ofBits bits
    let text :=
      if magnitude.significand = 0 then "0" ++ layout.wholeMark
      else layout.decimal (magnitude.shortest layout.tie)
    if negative then "-" ++ text else text

end Layout

end ComponentPages.Number
