/-!
# Percentages

A ratio of two counters is shown as a percentage with two decimals. Every step on the way is rounded
to a binary64 number, as a processor would do it: the two counters, their quotient, and the quotient
times a hundred. `binary64` is that rounding on exact rationals: the nearest multiple of the value's
own unit in the last place, a tie going to the even one. Counters are 64 bits wide, so no step comes
near the ends of the exponent range. The last step to two decimals rounds in the same way, on the
grid of hundredths.
-/

namespace SharedLinks.Percent

/-- The nearest integer; a tie goes to the even one. -/
def roundEven (x : Rat) : Int :=
  let below := x.floor
  let rest := x - below
  if rest < 1 / 2 then below
  else if 1 / 2 < rest then below + 1
  else below + below % 2

/-- A power of two with any integer exponent. -/
def twoPow : Int → Rat
  | .ofNat n => Nat.pow 2 n
  | .negSucc n => 1 / Nat.pow 2 (n + 1)

/-- The exponent of the largest power of two that is not above a positive rational. The logarithms
of numerator and denominator give it up to one. -/
def binade (x : Rat) : Int :=
  let guess : Int := x.num.toNat.log2 - x.den.log2
  if twoPow guess ≤ x then guess else guess - 1

/-- The unit in the last of 53 binary places of a positive rational. -/
def unitInLastPlace (x : Rat) : Rat := twoPow (binade x - 52)

/-- The nearest binary64 number of a rational that is not negative. -/
def binary64 (x : Rat) : Rat :=
  if x = 0 then 0 else roundEven (x / unitInLastPlace x) * unitInLastPlace x

/-- The quotient of two counters, each step rounded; zero over anything or anything over zero is
zero. -/
def quotient (part whole : UInt64) : Rat :=
  if whole = 0 then 0
  else binary64 (binary64 part.toNat / binary64 whole.toNat)

/-- How many hundredths of a percent are shown. -/
def hundredths (part whole : UInt64) : Nat :=
  (roundEven (binary64 (quotient part whole * 100) * 100)).toNat

/-- The percentage with two decimals. -/
def text (part whole : UInt64) : String :=
  let n := hundredths part whole
  let tens := toString (n % 100 / 10)
  let ones := toString (n % 10)
  toString (n / 100) ++ "." ++ tens ++ ones ++ "%"

end SharedLinks.Percent
