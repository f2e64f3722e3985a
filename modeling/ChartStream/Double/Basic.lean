/-!
# Finite double-precision numbers

A finite binary64 value as an exact fraction, and the value nearest to a given fraction. Main
definitions: `Double`, `Magnitude.nearest?`.
-/

namespace ChartStream

set_option autoImplicit false

/-- A non-negative double: `significand * 2 ^ exponent / 2 ^ 1074`. The significand has at most 53
bits, and exactly 53 unless the exponent is zero. -/
structure Magnitude where
  significand : Nat
  exponent : Nat
  deriving DecidableEq, Repr

/-- A finite double: a sign, which zero has too, and a magnitude. -/
structure Double where
  negative : Bool
  magnitude : Magnitude
  deriving DecidableEq, Repr

namespace Magnitude

/-- The denominator that all doubles share. -/
def scale : Nat := Nat.pow 2 1074

/-- The value times `scale`. -/
def numerator (m : Magnitude) : Nat :=
  m.significand * Nat.pow 2 m.exponent

def zero : Magnitude := ⟨0, 0⟩

/-- A quotient rounded to the nearest whole number, a half to the even one. -/
def roundDiv (num den : Nat) : Nat :=
  let q := num / den
  let r := num % den
  if 2 * r > den || (2 * r == den && q % 2 == 1) then q + 1 else q

/-- The exponent at which `num / den` has a significand of 53 bits, or zero where it has fewer at
every exponent. -/
def exponentOf (num den : Nat) : Nat :=
  let n := num * scale
  let guess := n.log2 - den.log2
  let bits := if n < den * Nat.pow 2 guess then guess - 1 else guess
  bits - 52

/-- The magnitude nearest to `num / den`, ties to the even significand; `none` above the largest
finite one. -/
def nearest? (num den : Nat) : Option Magnitude :=
  let e := exponentOf num den
  let m := roundDiv (num * scale) (den * Nat.pow 2 e)
  let result : Magnitude := if m = Nat.pow 2 53 then ⟨Nat.pow 2 52, e + 1⟩ else ⟨m, e⟩
  if result.exponent ≤ 2045 then some result else none

/-- The rounded product. -/
def mul? (a b : Magnitude) : Option Magnitude :=
  nearest? (a.numerator * b.numerator) (scale * scale)

/-- The rounded quotient by a magnitude that is not zero. -/
def div? (a b : Magnitude) : Option Magnitude :=
  nearest? a.numerator b.numerator

end Magnitude

end ChartStream
