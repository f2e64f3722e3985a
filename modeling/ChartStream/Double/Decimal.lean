import ChartStream.Double.Basic

/-!
# Decimal texts of doubles

Writing: the fewest digits that read back to the value, and of those the nearest to it. Reading: the
leading digits that fit a word of 64 bits, scaled by powers of ten in double arithmetic.
-/

namespace ChartStream.Magnitude

set_option autoImplicit false

/-! ## The fewest digits -/

/-- Whether `num / den` rounds to `m`: it lies between the midpoints to the neighbours of `m`, which
belong to `m` when its significand is even. The lower neighbour of a power of two is half as far
away. -/
def readsBack (m : Magnitude) (num den : Nat) : Bool :=
  let v := 4 * num * scale
  let ulp := den * Nat.pow 2 m.exponent
  let below := if m.significand = Nat.pow 2 52 && m.exponent != 0 then 1 else 2
  let low := (4 * m.significand - below) * ulp
  let high := (4 * m.significand + 2) * ulp
  if m.significand % 2 == 0 then low ≤ v && v ≤ high else low < v && v < high

/-- `10 ^ k` as a fraction, for any integer `k`. -/
def tenPow (k : Int) : Nat × Nat :=
  (Nat.pow 10 k.toNat, Nat.pow 10 (-k).toNat)

/-- The least `k` from `start` on with `m < 10 ^ k`, looked for in `fuel` steps. -/
def decimalPlacesFrom (m : Magnitude) : Nat → Int → Int
  | 0, start => start
  | fuel + 1, start =>
    if m.numerator * (tenPow start).2 < (tenPow start).1 * scale then start
    else decimalPlacesFrom m fuel (start + 1)

/-- The `k` with `10 ^ (k - 1) ≤ m < 10 ^ k`, for `m` not zero. -/
def decimalPlaces (m : Magnitude) : Int :=
  let bits : Int := Int.ofNat m.numerator.log2 - 1074
  decimalPlacesFrom m 4 (bits * 30103 / 100000 - 1)

/-- The neighbours of `m` on the grid of multiples of `10 ^ k` that round to `m`, the nearer one
first and the even one at a tie. -/
def onGrid? (m : Magnitude) (k : Int) : Option Nat :=
  let unit := tenPow k
  let num := m.numerator * unit.2
  let den := scale * unit.1
  let low := num / den
  let reads := fun c => m.readsBack (c * unit.1) unit.2
  let near := roundDiv num den
  let far := if near = low then low + 1 else low
  if reads near then some near else if reads far then some far else none

/-- The first grid with a hit among those of `digits`, `digits + 1`, … digits. -/
def shortestFrom (m : Magnitude) (places : Int) : Nat → Nat → Nat × Int
  | 0, digits => (m.numerator, Int.ofNat digits - places)
  | fuel + 1, digits =>
    let k := places - Int.ofNat digits
    match m.onGrid? k with
    | some c => (c, k)
    | none => shortestFrom m places fuel (digits + 1)

/-- A number without its trailing zeros, and how many there were added to `k`. -/
def stripZeros : Nat → Nat → Int → Nat × Int
  | 0, c, k => (c, k)
  | fuel + 1, c, k => if c % 10 = 0 && c != 0 then stripZeros fuel (c / 10) (k + 1) else (c, k)

/-- The digits `c` and the exponent `k` of the decimal `c * 10 ^ k` with the fewest digits that
reads back to `m`. Seventeen digits always suffice. -/
def shortest (m : Magnitude) : Nat × Int :=
  if m.significand = 0 then (0, 0)
  else
    let found := shortestFrom m m.decimalPlaces 17 1
    stripZeros 20 found.1 found.2

/-! ## Reading -/

/-- The largest power of ten that one multiplication or division scales by. -/
def largestTenPow : Nat := 308

/-- `10 ^ k` rounded, for `k` at most `largestTenPow`. -/
def tenPowRounded? (k : Nat) : Option Magnitude :=
  nearest? (Nat.pow 10 k) 1

/-- Division by `10 ^ k` in steps of at most `largestTenPow`, each of which rounds. -/
def divTenPow? (fuel : Nat) (m : Magnitude) (k : Nat) : Option Magnitude :=
  match fuel with
  | 0 => some m
  | fuel + 1 =>
    if k ≤ largestTenPow then (tenPowRounded? k).bind m.div?
    else if m.significand = 0 then some m
    else
      match (tenPowRounded? largestTenPow).bind m.div? with
      | some quotient => divTenPow? fuel quotient (k - largestTenPow)
      | none => none

/-- The double `significand * 10 ^ exponent`: the significand is rounded, then scaled. `none` where
the value is too large. -/
def ofDecimal? (significand : Nat) (exponent : Int) : Option Magnitude :=
  match nearest? significand 1 with
  | none => none
  | some m =>
    if exponent < 0 then divTenPow? ((-exponent).toNat / largestTenPow + 1) m (-exponent).toNat
    else if exponent.toNat ≤ largestTenPow then (tenPowRounded? exponent.toNat).bind m.mul?
    else if m.significand = 0 then some m
    else none

end ChartStream.Magnitude

namespace ChartStream.Double

set_option autoImplicit false

/-! ## Layout -/

/-- The exponents of the first digit that are written positionally. -/
def positional (exponent : Int) : Bool :=
  -5 ≤ exponent && exponent ≤ 15

/-- A text with the decimal point after its first `places` characters and a digit after it. -/
def withPoint (digits : List Char) (places : Nat) : List Char :=
  let fraction := digits.drop places
  digits.take places ++ '.' :: (if fraction.isEmpty then ['0'] else fraction)

/-- `c * 10 ^ k` as text: positionally with a point and at least one decimal, or with one digit
before the point, if any follow, and a signed exponent. -/
def layout (c : Nat) (k : Int) : List Char :=
  let digits := Nat.toDigits 10 c
  let exponent := Int.ofNat digits.length - 1 + k
  if positional exponent then
    if exponent < 0 then
      '0' :: '.' :: List.replicate ((-exponent).toNat - 1) '0' ++ digits
    else
      withPoint (digits ++ List.replicate k.toNat '0') (exponent.toNat + 1)
  else
    let head := match digits with
      | [d] => [d]
      | _ => withPoint digits 1
    let sign := if exponent < 0 then '-' else '+'
    head ++ 'e' :: sign :: Nat.toDigits 10 exponent.natAbs

/-- The shortest text of a double. -/
def toText (d : Double) : String :=
  let decimal := d.magnitude.shortest
  let text := layout decimal.1 decimal.2
  String.ofList (if d.negative then '-' :: text else text)

end ChartStream.Double
