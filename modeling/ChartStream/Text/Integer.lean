/-!
# Integers

Reading the digits of a natural number and the optional sign of an integer. The digits are those of
ASCII; there is at least one of them, and leading zeros are allowed.
-/

namespace ChartStream.Text

set_option autoImplicit false

/-- The value of an ASCII digit. -/
def digit? (c : Char) : Option Nat :=
  if '0' ≤ c ∧ c ≤ '9' then some (c.toNat - '0'.toNat) else none

/-- The value of a hexadecimal digit. -/
def hexDigit? (c : Char) : Option Nat :=
  match digit? c with
  | some d => some d
  | none =>
    if 'a' ≤ c ∧ c ≤ 'f' then some (c.toNat - 'a'.toNat + 10)
    else if 'A' ≤ c ∧ c ≤ 'F' then some (c.toNat - 'A'.toNat + 10)
    else none

/-- The number whose digits of some base continue those of `acc`; `none` at the first character that
is no digit of it. -/
def baseDigitsFrom? (base acc : Nat) : List Char → Option Nat
  | [] => some acc
  | c :: rest =>
    match hexDigit? c with
    | some d => if d < base then baseDigitsFrom? base (acc * base + d) rest else none
    | none => none

/-- The number written by one or more digits of some base, which is at most sixteen. -/
def baseNatural? (base : Nat) : List Char → Option Nat
  | [] => none
  | c :: rest => baseDigitsFrom? base 0 (c :: rest)

/-- The number whose digits continue those of `acc`; `none` at the first character that is no
digit. -/
def digitsFrom? (acc : Nat) : List Char → Option Nat
  | [] => some acc
  | c :: rest =>
    match digit? c with
    | some d => digitsFrom? (10 * acc + d) rest
    | none => none

/-- The number written by one or more digits. -/
def natural? : List Char → Option Nat
  | [] => none
  | c :: rest => digitsFrom? 0 (c :: rest)

/-- The number written by an optional sign and one or more digits. -/
def integer? : List Char → Option Int
  | '+' :: rest => (natural? rest).map Int.ofNat
  | '-' :: rest => (natural? rest).map fun n => -Int.ofNat n
  | cs => (natural? cs).map Int.ofNat

/-- Whether an integer fits a signed word of 64 bits. -/
def inSigned64 (n : Int) : Bool :=
  -0x8000000000000000 ≤ n && n < 0x8000000000000000

/-- Whether a natural number fits an unsigned word of the given width. -/
def inUnsigned (width n : Nat) : Bool :=
  n < Nat.pow 2 width

end ChartStream.Text
