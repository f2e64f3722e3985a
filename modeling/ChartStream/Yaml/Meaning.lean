import ChartStream.Double.Basic
import ChartStream.Json.Value
import ChartStream.Yaml.Node.Basic

/-!
# What scalars stand for

A plain scalar stands for nothing, a truth value, an integer or a double if it has the form of one, and
otherwise for its text. Integers may be written with a base; digits after a leading zero are not a
number. Scalars in other styles stand for their text unless a tag says otherwise. Main definitions:
`Meaning.ofPlain?`, `Meaning.ofScalar?`.
-/

namespace ChartStream.Yaml.Meaning

set_option autoImplicit false

/-! ## Words -/

/-- Whether a text is one of the words for nothing. -/
def isNull (text : String) : Bool :=
  ["null", "Null", "NULL", "~"].contains text

/-- A truth value. -/
def flag? (text : String) : Option Bool :=
  if ["true", "True", "TRUE"].contains text then some true
  else if ["false", "False", "FALSE"].contains text then some false
  else none

/-! ## Integers -/

/-- Whether a text is a zero with further digits. -/
def hasLeadingZero : List Char → Bool
  | '0' :: c :: rest => (c :: rest).all fun d => (Text.digit? d).isSome
  | _ => false

/-- The number of a text without a sign. -/
def unsigned? : List Char → Option Nat
  | '0' :: 'x' :: rest => Text.baseNatural? 16 rest
  | '0' :: 'o' :: rest => Text.baseNatural? 8 rest
  | '0' :: 'b' :: rest => Text.baseNatural? 2 rest
  | cs => if hasLeadingZero cs then none else Text.natural? cs

/-- A natural number, with a plus sign or without. -/
def natural? (text : String) : Option Nat :=
  match text.toList with
  | '+' :: rest => unsigned? rest
  | cs => unsigned? cs

/-- An integer. -/
def integer? (text : String) : Option Int :=
  match text.toList with
  | '-' :: rest => (unsigned? rest).map fun n => -Int.ofNat n
  | _ => (natural? text).map Int.ofNat

/-- Whether an integer fits a word of some width, which is a signed one for negative numbers. -/
def fits (width : Nat) (n : Int) : Bool :=
  -Int.ofNat (Nat.pow 2 (width - 1)) ≤ n && n < Int.ofNat (Nat.pow 2 width)

/-! ## Doubles -/

/-- A decimal: its digits as a number, and the power of ten that it is multiplied by. -/
structure Decimal where
  significand : Nat
  exponent : Int
  deriving DecidableEq, Repr

namespace Decimal

/-- The power of ten after its mark at the end of a text. -/
def exponent? : List Char → Option Int
  | [] => some 0
  | c :: rest => if c == 'e' || c == 'E' then Text.integer? rest else none

/-- A decimal without a sign. A digit has to stand before or after the point. -/
def read? (cs : List Char) : Option Decimal :=
  let isDigit := fun c => (Text.digit? c).isSome
  let (whole, rest) := cs.span isDigit
  let (fraction, rest) := match rest with
    | '.' :: rest => rest.span isDigit
    | _ => ([], rest)
  match Text.natural? (whole ++ fraction), exponent? rest with
  | some n, some e => some ⟨n, e - Int.ofNat fraction.length⟩
  | _, _ => none

/-- The magnitude nearest to a decimal; `none` where it is too large. A power of ten far out of range
decides alone. -/
def magnitude? (d : Decimal) : Option Magnitude :=
  let places := d.exponent + Int.ofNat (Nat.toDigits 10 d.significand).length
  if d.significand = 0 || places < -400 then some .zero
  else if places > 400 then none
  else Magnitude.nearest? (d.significand * Nat.pow 10 d.exponent.toNat) (Nat.pow 10 (-d.exponent).toNat)

end Decimal

/-- A finite double. -/
def finite? (text : String) : Option Double :=
  let read := fun (negative : Bool) (cs : List Char) =>
    ((Decimal.read? cs).bind Decimal.magnitude?).map fun m => (⟨negative, m⟩ : Double)
  match text.toList with
  | '+' :: rest => read false rest
  | '-' :: rest => read true rest
  | cs => read false cs

/-- The words for doubles that are not finite. -/
def notFinite : List String :=
  [".inf", ".Inf", ".INF", "+.inf", "+.Inf", "+.INF", "-.inf", "-.Inf", "-.INF",
    ".nan", ".NaN", ".NAN"]

/-- A double. One that is not finite is no value of its own, and null stands for it. -/
def double? (text : String) : Option Json :=
  if notFinite.contains text then some .null else (finite? text).map .double

/-! ## Scalars -/

/-- What a plain scalar without a tag stands for. An integer of more than 64 bits is an error, but
one of more than 128 bits is a double. -/
def ofPlain? (text : String) : Option Json :=
  if text.isEmpty || isNull text then some .null
  else
    match flag? text, (integer? text).filter (fits 128) with
    | some b, _ => some (.bool b)
    | none, some n => if fits 64 n then some (.integer n) else none
    | none, none =>
      let unsigned := match text.toList with
        | '+' :: rest => rest
        | '-' :: rest => rest
        | cs => cs
      if hasLeadingZero unsigned then some (.string text)
      else some ((double? text).getD (.string text))

/-- The tags of the scalars of the format. -/
def standardTag (name : String) : List UInt8 :=
  asciiBytes ("tag:yaml.org,2002:" ++ name).toList

/-- Whether a tag starts with an exclamation mark. -/
def isMarked (tag : List UInt8) : Bool :=
  tag.head? = some '!'.toUInt8

/-- Whether a tag is for some application. It has to be a text. -/
def isLocal (tag : List UInt8) : Bool :=
  isMarked tag && ByteArray.validateUTF8 ⟨tag.toArray⟩

/-- What a scalar with a tag stands for. A local tag is an error; one that names no type makes it a
text, but one that starts like a local tag and is no text is passed over. -/
def ofTagged? (tag : List UInt8) (style : Style) (text : String) : Option Json :=
  if isLocal tag then none
  else if tag == standardTag "bool" then (flag? text).map .bool
  else if tag == standardTag "int" then ((integer? text).filter (fits 64)).map .integer
  else if tag == standardTag "float" then double? text
  else if tag == standardTag "null" then if isNull text then some .null else none
  else if isMarked tag && style = .plain then ofPlain? text
  else some (.string text)

/-- What a scalar stands for. -/
def ofScalar? (tag : Option (List UInt8)) (style : Style) (text : String) : Option Json :=
  match tag with
  | some tag => ofTagged? tag style text
  | none => if style = .plain then ofPlain? text else some (.string text)

end ChartStream.Yaml.Meaning
