import ChartStream.Double.Decimal
import ChartStream.Json.Value

/-!
# Reading JSON

A reader takes characters and gives a value with the characters after it. A number without point and
exponent that fits a signed or unsigned word of 64 bits is an integer, minus zero is not, and every
other number is a double. Main definition: `Json.read?`.
-/

namespace ChartStream.Json

set_option autoImplicit false

/-! ## Numbers -/

/-- The digits read so far, as far as they fit a word of 64 bits, and the power of ten that they
are to be scaled by. -/
structure Scaled where
  significand : Nat
  exponent : Int

/-- The first number beyond an unsigned word of 64 bits. -/
def wordLimit : Nat := UInt64.size

/-- Reads digits into a word as long as they fit it. -/
def fillWord (word : Nat) : List Char → Nat × List Char
  | [] => (word, [])
  | c :: rest =>
    match Text.digit? c with
    | some d => if 10 * word + d < wordLimit then fillWord (10 * word + d) rest else (word, c :: rest)
    | none => (word, c :: rest)

/-- The number of digits that a text starts with, and the rest. -/
def countDigits (cs : List Char) : Nat × List Char :=
  let digits := cs.takeWhile fun c => (Text.digit? c).isSome
  (digits.length, cs.drop digits.length)

/-- The exponent after its mark. -/
def readExponent? (cs : List Char) : Option (Int × List Char) :=
  let (negative, cs) := match cs with
    | '+' :: rest => (false, rest)
    | '-' :: rest => (true, rest)
    | _ => (false, cs)
  let (count, rest) := countDigits cs
  match Text.natural? (cs.take count) with
  | some n => some (if negative then -Int.ofNat n else Int.ofNat n, rest)
  | none => none

/-- The exponent, if one is written, added to what was read before it. -/
def readScale? (scaled : Scaled) : List Char → Option (Scaled × List Char)
  | c :: rest =>
    if c = 'e' || c = 'E' then
      (readExponent? rest).map fun e => ({ scaled with exponent := scaled.exponent + e.1 }, e.2)
    else some (scaled, c :: rest)
  | [] => some (scaled, [])

/-- The digits after the point and the exponent. Digits that no longer fit are dropped. -/
def readFraction? (scaled : Scaled) (cs : List Char) : Option (Scaled × List Char) :=
  let (significand, rest) := fillWord scaled.significand cs
  let taken := cs.length - rest.length
  let dropped := countDigits rest
  if taken + dropped.1 = 0 then none
  else readScale? ⟨significand, scaled.exponent - Int.ofNat taken⟩ dropped.2

/-- The double of a scaled number. -/
def Scaled.toDouble? (negative : Bool) (s : Scaled) : Option Json :=
  (Magnitude.ofDecimal? s.significand s.exponent).map fun m => .double ⟨negative, m⟩

/-- A whole number in its kind: an integer if a word of 64 bits holds it and its sign. -/
def whole? (negative : Bool) (n : Nat) : Option Json :=
  if negative then
    if n = 0 || n > 0x8000000000000000 then Scaled.toDouble? true ⟨n, 0⟩ else some (.integer (-Int.ofNat n))
  else some (.integer (Int.ofNat n))

/-- A number whose sign has been read. -/
def readUnsigned? (negative : Bool) (cs : List Char) : Option (Json × List Char) :=
  let (count, _) := countDigits cs
  if count = 0 || (count > 1 && cs.head? == some '0') then none
  else
    let (word, rest) := fillWord 0 cs
    let dropped := countDigits rest
    let scaled : Scaled := ⟨word, Int.ofNat dropped.1⟩
    let result : Option (Option Scaled × List Char) := match dropped.2 with
      | '.' :: after => (readFraction? scaled after).map fun r => (some r.1, r.2)
      | c :: after =>
        if c = 'e' || c = 'E' then
          (readScale? scaled (c :: after)).map fun r => (some r.1, r.2)
        else some (if dropped.1 = 0 then none else some scaled, c :: after)
      | [] => some (if dropped.1 = 0 then none else some scaled, [])
    match result with
    | none => none
    | some (none, after) => (whole? negative word).map (·, after)
    | some (some s, after) => (s.toDouble? negative).map (·, after)

/-! ## Texts -/

/-- Four hexadecimal digits. -/
def hexUnit? : List Char → Option (Nat × List Char)
  | a :: b :: c :: d :: rest => do
    let a ← Text.hexDigit? a
    let b ← Text.hexDigit? b
    let c ← Text.hexDigit? c
    let d ← Text.hexDigit? d
    some (((a * 16 + b) * 16 + c) * 16 + d, rest)
  | _ => none

/-- The character of an escape whose backslash and `u` have been read. Characters beyond the first
plane are two units, and half of such a pair is refused. -/
def unicodeEscape? (cs : List Char) : Option (Char × List Char) :=
  match hexUnit? cs with
  | none => none
  | some (high, rest) =>
    if 0xD800 ≤ high && high < 0xDC00 then
      match rest with
      | '\\' :: 'u' :: more =>
        match hexUnit? more with
        | some (low, rest) =>
          if 0xDC00 ≤ low && low < 0xE000 then
            some (Char.ofNat (0x10000 + (high - 0xD800) * 0x400 + (low - 0xDC00)), rest)
          else none
        | none => none
      | _ => none
    else if 0xDC00 ≤ high && high < 0xE000 then none
    else some (Char.ofNat high, rest)

/-- The character of an escape of one letter. -/
def simpleEscape? : Char → Option Char
  | '"' => some '"'
  | '\\' => some '\\'
  | '/' => some '/'
  | 'b' => some '\x08'
  | 'f' => some '\x0c'
  | 'n' => some '\n'
  | 'r' => some '\r'
  | 't' => some '\t'
  | _ => none

/-- The rest of a text up to its closing quote. `read` holds the characters so far, the last one
first. -/
def readText? : Nat → List Char → List Char → Option (String × List Char)
  | 0, _, _ => none
  | _ + 1, _, [] => none
  | fuel + 1, read, c :: rest =>
    if c = '"' then some (String.ofList read.reverse, rest)
    else if c = '\\' then
      match rest with
      | 'u' :: more =>
        match unicodeEscape? more with
        | some (c, rest) => readText? fuel (c :: read) rest
        | none => none
      | e :: rest =>
        match simpleEscape? e with
        | some c => readText? fuel (c :: read) rest
        | none => none
      | [] => none
    else if c.toNat < 0x20 then none
    else readText? fuel (c :: read) rest

/-! ## Values -/

/-- The characters after the white space of the format. -/
def skipSpace (cs : List Char) : List Char :=
  cs.dropWhile fun c => c = ' ' || c = '\n' || c = '\t' || c = '\r'

/-- The characters after a fixed word. -/
def readWord? : List Char → List Char → Option (List Char)
  | [], rest => some rest
  | w :: word, c :: rest => if w = c then readWord? word rest else none
  | _ :: _, [] => none

mutual

/-- A value after white space. -/
def readValue? (fuel : Nat) (cs : List Char) : Option (Json × List Char) :=
  match fuel with
  | 0 => none
  | fuel + 1 =>
    match skipSpace cs with
    | '"' :: rest => (readText? (rest.length + 1) [] rest).map fun r => (.string r.1, r.2)
    | '[' :: rest =>
      match skipSpace rest with
      | ']' :: rest => some (.array [], rest)
      | _ => readItems? fuel [] rest
    | '{' :: rest =>
      match skipSpace rest with
      | '}' :: rest => some (.object [], rest)
      | _ => readFields? fuel [] rest
    | '-' :: rest => readUnsigned? true rest
    | 'n' :: rest => (readWord? ['u', 'l', 'l'] rest).map (.null, ·)
    | 't' :: rest => (readWord? ['r', 'u', 'e'] rest).map (.bool true, ·)
    | 'f' :: rest => (readWord? ['a', 'l', 's', 'e'] rest).map (.bool false, ·)
    | rest => readUnsigned? false rest

/-- The rest of an array up to its bracket. -/
def readItems? (fuel : Nat) (read : List Json) (cs : List Char) : Option (Json × List Char) :=
  match fuel with
  | 0 => none
  | fuel + 1 =>
    match readValue? fuel cs with
    | none => none
    | some (item, rest) =>
      match skipSpace rest with
      | ',' :: rest => readItems? fuel (item :: read) rest
      | ']' :: rest => some (.array (item :: read).reverse, rest)
      | _ => none

/-- The rest of an object up to its brace. -/
def readFields? (fuel : Nat) (read : List (String × Json)) (cs : List Char) :
    Option (Json × List Char) :=
  match fuel with
  | 0 => none
  | fuel + 1 =>
    match skipSpace cs with
    | '"' :: rest =>
      match readText? (rest.length + 1) [] rest with
      | none => none
      | some (name, rest) =>
        match skipSpace rest with
        | ':' :: rest =>
          match readValue? fuel rest with
          | none => none
          | some (value, rest) =>
            match skipSpace rest with
            | ',' :: rest => readFields? fuel ((name, value) :: read) rest
            | '}' :: rest => some (ofFields ((name, value) :: read).reverse, rest)
            | _ => none
        | _ => none
    | _ => none

end

/-- The value that a text writes, with nothing but white space around it. -/
def read? (text : String) : Option Json :=
  let cs := text.toList
  match readValue? (2 * cs.length + 2) cs with
  | some (value, rest) => if (skipSpace rest).isEmpty then some value else none
  | none => none

end ChartStream.Json
