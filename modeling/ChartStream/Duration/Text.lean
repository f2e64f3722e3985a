import ChartStream.Duration.Basic
import ChartStream.Text.Blank
import ChartStream.Text.Integer

/-!
# Durations as text

A duration is written as numbers with units, such as `1h 30m`, the largest unit first. It is read from
any sequence of numbers, with decimals or without, and units, whose parts are added up; decimals have
to come out even. Main definitions: `Duration.read`, `Duration.toText`.
-/

namespace ChartStream

set_option autoImplicit false

/-! ## Units -/

/-- What a count of something adds to a duration. -/
inductive Duration.Measure where
  | seconds (each : Nat)
  | nanos (each : Nat)
  deriving DecidableEq, Repr

/-- A unit of time: its names, one whole of it, and the measure in which decimals of it count. The
smallest unit has no decimals. -/
structure Duration.Unit where
  names : List String
  whole : Duration.Measure
  part : Option Duration.Measure
  deriving DecidableEq, Repr

/-- Why a text cannot be read as a duration. -/
inductive Duration.Failure where
  /-- The text does not write a duration, or one that is too long. -/
  | refused
  /-- The seconds are as many as can be, and the nanoseconds add up to exactly one more. -/
  | overflow
  deriving DecidableEq, Repr

namespace Duration

/-- The seconds of a year of 365.25 days. -/
def yearSeconds : Nat := 31557600

/-- The seconds of a month of 30.44 days. -/
def monthSeconds : Nat := 2630016

def daySeconds : Nat := 86400

/-- A unit of seconds whose decimals count in seconds too. -/
def Unit.ofSeconds (names : List String) (each : Nat) : Unit :=
  ⟨names, .seconds each, some (.seconds each)⟩

/-- The units from the smallest on. -/
def units : List Unit := [
  ⟨["nanos", "nsec", "ns"], .nanos 1, none⟩,
  ⟨["usec", "us", "µs"], .nanos 1000, some (.nanos 1000)⟩,
  ⟨["millis", "msec", "ms"], .nanos 1000000, some (.nanos 1000000)⟩,
  ⟨["seconds", "second", "secs", "sec", "s"], .seconds 1, some (.nanos 1000000000)⟩,
  ⟨["minutes", "minute", "min", "mins", "m"], .seconds 60, some (.nanos 60000000000)⟩,
  Unit.ofSeconds ["hours", "hour", "hrs", "hr", "h"] 3600,
  Unit.ofSeconds ["days", "day", "d"] daySeconds,
  Unit.ofSeconds ["weeks", "week", "wks", "wk", "w"] (7 * daySeconds),
  Unit.ofSeconds ["months", "month", "M"] monthSeconds,
  Unit.ofSeconds ["years", "year", "yrs", "yr", "y"] yearSeconds]

/-- The unit of a name. -/
def unit? (name : List Char) : Option Unit :=
  units.find? fun u => u.names.contains (String.ofList name)

/-! ## Reading -/

/-- A number that fits a word. -/
def word? (n : Nat) : Option Nat :=
  if Text.inUnsigned 64 n then some n else none

/-- Why a sum of durations is too long, given the seconds of both and the nanoseconds beyond them. The
seconds are checked first, and then what is carried over to them, unless that is just one second. -/
def failureOfSum (seconds nanos : Nat) : Failure :=
  if Text.inUnsigned 64 seconds && nanos = nanosPerSecond then .overflow else .refused

/-- A duration with seconds and nanoseconds added. The nanoseconds have to fit a word together with
those beyond its whole seconds. -/
def add (d : Duration) (seconds nanos : Nat) : Except Failure Duration :=
  let beyond := d.subsecNanos + nanos
  if !Text.inUnsigned 64 beyond then .error .refused
  else
    match ofNanos? (d.nanos + seconds * nanosPerSecond + nanos) with
    | some sum => .ok sum
    | none => .error (failureOfSum (d.seconds + seconds) beyond)

/-- The decimals of a number: `digits / scale`. -/
structure Decimals where
  digits : Nat := 0
  scale : Nat := 1

/-- A whole count, as decimals. -/
def Decimals.ofNat (n : Nat) : Decimals :=
  ⟨n, 1⟩

/-- A count of something of which there are `each` in one. It has to fit a word before it is divided,
and there may be no remainder. -/
def count? (n : Decimals) (each : Nat) : Option Nat :=
  (word? (n.digits * each)).bind fun scaled =>
    if scaled % n.scale = 0 then some (scaled / n.scale) else none

/-- A duration with a number of a measure added. -/
def addMeasure (d : Duration) (n : Decimals) : Measure → Except Failure Duration
  | .seconds each =>
    match count? n each with
    | some seconds => d.add seconds 0
    | none => .error .refused
  | .nanos each =>
    match count? n each with
    | some nanos => d.add 0 nanos
    | none => .error .refused

/-- A number with a unit. -/
structure Amount where
  whole : Nat
  decimals : Option Decimals
  unit : List Char

/-- A duration with the decimals of an amount added. -/
def addDecimals (d : Duration) (unit : Unit) : Option Decimals → Except Failure Duration
  | none => .ok d
  | some decimals =>
    match unit.part with
    | some measure => d.addMeasure decimals measure
    | none => .error .refused

/-- A duration with an amount added: its whole part first, then its decimals. -/
def addAmount (d : Duration) (a : Amount) : Except Failure Duration := do
  match unit? a.unit with
  | none => .error .refused
  | some unit =>
    let d ← d.addMeasure (.ofNat a.whole) unit.whole
    d.addDecimals unit a.decimals

/-- The characters of unit names. -/
def inUnit (c : Char) : Bool :=
  ('a' ≤ c && c ≤ 'z') || ('A' ≤ c && c ≤ 'Z') || c == 'µ'

/-- The decimals after a point, up to a unit. Blanks among them do not count; there has to be a
digit. -/
def readDecimals? (read : Decimals) : List Char → Option (Decimals × List Char)
  | [] => if read.scale = 1 then none else some (read, [])
  | c :: rest =>
    match Text.digit? c with
    | some n => do
      let scale ← word? (read.scale * 10)
      let digits ← word? (read.digits * 10 + n)
      readDecimals? ⟨digits, scale⟩ rest
    | none =>
      if Text.isBlank c then readDecimals? read rest
      else if inUnit c then (if read.scale = 1 then none else some (read, c :: rest))
      else none

/-- The rest of a number up to its unit. Blanks among the digits do not count. -/
def readNumber? (read : Nat) : List Char → Option (Nat × Option Decimals × List Char)
  | [] => some (read, none, [])
  | c :: rest =>
    match Text.digit? c with
    | some n => (word? (read * 10 + n)).bind fun read => readNumber? read rest
    | none =>
      if Text.isBlank c then readNumber? read rest
      else if inUnit c then some (read, none, c :: rest)
      else if c = '.' then (readDecimals? {} rest).map fun r => (read, some r.1, r.2)
      else none

/-- The rest of a duration from the digits of a number on, of which `first` is the first. After an
amount comes the next number, at once or after blanks. -/
def readAmounts (fuel : Nat) (d : Duration) (first : Nat) (cs : List Char) :
    Except Failure Duration :=
  match fuel with
  | 0 => .error .refused
  | fuel + 1 =>
    match readNumber? first cs with
    | none => .error .refused
    | some (whole, decimals, rest) =>
      let name := rest.takeWhile inUnit
      let after := rest.drop name.length
      if after.head?.any fun c => (Text.digit? c).isNone && !Text.isBlank c then .error .refused
      else do
        let d ← d.addAmount ⟨whole, decimals, name⟩
        match after.dropWhile Text.isBlank with
        | [] => .ok d
        | c :: rest =>
          match Text.digit? c with
          | some n => readAmounts fuel d n rest
          | none => .error .refused

/-- The duration that a text writes. A zero needs no unit. -/
def read (text : String) : Except Failure Duration :=
  if text = "0" then .ok zero
  else
    match text.toList.dropWhile Text.isBlank with
    | [] => .error .refused
    | c :: rest =>
      match Text.digit? c with
      | some n => readAmounts (rest.length + 1) zero n rest
      | none => .error .refused

/-! ## Writing -/

/-- An amount of a long unit, which takes an `s` in the plural; nothing for zero. -/
def longItem (n : Nat) (unit : String) : List String :=
  if n = 0 then [] else [toString n ++ unit ++ (if n = 1 then "" else "s")]

/-- An amount of a short unit; nothing for zero. -/
def shortItem (n : Nat) (unit : String) : List String :=
  if n = 0 then [] else [toString n ++ unit]

/-- The amounts of a duration from the largest unit on. -/
def amounts (d : Duration) : List String :=
  let inYear := d.seconds % yearSeconds
  let inMonth := inYear % monthSeconds
  let inDay := inMonth % daySeconds
  longItem (d.seconds / yearSeconds) "year"
    ++ longItem (inYear / monthSeconds) "month"
    ++ longItem (inMonth / daySeconds) "day"
    ++ shortItem (inDay / 3600) "h"
    ++ shortItem (inDay % 3600 / 60) "m"
    ++ shortItem (inDay % 60) "s"
    ++ shortItem (d.subsecNanos / 1000000) "ms"
    ++ shortItem (d.subsecNanos / 1000 % 1000) "us"
    ++ shortItem (d.subsecNanos % 1000) "ns"

/-- The text of a duration. -/
def toText (d : Duration) : String :=
  if d.nanos = 0 then "0s" else " ".intercalate d.amounts

end Duration

end ChartStream
