import ChartStream.Duration.Text
import ChartStream.Json.Value

/-!
# Documents of settings

A configuration is read from a document of some format. A format says how a value of it is read as a
text, a number, a list or a record; the settings are the same for all formats. Values are read in the
order in which they are written, and the first one that cannot be read decides. Main definitions:
`Document`, `Document.readRecord`.
-/

namespace ChartStream

set_option autoImplicit false

namespace Config

/-- Why settings cannot be read. -/
inductive Flaw where
  /-- They are not of the expected form. -/
  | unfit
  /-- A duration has more seconds than can be counted. -/
  | overflow
  deriving DecidableEq, Repr

/-- A reading of settings. Where values of a format refer to others, the state is how many references
may still be followed. -/
abbrev Reading (α : Type) := StateT Nat (Except Flaw) α

namespace Reading

variable {α : Type}

/-- The reading of what is not of the expected form. -/
def refuse : Reading α :=
  throw .unfit

/-- The value, if there is one. -/
def ofOption : Option α → Reading α
  | some value => pure value
  | none => refuse

/-- What is read if some references may be followed. -/
def result (reading : Reading α) (references : Nat) : Except Flaw α :=
  (reading references).map (·.1)

/-! ### Laws -/

theorem ofOption_some (value : α) : ofOption (some value) = pure value := rfl

end Reading

end Config

open Config

/-- A format that settings can be read from. Values of other kinds are refused. -/
class Document (α : Type) where
  text : α → Reading String
  flag : α → Reading Bool
  /-- A number that fits an unsigned word of the given width. -/
  unsigned : Nat → α → Reading Nat
  /-- A text that may be left out by an explicit null. -/
  optionalText : α → Reading (Option String)
  items : α → Reading (List α)
  /-- The names and values of a record whose fields are declared in the given order. -/
  fields : List String → α → Reading (List (α × α))
  /-- The keys and values of a mapping. -/
  entries : α → Reading (List (α × α))
  /-- A value of any kind, as far as it can be told without knowing what it is for. -/
  content : α → Reading Json
  /-- Passes over a value that is not needed. -/
  skip : α → Reading Unit

namespace Document

variable {α σ : Type} [Document α]

/-- Reads the fields of a record in order: those that are `known` change the state by `take` and may be
there once, the others change it by `takeOther`. `seen` are the known ones that were there before. -/
def readFields (known : List String) (take takeOther : String → α → σ → Reading σ)
    (seen : List String) (state : σ) : List (α × α) → Reading σ
  | [] => pure state
  | (key, value) :: rest => do
    let name ← text key
    if !known.contains name then
      readFields known take takeOther seen (← takeOther name value state) rest
    else if seen.contains name then Reading.refuse
    else readFields known take takeOther (name :: seen) (← take name value state) rest

/-- Passes over a field. -/
def skipField (_name : String) (value : α) (state : σ) : Reading σ := do
  skip value
  return state

/-- Reads the fields of a record; those that are not known are passed over. -/
def readRecord (known : List String) (take : String → α → σ → Reading σ) (start : σ)
    (fields : List (α × α)) : Reading σ :=
  readFields known take skipField [] start fields

/-- A duration, which is a text in every format. -/
def duration (value : α) : Reading Duration := do
  match Duration.read (← text value) with
  | .ok d => return d
  | .error .refused => Reading.refuse
  | .error .overflow => throw .overflow

end Document

namespace Json

/-- The fields of an object. -/
def namedFields (fields : List (String × Json)) : List (Json × Json) :=
  fields.map fun f => (.string f.1, f.2)

/-- The fields of a record, by name from an object, or in order from a list. What a list has beyond the
names has no name and is refused where it is reached. -/
def recordFields? (names : List String) : Json → Option (List (Json × Json))
  | .object fields => some (namedFields fields)
  | .array values =>
    let unnamed := (values.drop names.length).map fun value => (Json.null, value)
    some ((names.map Json.string).zip values ++ unnamed)
  | _ => none

instance : Document Json where
  text := fun value => Reading.ofOption value.text?
  flag := fun value => Reading.ofOption value.bool?
  unsigned := fun width value => Reading.ofOption (value.unsigned? width)
  optionalText
    | .null => pure none
    | value => some <$> Reading.ofOption value.text?
  items := fun value => Reading.ofOption value.items?
  fields := fun names value => Reading.ofOption (value.recordFields? names)
  entries := fun value => namedFields <$> Reading.ofOption value.fields?
  content := pure
  skip := fun _ => pure ()

end Json

end ChartStream
