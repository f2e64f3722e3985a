import ChartStream.Json.Value
import ChartStream.Text.Blank

/-!
# Samples

The values that one collection brings, by the id of the dimension or variable they are for.
-/

namespace ChartStream

set_option autoImplicit false

/-- The values of one cycle. -/
structure Samples where
  entries : List (String × Json)
  deriving Inhabited, Repr

namespace Samples

def empty : Samples := ⟨[]⟩

def isEmpty (data : Samples) : Bool :=
  data.entries.isEmpty

/-- The value kept under an id. -/
def get? (data : Samples) (id : String) : Option Json :=
  data.entries.lookup id

/-- Whether a value, of whatever kind, is kept under an id. -/
def contains (data : Samples) (id : String) : Bool :=
  (data.get? id).isSome

/-- The integer that a value stands for: an integer itself, or the decimal text of one with blanks
around it. It fits a signed word of 64 bits. -/
def integerOf? : Json → Option Int
  | .integer n => if Text.inSigned64 n then some n else none
  | .string s =>
    match Text.integer? (Text.trim s.toList) with
    | some n => if Text.inSigned64 n then some n else none
    | none => none
  | _ => none

/-- The integer under an id. A missing or unreadable value leaves its owner out of the cycle. -/
def integer? (data : Samples) (id : String) : Option Int :=
  (data.get? id).bind integerOf?

/-- The samples with a value set. -/
def insert (data : Samples) (id : String) (value : Json) : Samples :=
  ⟨Json.setField id value data.entries⟩

/-! ## Laws -/

@[simp] theorem contains_empty (id : String) : empty.contains id = false := rfl

end Samples

end ChartStream
