import ChartStream.Double.Basic
import ChartStream.Text.Integer

/-!
# JSON values

A JSON value keeps apart integers and doubles. The fields of an object are sorted by name and each
name is there once; `Json.ofFields` brings any list of fields into that form.
-/

namespace ChartStream

set_option autoImplicit false

/-- A JSON value. A whole number beyond the words of 64 bits is never an `integer`. -/
inductive Json where
  | null
  | bool (value : Bool)
  | integer (value : Int)
  | double (value : Double)
  | string (value : String)
  | array (items : List Json)
  | object (fields : List (String × Json))
  deriving Inhabited, Repr

namespace Json

/-- The kinds of values. -/
inductive Kind where
  | null
  | bool
  | number
  | string
  | list
  | map
  deriving DecidableEq, Repr

/-- The kind of a value. -/
def kind : Json → Kind
  | .null => .null
  | .bool _ => .bool
  | .integer _ => .number
  | .double _ => .number
  | .string _ => .string
  | .array _ => .list
  | .object _ => .map

/-- The word for a kind in messages. -/
def Kind.name : Kind → String
  | .null => "null"
  | .bool => "bool"
  | .number => "number"
  | .string => "string"
  | .list => "list"
  | .map => "map"

/-! ## Fields -/

/-- Sorted fields with `name` set to `value`. -/
def setField (name : String) (value : Json) : List (String × Json) → List (String × Json)
  | [] => [(name, value)]
  | (other, held) :: rest =>
    if name = other then (name, value) :: rest
    else if name < other then (name, value) :: (other, held) :: rest
    else (other, held) :: setField name value rest

/-- The object with the given fields. Of two with one name the later counts. -/
def ofFields (fields : List (String × Json)) : Json :=
  .object (fields.foldl (fun sorted f => setField f.1 f.2 sorted) [])

/-- The field of an object. -/
def field? (name : String) : Json → Option Json
  | .object fields => fields.lookup name
  | _ => none

/-! ## Reading a value as one kind -/

def text? : Json → Option String
  | .string s => some s
  | _ => none

def bool? : Json → Option Bool
  | .bool b => some b
  | _ => none

def items? : Json → Option (List Json)
  | .array items => some items
  | _ => none

def fields? : Json → Option (List (String × Json))
  | .object fields => some fields
  | _ => none

/-- An integer in the range of a signed word of 64 bits. -/
def signed64? : Json → Option Int
  | .integer n => if Text.inSigned64 n then some n else none
  | _ => none

/-- A natural number in the range of an unsigned word of the given width. -/
def unsigned? (width : Nat) : Json → Option Nat
  | .integer (.ofNat n) => if Text.inUnsigned width n then some n else none
  | _ => none

end Json

end ChartStream
