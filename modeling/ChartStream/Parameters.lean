import ChartStream.Json.Writer

/-!
# Parameter lists

Charts, dimensions and variables are declared by loosely typed lists such as
`["id", "name", "absolute", 1, 1000]`. Here are the errors of such declarations and the reading of
single slots.
-/

namespace ChartStream

set_option autoImplicit false

/-- What a parameter list declares. -/
inductive Item where
  | chart
  | dimension
  | variable
  deriving DecidableEq, Repr

/-- The word for an item in messages. -/
def Item.name : Item → String
  | .chart => "chart"
  | .dimension => "dimension"
  | .variable => "variable"

/-- Why a declaration is refused. A collector that makes such a declaration is never retried. -/
inductive DeclarationError where
  | duplicate (item : Item) (id : String)
  | notAList (item : Item) (found : Json.Kind)
  | tooShort (item : Item) (required given : Nat)
  | emptyId (item : Item) (slot : Nat)
  | refused (item : Item) (reason : String)
  deriving DecidableEq, Repr

/-- The text of an error. -/
def DeclarationError.message : DeclarationError → String
  | .duplicate item id => "duplicate " ++ item.name ++ " '" ++ id ++ "'"
  | .notAList item found => item.name ++ " parameters must be a list, got " ++ found.name
  | .tooShort item required given =>
    item.name ++ " parameters: expected at least " ++ toString required ++ " fields, got "
      ++ toString given
  | .emptyId item slot => item.name ++ " parameters: field " ++ toString slot ++ " (id) is empty"
  | .refused item reason => item.name ++ " parameters: " ++ reason

/-- The slots of a parameter list. -/
structure Parameters where
  slots : List Json

namespace Parameters

/-- The slots of a value that has to be a list of at least `required` of them. -/
def read (item : Item) (required : Nat) : Json → Except DeclarationError Parameters
  | .array slots =>
    if slots.length < required then .error (.tooShort item required slots.length) else .ok ⟨slots⟩
  | value => .error (.notAList item value.kind)

/-- A value as text: nothing for `null` and `false`, a string itself, anything else its JSON. -/
def textOf : Json → String
  | .null => ""
  | .bool false => ""
  | .string s => s
  | value => value.write

/-- A slot as text. A missing slot is empty. -/
def text (p : Parameters) (slot : Nat) : String :=
  match p.slots[slot]? with
  | some value => textOf value
  | none => ""

/-- A slot that holds an integer of 64 bits. -/
def integer? (p : Parameters) (slot : Nat) : Option Int :=
  p.slots[slot]?.bind Json.signed64?

/-- A slot as an id, which is not empty. -/
def id (p : Parameters) (item : Item) (slot : Nat) : Except DeclarationError String :=
  let text := p.text slot
  if text.isEmpty then .error (.emptyId item slot) else .ok text

end Parameters

end ChartStream
