import ChartStream.Config.Document
import ChartStream.Yaml.Meaning
import ChartStream.Yaml.Node.Compose

/-!
# Settings in a YAML document

A place in a document can be read as a setting. Aliases are followed when they are met; nesting is
limited, and so is the number of aliases that are followed in one document. A setting that takes a text
takes any scalar as it is written; one that takes a list or mapping takes an empty plain scalar for an
empty one. Main definitions: `Place`, `Tree.decode`.
-/

namespace ChartStream.Yaml

set_option autoImplicit false

open Config

/-- A place in a document. -/
structure Place where
  /-- The nodes with an anchor, by its number. -/
  anchored : List (Nat × Node)
  /-- How many lists and mappings may be inside of each other from here on. -/
  depth : Nat
  /-- The node, if the document has one. -/
  node : Option Node

namespace Place

/-- The place of a node one level deeper. -/
def inside (p : Place) (node : Node) : Place :=
  { p with depth := p.depth - 1, node := some node }

/-- Follows one of the aliases that may still be followed. -/
def follow (anchored : List (Nat × Node)) (number : Nat) : Reading Node := do
  match ← get with
  | 0 => Reading.refuse
  | left + 1 =>
    set left
    Reading.ofOption (anchored.lookup number)

/-- The node of a place, for an alias the one that it stands for. -/
def target (p : Place) : Reading (Option Node) :=
  match p.node with
  | some (.alias number) => some <$> follow p.anchored number
  | node => pure node

/-- Whether nothing is written at a node. -/
def isBlank : Option Node → Bool
  | some (.scalar _ style text) => style = .plain && text.isEmpty
  | some _ => false
  | none => true

/-! ## Scalars -/

/-- The text of a scalar as it is written. -/
def text (p : Place) : Reading String := do
  match ← p.target with
  | some (.scalar _ _ text) => return text
  | _ => Reading.refuse

/-- The text of a scalar that may be a truth value or a number: a plain one, or a literal one with a
tag that says so. -/
def plainText? (tagName : String) : Option Node → Option String
  | some (.scalar properties style text) =>
    if style = .plain then some text
    else if style = .literal && properties.tag == some (Meaning.standardTag tagName) then some text
    else none
  | _ => none

def flag (p : Place) : Reading Bool := do
  Reading.ofOption ((plainText? "bool" (← p.target)).bind Meaning.flag?)

/-- A number that fits an unsigned word of some width. -/
def unsigned (width : Nat) (p : Place) : Reading Nat := do
  Reading.ofOption
    (((plainText? "int" (← p.target)).bind Meaning.natural?).filter (Text.inUnsigned width))

/-- The text of a plain scalar that may be left out. A tag makes it a text, unless it is the one of
null. -/
def optionalPlain? (tag : Option (List UInt8)) (text : String) : Option (Option String) :=
  match tag with
  | none => some (if text.isEmpty || Meaning.isNull text then none else some text)
  | some tag =>
    if tag != Meaning.standardTag "null" then some (some text)
    else if Meaning.isNull text then some none
    else none

/-- A text that may be left out. -/
def optionalText (p : Place) : Reading (Option String) := do
  match ← p.target with
  | none => return none
  | some (.scalar properties style text) =>
    if style = .plain then Reading.ofOption (optionalPlain? properties.tag text)
    else return some text
  | some _ => Reading.refuse

/-! ## Lists and mappings -/

/-- Refuses a list or mapping that is nested too deep. -/
def checkDepth (p : Place) : Reading Unit :=
  if p.depth = 0 then Reading.refuse else pure ()

/-- The items of a list. -/
def items (p : Place) : Reading (List Place) := do
  match ← p.target with
  | some (.sequence _ items) =>
    p.checkDepth
    return items.map p.inside
  | node => if isBlank node then return [] else Reading.refuse

/-- The entries of a mapping. -/
def entries (p : Place) : Reading (List (Place × Place)) := do
  match ← p.target with
  | some (.mapping _ entries) =>
    p.checkDepth
    return entries.map fun e => (p.inside e.1, p.inside e.2)
  | node => if isBlank node then return [] else Reading.refuse

/-! ## Values of any kind -/

/-- Refuses a list or mapping with a tag for some application. -/
def checkTag (p : Properties) : Reading Unit :=
  if p.tag.any Meaning.isLocal then Reading.refuse else pure ()

/-- The value of a node. Of a list or mapping only the kind is told, but all of it has to be
readable. -/
def contentOf (anchored : List (Nat × Node)) : Nat → Node → Reading Json
  | depth, node => do
    let node ← match node with
      | .alias number => follow anchored number
      | node => pure node
    match node, depth with
    | .scalar p style text, _ => Reading.ofOption (Meaning.ofScalar? p.tag style text)
    | .sequence p items, depth + 1 =>
      checkTag p
      items.forM fun item => do let _ ← contentOf anchored depth item
      return .array []
    | .mapping p entries, depth + 1 =>
      checkTag p
      entries.forM fun e => do
        let _ ← contentOf anchored depth e.1
        let _ ← contentOf anchored depth e.2
      return .object []
    | _, _ => Reading.refuse

/-- The value of a place. -/
def content (p : Place) : Reading Json :=
  match p.node with
  | some node => contentOf p.anchored p.depth node
  | none => pure .null

/-- Passes over a place, which need not be readable but may not break off. -/
def skip (p : Place) : Reading Unit :=
  if p.node.all Node.isWhole then pure () else Reading.refuse

end Place

instance : Document Place where
  text := Place.text
  flag := Place.flag
  unsigned := Place.unsigned
  optionalText := Place.optionalText
  items := Place.items
  fields := fun _ => Place.entries
  entries := Place.entries
  content := Place.content
  skip := Place.skip

namespace Tree

/-- How deep lists and mappings may be inside of each other. -/
def maxDepth : Nat := 128

/-- How many aliases may be followed for each part of a document. -/
def aliasesPerPart : Nat := 100

/-- The place of the whole document. -/
def place (t : Tree) : Place :=
  { anchored := t.anchored, depth := maxDepth, node := t.root }

/-- What a document is read as. Only then it counts whether the text goes on after it, or has an
error. -/
def decode {α : Type} (t : Tree) (read : Place → Reading α) : Except Flaw α := do
  let value ← (read t.place).result (aliasesPerPart * t.size)
  if t.whole then return value else throw .unfit

end Tree

end ChartStream.Yaml
