import ChartStream.Yaml.Token.Basic

/-!
# Nodes of a YAML document

A document is a tree of scalars, lists and mappings. An alias keeps the number of its anchor and is not
replaced by what it stands for, so a node may refer to itself. A text with an error in it still has a
tree, in which a broken node stands where the text cannot be read on: settings before it are read.
-/

namespace ChartStream.Yaml

set_option autoImplicit false

/-- What may stand before a node: the number of its anchor, and its tag. -/
structure Properties where
  anchor : Option Nat := none
  tag : Option (List UInt8) := none
  deriving DecidableEq, Inhabited, Repr

/-- A node. A list or mapping in which the text breaks off, inside of its last part or after it, ends
with `broken`. -/
inductive Node where
  | scalar (properties : Properties) (style : Style) (text : String)
  | sequence (properties : Properties) (items : List Node)
  | mapping (properties : Properties) (entries : List (Node × Node))
  | alias (anchor : Nat)
  | broken
  deriving Inhabited, Repr

namespace Node

/-- The node that stands where nothing is written. -/
def blank : Node := .scalar {} .plain ""

/-- The number of the anchor of a node. -/
def anchor? : Node → Option Nat
  | .scalar p _ _ => p.anchor
  | .sequence p _ => p.anchor
  | .mapping p _ => p.anchor
  | .alias _ => none
  | .broken => none

/-- The node itself, if it has an anchor, under its number. -/
def ownAnchor (node : Node) : List (Nat × Node) :=
  match node.anchor? with
  | some number => [(number, node)]
  | none => []

mutual

/-- The nodes with an anchor in the order in which they start. -/
def anchored : Node → List (Nat × Node)
  | .sequence p items => ownAnchor (.sequence p items) ++ anchoredItems items
  | .mapping p entries => ownAnchor (.mapping p entries) ++ anchoredEntries entries
  | node => ownAnchor node

def anchoredItems : List Node → List (Nat × Node)
  | [] => []
  | item :: rest => anchored item ++ anchoredItems rest

def anchoredEntries : List (Node × Node) → List (Nat × Node)
  | [] => []
  | (key, value) :: rest => anchored key ++ anchored value ++ anchoredEntries rest

end

/-- Whether the text of a node does not break off. -/
def isWhole : Node → Bool
  | .broken => false
  | .sequence _ items => !(items.getLast? matches some .broken)
  | .mapping _ entries => !(entries.getLast? matches some (.broken, _))
  | _ => true

mutual

/-- The number of scalars, aliases, and starts and ends of lists and mappings. -/
def size : Node → Nat
  | .broken => 0
  | .sequence _ items => sizeItems items + 1
  | .mapping _ entries => sizeEntries entries + 1
  | _ => 1

/-- The number in items, with the end of their list if there is one. -/
def sizeItems : List Node → Nat
  | [] => 1
  | .broken :: _ => 0
  | item :: rest => size item + sizeItems rest

/-- The number in entries, with the end of their mapping if there is one. -/
def sizeEntries : List (Node × Node) → Nat
  | [] => 1
  | (.broken, _) :: _ => 0
  | (key, value) :: rest => size key + size value + sizeEntries rest

end

end Node

/-! ## Documents -/

/-- The document of a text, which has none if nothing is written in it. The text is `whole` if it ends
with the document and has no error. -/
structure Tree where
  root : Option Node
  whole : Bool

namespace Tree

/-- The nodes with an anchor. Of those with one number the last one is the first here. -/
def anchored (t : Tree) : List (Nat × Node) :=
  match t.root with
  | some node => node.anchored.reverse
  | none => []

/-- The number of scalars, aliases, and starts and ends of lists and mappings. -/
def size (t : Tree) : Nat :=
  match t.root with
  | some node => node.size
  | none => 1

end Tree

end ChartStream.Yaml
