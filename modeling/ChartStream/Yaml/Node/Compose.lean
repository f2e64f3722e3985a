import ChartStream.Yaml.Node.Basic
import ChartStream.Yaml.Token.Scan

/-!
# The document that tokens make up

The grammar of documents over tokens. Where the grammar leaves room, a node that is not written is a
blank scalar. Where it is not kept to, or the tokens end, the document breaks off. Main definition:
`Tree.read`.
-/

namespace ChartStream.Yaml

set_option autoImplicit false

/-- Where a node stands. -/
inductive Context where
  | flow
  | block
  /-- As a key or value of a block mapping, where a sequence need not be indented. -/
  | entry
  deriving DecidableEq, Repr

/-- The state of composing: the tokens that are left, what the handles of tags stand for, and the
numbers of the anchors that are known by name. -/
structure Composer where
  tokens : List Token
  handles : List (List UInt8 × List UInt8) := []
  anchors : List (String × Nat) := []

/-- A part of a document and the state after it, unless the document breaks off in it. -/
structure Part (α : Type) where
  value : α
  next : Option Composer

namespace Part

variable {α β : Type}

def map (f : α → β) (p : Part α) : Part β :=
  ⟨f p.value, p.next⟩

/-- A node that cannot be read. -/
def broken : Part Node :=
  ⟨.broken, none⟩

/-- An item and those after it. If the document breaks off in the item, `mark` follows it. -/
def cons (mark : α) (first : Part α) (rest : Composer → Part (List α)) : Part (List α) :=
  match first.next with
  | none => ⟨[first.value, mark], none⟩
  | some s => (rest s).map (first.value :: ·)

/-- Items of a list. -/
def consItem : Part Node → (Composer → Part (List Node)) → Part (List Node) :=
  cons .broken

/-- Entries of a mapping. -/
def consEntry :
    Part (Node × Node) → (Composer → Part (List (Node × Node))) → Part (List (Node × Node)) :=
  cons (.broken, .broken)

/-- A key and its value. -/
def entry (key : Part Node) (value : Composer → Part Node) : Part (Node × Node) :=
  match key.next with
  | none => ⟨(key.value, .broken), none⟩
  | some s => (value s).map fun value => (key.value, value)

/-- No further items. -/
def noItems (s : Composer) : Part (List α) :=
  ⟨[], some s⟩

/-- A list that breaks off. -/
def brokenItems : Part (List Node) :=
  ⟨[.broken], none⟩

/-- A mapping that breaks off. -/
def brokenEntries : Part (List (Node × Node)) :=
  ⟨[(.broken, .broken)], none⟩

end Part

namespace Composer

/-- The state with other tokens left. -/
def moveTo (s : Composer) (tokens : List Token) : Composer :=
  { s with tokens := tokens }

/-- Whether one of some tokens is next. -/
def sees (s : Composer) (tokens : List Token) : Bool :=
  s.tokens.head?.any tokens.contains

/-! ## Properties -/

/-- A tag with its handle resolved. -/
def resolveTag? (s : Composer) (handle suffix : List UInt8) : Option (List UInt8) :=
  if handle.isEmpty then some suffix else (s.handles.lookup handle).map (· ++ suffix)

/-- The number of a new anchor, which is how many names there were, and the state with its name
bound to it. -/
def bindAnchor (s : Composer) (name : String) : Nat × Composer :=
  let number := s.anchors.length
  let others := s.anchors.filter fun a => a.1 != name
  (number, { s with anchors := (name, number) :: others })

/-- Reads an anchor, if there is one. -/
def readAnchor (p : Properties) (s : Composer) : Properties × Composer :=
  match s.tokens with
  | .anchor name :: rest =>
    let (number, s) := (s.moveTo rest).bindAnchor name
    ({ p with anchor := some number }, s)
  | _ => (p, s)

/-- Reads a tag, if there is one. -/
def readTag? (p : Properties) (s : Composer) : Option (Properties × Composer) :=
  match s.tokens with
  | .tag handle suffix :: rest =>
    (s.resolveTag? handle suffix).map fun tag => ({ p with tag := some tag }, s.moveTo rest)
  | _ => some (p, s)

/-- Reads the properties of a node, in either order. -/
def readProperties? (s : Composer) : Option (Properties × Composer) :=
  let (p, s) := readAnchor {} s
  match readTag? p s with
  | none => none
  | some (p, s) => some (if p.anchor.isNone then readAnchor p s else (p, s))

/-- The node that stands before a token where nothing is written. -/
def blank (p : Properties) (s : Composer) : Part Node :=
  if s.tokens.isEmpty then .broken else ⟨.scalar p .plain "", some s⟩

/-- A node without contents, which needs properties to be one. -/
def bare (p : Properties) (s : Composer) : Part Node :=
  if p.anchor.isNone && p.tag.isNone then .broken else blank p s

/-- The end of a mapping that shows at the token after it. -/
def noEntries (s : Composer) : Part (List (Node × Node)) :=
  if s.tokens.isEmpty then .brokenEntries else .noItems s

/-- The state after the comma before an item; the first one has none. -/
def skipComma? (first : Bool) (s : Composer) : Option Composer :=
  match s.tokens with
  | .flowEntry :: rest => if first then some s else some (s.moveTo rest)
  | _ => if first then some s else none

/-! ## Nodes -/

mutual

/-- Reads a node. -/
def node : Nat → Context → Composer → Part Node
  | 0, _, _ => .broken
  | fuel + 1, context, s =>
    match s.tokens with
    | .alias name :: rest =>
      match s.anchors.lookup name with
      | some number => ⟨.alias number, some (s.moveTo rest)⟩
      | none => .broken
    | _ =>
      match s.readProperties? with
      | none => .broken
      | some (p, s) =>
        match s.tokens with
        | .scalar style text :: rest => ⟨.scalar p style text, some (s.moveTo rest)⟩
        | .flowSequenceStart :: rest => (flowItems fuel true (s.moveTo rest)).map (.sequence p)
        | .flowMappingStart :: rest => (flowEntries fuel true (s.moveTo rest)).map (.mapping p)
        | .blockSequenceStart :: rest =>
          if context = .flow then bare p s
          else (blockItems fuel (s.moveTo rest)).map (.sequence p)
        | .blockMappingStart :: rest =>
          if context = .flow then bare p s
          else (blockEntries fuel (s.moveTo rest)).map (.mapping p)
        | .blockEntry :: _ =>
          if context = .entry then (levelItems fuel s).map (.sequence p) else bare p s
        | _ => bare p s

/-- Reads a node, which is blank if one of `stops` is next. -/
def nodeBefore (stops : List Token) : Nat → Context → Composer → Part Node
  | 0, _, _ => .broken
  | fuel + 1, context, s => if s.sees stops then blank {} s else node fuel context s

/-- Reads a value with its mark, or a blank one without. -/
def value (stops : List Token) : Nat → Context → Composer → Part Node
  | 0, _, _ => .broken
  | fuel + 1, context, s =>
    match s.tokens with
    | .value :: rest => nodeBefore stops fuel context (s.moveTo rest)
    | _ => blank {} s

/-- Reads the items of a block sequence up to its end. -/
def blockItems : Nat → Composer → Part (List Node)
  | 0, _ => .brokenItems
  | fuel + 1, s =>
    match s.tokens with
    | .blockEnd :: rest => .noItems (s.moveTo rest)
    | .blockEntry :: rest =>
      (nodeBefore [.blockEntry, .blockEnd] fuel .block (s.moveTo rest)).consItem fun s =>
        blockItems fuel s
    | _ => .brokenItems

/-- Reads the items of a block sequence at the indentation of the mapping around it, which ends where
there is no further item. -/
def levelItems : Nat → Composer → Part (List Node)
  | 0, _ => .brokenItems
  | fuel + 1, s =>
    match s.tokens with
    | [] => .brokenItems
    | .blockEntry :: rest =>
      (nodeBefore [.blockEntry, .key, .value, .blockEnd] fuel .block (s.moveTo rest)).consItem
        fun s => levelItems fuel s
    | _ => .noItems s

/-- Reads the entries of a block mapping up to its end. -/
def blockEntries : Nat → Composer → Part (List (Node × Node))
  | 0, _ => .brokenEntries
  | fuel + 1, s =>
    match s.tokens with
    | .blockEnd :: rest => .noItems (s.moveTo rest)
    | .key :: rest =>
      ((nodeBefore [.key, .value, .blockEnd] fuel .entry (s.moveTo rest)).entry fun s =>
        value [.key, .value, .blockEnd] fuel .entry s).consEntry fun s => blockEntries fuel s
    | _ => .brokenEntries

/-- Reads the items of a sequence in brackets. An item with a key is a mapping of one entry. -/
def flowItems : Nat → Bool → Composer → Part (List Node)
  | 0, _, _ => .brokenItems
  | fuel + 1, first, s =>
    if s.sees [.flowSequenceEnd] then .noItems (s.moveTo s.tokens.tail)
    else
      match skipComma? first s with
      | none => .brokenItems
      | some s =>
        match s.tokens with
        | .flowSequenceEnd :: rest => .noItems (s.moveTo rest)
        | .key :: rest => (pair fuel (s.moveTo rest)).consItem fun s => flowItems fuel false s
        | _ => (node fuel .flow s).consItem fun s => flowItems fuel false s

/-- Reads a mapping of one entry without braces inside brackets. Where a mark stands in place of the
key, it is skipped with it. -/
def pair : Nat → Composer → Part Node
  | 0, _ => .broken
  | fuel + 1, s =>
    let key : Part Node := if s.sees [.value, .flowEntry, .flowSequenceEnd]
      then ⟨Node.blank, some (s.moveTo s.tokens.tail)⟩ else node fuel .flow s
    ((key.entry fun s => value [.flowEntry, .flowSequenceEnd] fuel .flow s).consEntry
      noEntries).map (.mapping {})

/-- Reads the entries of a mapping in braces. -/
def flowEntries : Nat → Bool → Composer → Part (List (Node × Node))
  | 0, _, _ => .brokenEntries
  | fuel + 1, first, s =>
    if s.sees [.flowMappingEnd] then .noItems (s.moveTo s.tokens.tail)
    else
      match skipComma? first s with
      | none => .brokenEntries
      | some s =>
        match s.tokens with
        | .flowMappingEnd :: rest => .noItems (s.moveTo rest)
        | .key :: rest =>
          ((nodeBefore [.value, .flowEntry, .flowMappingEnd] fuel .flow (s.moveTo rest)).entry
            fun s => value [.flowEntry, .flowMappingEnd] fuel .flow s).consEntry fun s =>
              flowEntries fuel false s
        | _ =>
          ((node fuel .flow s).entry (blank {})).consEntry fun s => flowEntries fuel false s

end

/-! ## Documents -/

/-- The directives before a document, each of which may stand there once, and the tokens after
them. -/
def directives? (version : Bool) (handles : List (List UInt8 × List UInt8)) :
    List Token → Option (List (List UInt8 × List UInt8) × List Token)
  | .version major minor :: rest =>
    if version || major != 1 || !(minor == 1 || minor == 2) then none
    else directives? true handles rest
  | .tagDirective handle uri :: rest =>
    if (handles.lookup handle).isSome then none
    else directives? version ((handle, uri) :: handles) rest
  | tokens => some (handles, tokens)

/-- The handles that need no directive. -/
def standardHandles : List (List UInt8 × List UInt8) :=
  [(asciiBytes "!".toList, asciiBytes "!".toList),
    (asciiBytes "!!".toList, asciiBytes "tag:yaml.org,2002:".toList)]

/-- The state at the start of a document after its directives and its mark, which it needs if it has
directives, and whether there is a mark. -/
def start? (tokens : List Token) : Option (Composer × Bool) :=
  match directives? false [] tokens with
  | none => none
  | some (handles, rest) =>
    let s : Composer := { tokens := rest, handles := handles ++ standardHandles }
    match rest with
    | .documentStart :: rest => some (s.moveTo rest, true)
    | _ => if rest.length < tokens.length then none else some (s, false)

/-- Whether a document ends before a token. -/
def endsDocument : Token → Bool
  | .version _ _ => true
  | .tagDirective _ _ => true
  | .documentStart => true
  | .documentEnd => true
  | .streamEnd => true
  | _ => false

/-- The node of a document. After a mark it may be blank. -/
def document (s : Composer) (marked : Bool) : Part Node :=
  if marked && s.tokens.head?.any endsDocument then blank {} s
  else node (3 * s.tokens.length + 3) .block s

/-- Whether no tokens are left but marks of the end. -/
def atEnd (s : Composer) : Bool :=
  s.tokens.dropWhile (· == .documentEnd) == [.streamEnd]

end Composer

namespace Tree

/-- The document that tokens make up. A second document is an error. -/
def ofTokens (tokens : List Token) : Tree :=
  if tokens == [.streamEnd] then ⟨none, true⟩
  else
    match Composer.start? tokens with
    | none => ⟨some .broken, false⟩
    | some (s, marked) =>
      let root := s.document marked
      ⟨some root.value, root.next.any Composer.atEnd⟩

/-- The document of a text. -/
def read (text : String) : Tree :=
  ofTokens (Token.scan text)

end Tree

end ChartStream.Yaml
