import ChartStream.Yaml.Scalar.Block
import ChartStream.Yaml.Scalar.Plain
import ChartStream.Yaml.Scalar.Quoted
import ChartStream.Yaml.Token.Mark

/-!
# The tokens of a text

Whether a text is the key of a mapping shows at the colon after it: its place is kept, and the token of
the key is put in there afterwards. Until then the tokens from that place on are held back, so of a text
with an error less is read than stands before the error. Main definition: `Token.scan`.
-/

namespace ChartStream.Yaml

set_option autoImplicit false

/-- A place where the key of a mapping may have started. It has to be one if it is `required`. -/
structure KeyPlace where
  required : Bool
  /-- How many tokens come before it. -/
  token : Nat
  index : Nat
  line : Nat
  column : Nat

/-- The state of scanning. -/
structure Scanner where
  cursor : Cursor
  tokens : Array Token := #[]
  /-- How many brackets and braces are open. -/
  flowLevel : Nat := 0
  /-- The column of the innermost block, negative outside of all. -/
  indent : Int := -1
  outerIndents : List Int := []
  /-- Whether a key may start here. -/
  keyAllowed : Bool := true
  /-- The possible key of the innermost bracket, or of the block outside of all. -/
  key : Option KeyPlace := none
  outerKeys : List (Option KeyPlace) := []

namespace Scanner

def push (s : Scanner) (token : Token) : Scanner :=
  { s with tokens := s.tokens.push token }

/-- Puts a token before those from a number on. -/
def insert (s : Scanner) (number : Nat) (token : Token) : Scanner :=
  { s with tokens := s.tokens.insertIdxIfInBounds number token }

/-- The state with the cursor some characters ahead. -/
def skip (s : Scanner) (count : Nat) : Scanner :=
  { s with cursor := s.cursor.skip count }

def inFlow (s : Scanner) : Bool :=
  s.flowLevel > 0

/-! ## Indentation -/

/-- Opens a block at a column that is deeper than the innermost one. `opening` is put before the
tokens from `number` on. -/
def openBlock (s : Scanner) (column number : Nat) (opening : Token) : Scanner :=
  if s.inFlow || s.indent ≥ Int.ofNat column then s
  else
    { s.insert number opening with
      indent := column
      outerIndents := s.indent :: s.outerIndents }

/-- Closes the blocks deeper than a column. -/
def closeBlocks (column : Int) (s : Scanner) : List Int → Scanner
  | [] => { s with outerIndents := [] }
  | outer :: rest =>
    if s.indent > column then closeBlocks column { s.push .blockEnd with indent := outer } rest
    else { s with outerIndents := outer :: rest }

/-- Closes the blocks that end before a column. Inside of brackets columns do not count. -/
def unwind (s : Scanner) (column : Int) : Scanner :=
  if s.inFlow then s else closeBlocks column s s.outerIndents

/-! ## Keys -/

/-- Forgets the possible key. It is an error if there has to be one. -/
def dropKey? (s : Scanner) : Option Scanner :=
  if s.key.any (·.required) then none else some { s with key := none }

/-- Takes note that a key may start here. -/
def noteKey? (s : Scanner) : Option Scanner :=
  if s.keyAllowed then
    s.dropKey?.map fun s =>
      { s with
        key := some {
          required := !s.inFlow && s.indent == Int.ofNat s.cursor.column
          token := s.tokens.size
          index := s.cursor.index
          line := s.cursor.line
          column := s.cursor.column } }
  else some s

/-- How long a key may be. -/
def maxKeyLength : Nat := 1024

/-- Whether a possible key is too far back to be one: on an earlier line, or too long. -/
def isStale (c : Cursor) (k : KeyPlace) : Bool :=
  k.line < c.line || k.index + maxKeyLength < c.index

/-- Forgets the possible keys that are too far back. -/
def dropStaleKeys? (s : Scanner) : Option Scanner :=
  let stale := fun (k : Option KeyPlace) => k.any (isStale s.cursor)
  let failed := fun (k : Option KeyPlace) => k.any fun k => k.required && isStale s.cursor k
  let fresh := fun (k : Option KeyPlace) => if stale k then none else k
  if failed s.key || s.outerKeys.any failed then none
  else some { s with key := fresh s.key, outerKeys := s.outerKeys.map fresh }

/-! ## Tokens -/

/-- Skips white space, line breaks and comments. Tabs count as white space where no key may
start. -/
def skipToToken (s : Scanner) : Nat → Scanner
  | 0 => s
  | fuel + 1 =>
    let c := s.cursor
    let c := if c.column == 0 && c.sees byteOrderMark then c.skip 1 else c
    let tabs := s.inFlow || !s.keyAllowed
    let c := (c.skipWhile fun char => char == ' ' || (tabs && char == '\t')).skipComment
    if c.atBreak then
      skipToToken { s with cursor := c.skipBreak, keyAllowed := s.keyAllowed || !s.inFlow } fuel
    else { s with cursor := c }

/-- The end of the text, where all blocks end, and the last line too. -/
def fetchEnd? (s : Scanner) : Option Scanner :=
  let s := { s with cursor := s.cursor.closeLine }
  (s.unwind (-1)).dropKey?.map fun s => { s.push .streamEnd with keyAllowed := false }

/-- A directive or the mark of a document, where all blocks end. -/
def fetchOutside? (s : Scanner) (read : Cursor → Option (Token × Cursor)) : Option Scanner :=
  match (s.unwind (-1)).dropKey? with
  | none => none
  | some s => (read s.cursor).map fun r => { s.push r.1 with keyAllowed := false, cursor := r.2 }

def fetchFlowStart? (s : Scanner) (token : Token) : Option Scanner :=
  s.noteKey?.map fun s =>
    { (s.push token).skip 1 with
      flowLevel := s.flowLevel + 1
      keyAllowed := true
      key := none
      outerKeys := s.key :: s.outerKeys }

def fetchFlowEnd? (s : Scanner) (token : Token) : Option Scanner :=
  s.dropKey?.map fun s =>
    { (s.push token).skip 1 with
      flowLevel := s.flowLevel - 1
      keyAllowed := false
      key := s.outerKeys.head?.join
      outerKeys := s.outerKeys.tail }

def fetchFlowEntry? (s : Scanner) : Option Scanner :=
  s.dropKey?.map fun s => { (s.push .flowEntry).skip 1 with keyAllowed := true }

def fetchBlockEntry? (s : Scanner) : Option Scanner :=
  if !s.inFlow && !s.keyAllowed then none
  else
    (s.openBlock s.cursor.column s.tokens.size .blockSequenceStart).dropKey?.map fun s =>
      { (s.push .blockEntry).skip 1 with keyAllowed := true }

def fetchKey? (s : Scanner) : Option Scanner :=
  if !s.inFlow && !s.keyAllowed then none
  else
    (s.openBlock s.cursor.column s.tokens.size .blockMappingStart).dropKey?.map fun s =>
      { (s.push .key).skip 1 with keyAllowed := !s.inFlow }

/-- The colon before a value. If a key may have started on this line, it did. -/
def fetchValue? (s : Scanner) : Option Scanner :=
  match s.key with
  | some k =>
    let s := (s.insert k.token .key).openBlock k.column k.token .blockMappingStart
    some { (s.push .value).skip 1 with key := none, keyAllowed := false }
  | none =>
    if !s.inFlow && !s.keyAllowed then none
    else
      let s := s.openBlock s.cursor.column s.tokens.size .blockMappingStart
      some { (s.push .value).skip 1 with keyAllowed := !s.inFlow }

/-- A token that may start a key. -/
def fetchNode? (s : Scanner) (read : Cursor → Option (Token × Cursor)) : Option Scanner :=
  match s.noteKey? with
  | none => none
  | some s => (read s.cursor).map fun r => { s.push r.1 with keyAllowed := false, cursor := r.2 }

def fetchBlock? (s : Scanner) (folded : Bool) : Option Scanner :=
  match s.dropKey? with
  | none => none
  | some s =>
    (block? folded s.indent (s.cursor.skip 1)).map fun r =>
      let style : Style := if folded then .folded else .literal
      { s.push (.scalar style (String.ofList r.1)) with keyAllowed := true, cursor := r.2 }

def fetchPlain? (s : Scanner) : Option Scanner :=
  match s.noteKey? with
  | none => none
  | some s =>
    (plain? s.inFlow (s.indent + 1).toNat (s.cursor.rest.length + 1) [] {} s.cursor).map fun p =>
      { s.push (.scalar .plain (String.ofList p.text)) with
        keyAllowed := p.brokeLine
        cursor := p.after }

/-- Reads a quoted scalar whose opening quote is next. -/
def readQuoted? (double : Bool) (c : Cursor) : Option (Token × Cursor) :=
  (quoted? double (c.rest.length + 1) [] (c.skip 1)).map fun r =>
    (.scalar .quoted (String.ofList r.1), r.2)

/-- The marks that a plain scalar does not start with, unless something follows that makes it one. -/
def marks : List Char :=
  ['-', '?', ':', ',', '[', ']', '{', '}', '#', '&', '*', '!', '|', '>', '\'', '"', '%', '@', '\x60']

/-- Whether a plain scalar may start with a character that is followed by another. -/
def startsPlain (flow : Bool) (c : Cursor) (char : Char) : Bool :=
  !(marks.contains char || isSpace char || isBreak char)
    || (char == '-' && !c.seesClass 1 isSpace)
    || (!flow && (char == '?' || char == ':') && !c.wordEnds 1)

/-- Reads the token that starts with a character. -/
def fetchAt? (s : Scanner) (char : Char) : Option Scanner :=
  let c := s.cursor
  if c.column == 0 && char == '%' then s.fetchOutside? Token.directive?
  else if c.seesMark '-' then s.fetchOutside? fun c => some (.documentStart, c.skip 3)
  else if c.seesMark '.' then s.fetchOutside? fun c => some (.documentEnd, c.skip 3)
  else if char == '[' then s.fetchFlowStart? .flowSequenceStart
  else if char == '{' then s.fetchFlowStart? .flowMappingStart
  else if char == ']' then s.fetchFlowEnd? .flowSequenceEnd
  else if char == '}' then s.fetchFlowEnd? .flowMappingEnd
  else if char == ',' then s.fetchFlowEntry?
  else if char == '-' && c.wordEnds 1 then s.fetchBlockEntry?
  else if char == '?' && (s.inFlow || c.wordEnds 1) then s.fetchKey?
  else if char == ':' && (s.inFlow || c.wordEnds 1) then s.fetchValue?
  else if char == '*' then
    s.fetchNode? fun c => (Token.anchorName? c).map fun r => (.alias r.1, r.2)
  else if char == '&' then
    s.fetchNode? fun c => (Token.anchorName? c).map fun r => (.anchor r.1, r.2)
  else if char == '!' then s.fetchNode? (Token.tag? s.inFlow)
  else if char == '|' && !s.inFlow then s.fetchBlock? false
  else if char == '>' && !s.inFlow then s.fetchBlock? true
  else if char == '\'' then s.fetchNode? (readQuoted? false)
  else if char == '"' then s.fetchNode? (readQuoted? true)
  else if startsPlain s.inFlow c char then s.fetchPlain?
  else none

/-- Reads the next tokens. -/
def fetch? (s : Scanner) : Option Scanner :=
  match (s.skipToToken (s.cursor.rest.length + 1)).dropStaleKeys? with
  | none => none
  | some s =>
    let s := s.unwind s.cursor.column
    match s.cursor.rest.head? with
    | none => s.fetchEnd?
    | some char => s.fetchAt? char

/-- How many tokens stand fast, since no key can be put in before them. -/
def settled (s : Scanner) : Nat :=
  ((s.key :: s.outerKeys).filterMap fun k => k.map (·.token)).foldl min s.tokens.size

/-- Reads tokens up to the end of the text, or up to an error with those that stand fast until then. -/
def scan (s : Scanner) : Nat → Array Token
  | 0 => s.tokens.take s.settled
  | fuel + 1 =>
    match s.fetch?.bind dropStaleKeys? with
    | none => s.tokens.take s.settled
    | some next => if next.tokens.back? == some .streamEnd then next.tokens else scan next fuel

end Scanner

/-- The tokens of a text. The last one is its end, unless there is an error in it. -/
def Token.scan (text : String) : List Token :=
  let cs := text.toList
  if cs.all isAllowed then
    (Scanner.scan { cursor := { rest := cs } } (cs.length + 1)).toList
  else []

end ChartStream.Yaml
