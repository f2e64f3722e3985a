import ChartStream.Text.Integer
import ChartStream.Yaml.Cursor

/-!
# Block scalars

Lines that are indented more deeply than what is around them. In a literal block they stay as they are;
in a folded one, a line break between two lines that do not start with white space is a space.
-/

namespace ChartStream.Yaml

set_option autoImplicit false

/-- What is kept of the line breaks at the end of a block. -/
inductive Chomping where
  | strip
  | clip
  | keep
  deriving DecidableEq, Repr

/-- The marks after the first one of a block scalar. -/
structure BlockHeader where
  chomping : Chomping := .clip
  /-- How much deeper than its surroundings the block is, if that is given. -/
  increment : Option Nat := none

namespace BlockHeader

/-- Reads the mark of the chomping, if there is one. -/
def chomping? (h : BlockHeader) (c : Cursor) : Option (BlockHeader × Cursor) :=
  if c.sees '+' then some ({ h with chomping := .keep }, c.skip 1)
  else if c.sees '-' then some ({ h with chomping := .strip }, c.skip 1)
  else none

/-- Reads the increment, if there is one; a zero is an error. -/
def increment? (h : BlockHeader) (c : Cursor) : Option (BlockHeader × Cursor) :=
  match (c.peek? 0).bind Text.digit? with
  | some 0 => none
  | some n => some ({ h with increment := some n }, c.skip 1)
  | none => some (h, c)

/-- Reads the marks in either order. -/
def read? (c : Cursor) : Option (BlockHeader × Cursor) :=
  match chomping? {} c with
  | some (h, c) => h.increment? c
  | none =>
    match increment? {} c with
    | none => none
    | some (h, after) =>
      if h.increment.isSome then some ((h.chomping? after).getD (h, after)) else some (h, after)

end BlockHeader

/-- The indentation and the empty lines before a line of a block. -/
structure BlockIndent where
  breaks : List Char := []
  deepest : Nat := 0

/-- Reads indentation and empty lines. As long as the indentation of the block is not known, `indent`
is zero and all spaces count. -/
def blockIndent? (indent : Nat) : Nat → BlockIndent → Cursor → Option (BlockIndent × Cursor)
  | 0, _, _ => none
  | fuel + 1, b, c =>
    let spaces := (c.rest.takeWhile (· == ' ')).length
    let c := c.skip (if indent = 0 then spaces else min spaces (indent - c.column))
    let b := { b with deepest := max b.deepest c.column }
    if (indent = 0 || c.column < indent) && c.sees '\t' then none
    else if c.atBreak then
      let (text, after) := c.readBreak
      blockIndent? indent fuel { b with breaks := b.breaks ++ text } after
    else some (b, c)

/-- A block on its way: the text, the last line break and the empty lines that wait to be added, and
whether the last line started with a space. -/
structure BlockText where
  read : List Char := []
  lastBreak : List Char := []
  emptyLines : List Char := []
  spaced : Bool := false

/-- The text before a further line, which starts with a space or not. In a folded block a line break
between two lines that do not is a space, or nothing before empty lines. -/
def BlockText.joined (folded : Bool) (b : BlockText) (spaced : Bool) : List Char :=
  let first :=
    if folded && b.lastBreak == ['\n'] && !b.spaced && !spaced then
      if b.emptyLines.isEmpty then [' '] else []
    else b.lastBreak
  b.read ++ first ++ b.emptyLines

/-- Reads the lines of a block. -/
def blockLines? (folded : Bool) (indent : Nat) : Nat → BlockText → Cursor → Option (BlockText × Cursor)
  | 0, _, _ => none
  | fuel + 1, b, c =>
    if c.column == indent && !c.atEnd then
      let spaced := c.atSpace
      let before := b.joined folded spaced
      let (line, c) := c.readWhile fun char => !isBreak char
      let (lastBreak, c) := c.readBreak
      match blockIndent? indent (c.rest.length + 1) {} c with
      | none => none
      | some (empty, c) =>
        blockLines? folded indent fuel ⟨before ++ line, lastBreak, empty.breaks, spaced⟩ c
    else some (b, c)

/-- Reads a block scalar whose first mark has been read, inside a block of indentation `parent`, which
is negative at the top. -/
def block? (folded : Bool) (parent : Int) (c : Cursor) : Option (List Char × Cursor) :=
  match BlockHeader.read? c with
  | none => none
  | some (h, c) =>
    let c := (c.skipWhile isSpace).skipComment
    if !(c.atEnd || c.atBreak) then none
    else
      let c := c.skipBreak
      let given := match h.increment with
        | some n => (max parent 0).toNat + n
        | none => 0
      match blockIndent? given (c.rest.length + 1) {} c with
      | none => none
      | some (first, c) =>
        let indent := if given = 0 then max first.deepest (max (parent + 1) 1).toNat else given
        match blockLines? folded indent (c.rest.length + 1) { emptyLines := first.breaks } c with
        | none => none
        | some (b, c) =>
          let tail := match h.chomping with
            | .strip => []
            | .clip => b.lastBreak
            | .keep => b.lastBreak ++ b.emptyLines
          some (b.read ++ tail, c)

end ChartStream.Yaml
