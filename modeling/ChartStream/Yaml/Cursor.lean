/-!
# Positions in a YAML text

The characters of the format by class, and a place in a text with its line and column.
-/

namespace ChartStream.Yaml

set_option autoImplicit false

/-! ## Characters -/

/-- The characters that a text may hold. -/
def isAllowed (c : Char) : Bool :=
  let n := c.toNat
  n == 0x09 || n == 0x0A || n == 0x0D || (0x20 ≤ n && n ≤ 0x7E) || n == 0x85
    || (0xA0 ≤ n && n ≤ 0xD7FF) || (0xE000 ≤ n && n ≤ 0xFFFD) || 0x10000 ≤ n

/-- The characters that end a line. -/
def isBreak (c : Char) : Bool :=
  c == '\n' || c == '\r' || c == '\x85' || c == '\u2028' || c == '\u2029'

/-- The characters that separate words within a line. -/
def isSpace (c : Char) : Bool :=
  c == ' ' || c == '\t'

/-- The characters of anchors, handles and directive names. -/
def isWordChar (c : Char) : Bool :=
  ('0' ≤ c && c ≤ '9') || ('A' ≤ c && c ≤ 'Z') || ('a' ≤ c && c ≤ 'z') || c == '_' || c == '-'

/-- The mark that may stand at the start of a text. -/
def byteOrderMark : Char := '\ufeff'

/-! ## Places -/

/-- How many bytes characters take. -/
def byteLength (cs : List Char) : Nat :=
  cs.foldr (fun c bytes => c.utf8Size + bytes) 0

/-- A place in a text: the characters from there on, and how far it is from the start. -/
structure Cursor where
  rest : List Char
  /-- The bytes before it. -/
  index : Nat := 0
  line : Nat := 0
  column : Nat := 0

namespace Cursor

/-- The character some places ahead. -/
def peek? (c : Cursor) (ahead : Nat) : Option Char :=
  c.rest[ahead]?

/-- Whether a certain character is next. -/
def sees (c : Cursor) (char : Char) : Bool :=
  c.rest.head? == some char

/-- Whether a character of a class stands some places ahead. -/
def seesClass (c : Cursor) (ahead : Nat) (p : Char → Bool) : Bool :=
  (c.peek? ahead).any p

def atEnd (c : Cursor) : Bool :=
  c.rest.isEmpty

def atBreak (c : Cursor) : Bool :=
  c.seesClass 0 isBreak

def atSpace (c : Cursor) : Bool :=
  c.seesClass 0 isSpace

/-- Whether a word ends before the character some places ahead. -/
def wordEnds (c : Cursor) (ahead : Nat) : Bool :=
  (c.peek? ahead).all fun char => isSpace char || isBreak char

/-- The place after characters that do not end a line. -/
def skip (c : Cursor) (count : Nat) : Cursor :=
  { c with
    rest := c.rest.drop count
    index := c.index + byteLength (c.rest.take count)
    column := c.column + count }

/-- The place after the characters of a class at the start. -/
def skipWhile (p : Char → Bool) (c : Cursor) : Cursor :=
  c.skip (c.rest.takeWhile p).length

/-- The characters of a class at the start. -/
def readWhile (p : Char → Bool) (c : Cursor) : List Char × Cursor :=
  let read := c.rest.takeWhile p
  (read, c.skip read.length)

/-- The line break at the start as it counts in a text, and the place after it. Nothing is read if
there is none. -/
def readBreak (c : Cursor) : List Char × Cursor :=
  let next := fun (rest : List Char) (bytes : Nat) =>
    ({ rest := rest, index := c.index + bytes, line := c.line + 1, column := 0 } : Cursor)
  match c.rest with
  | '\r' :: '\n' :: rest => (['\n'], next rest 2)
  | char :: rest =>
    if char == '\u2028' || char == '\u2029' then ([char], next rest char.utf8Size)
    else if isBreak char then (['\n'], next rest char.utf8Size)
    else ([], c)
  | [] => ([], c)

/-- The place after the end of the line at the end of the text, where a break may be missing. -/
def closeLine (c : Cursor) : Cursor :=
  if c.column = 0 then c else { c with line := c.line + 1, column := 0 }

/-- The place after a line break. -/
def skipBreak (c : Cursor) : Cursor :=
  c.readBreak.2

/-- Whether a line starts here with a certain character three times and nothing else. -/
def seesMark (c : Cursor) (char : Char) : Bool :=
  c.column == 0 && c.rest.take 3 == [char, char, char] && c.wordEnds 3

/-- Whether a line starts here that begins or ends a document. -/
def atDocumentMark (c : Cursor) : Bool :=
  c.seesMark '-' || c.seesMark '.'

/-- The place after a comment, which ends before the line break. -/
def skipComment (c : Cursor) : Cursor :=
  if c.sees '#' then c.skipWhile (fun char => !isBreak char) else c

end Cursor

end ChartStream.Yaml
