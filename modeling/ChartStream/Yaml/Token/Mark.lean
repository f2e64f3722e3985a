import ChartStream.Text.Integer
import ChartStream.Yaml.Cursor
import ChartStream.Yaml.Token.Basic

/-!
# Tags, anchors and directives

The tokens that say something about a node, or about the document as a whole.
-/

namespace ChartStream.Yaml

set_option autoImplicit false

namespace Token

/-- The characters of tags. Inside of angle brackets there are three more. -/
def inTag (verbatim : Bool) (c : Char) : Bool :=
  isWordChar c || ";/?:@&=+$.!~*'()%".toList.contains c || (verbatim && [',', '[', ']'].contains c)

/-- Two hexadecimal digits after a percent sign, as a byte. -/
def escapedByte? : List Char → Option (UInt8 × List Char)
  | '%' :: a :: b :: rest => do
    let a ← Text.hexDigit? a
    let b ← Text.hexDigit? b
    some (UInt8.ofNat (a * 16 + b), rest)
  | _ => none

/-- How many bytes a character has that starts with a byte. -/
def width? (first : UInt8) : Option Nat :=
  if first < 0x80 then some 1
  else if first < 0xC0 then none
  else if first < 0xE0 then some 2
  else if first < 0xF0 then some 3
  else if first < 0xF8 then some 4
  else none

/-- The escaped bytes of a character after its first one. -/
def continuation? : Nat → List Char → Option (List UInt8 × List Char)
  | 0, cs => some ([], cs)
  | count + 1, cs => do
    let (byte, rest) ← escapedByte? cs
    if byte < 0x80 || 0xC0 ≤ byte then none
    else
      let (bytes, rest) ← continuation? count rest
      some (byte :: bytes, rest)

/-- The escaped bytes of a character. They need not be those of one that there is. -/
def escaped? (cs : List Char) : Option (List UInt8 × List Char) := do
  let (first, rest) ← escapedByte? cs
  let (bytes, rest) ← continuation? ((← width? first) - 1) rest
  some (first :: bytes, rest)

/-- The bytes of a tag after some that were read before, with escapes resolved, and the place after
them. -/
def tagBytes? (verbatim : Bool) : Nat → List UInt8 → Cursor → Option (List UInt8 × Cursor)
  | 0, _, _ => none
  | fuel + 1, read, c =>
    match c.rest with
    | [] => some (read, c)
    | char :: _ =>
      if !inTag verbatim char then some (read, c)
      else if char == '%' then
        match escaped? c.rest with
        | none => none
        | some (meant, after) =>
          tagBytes? verbatim fuel (read ++ meant) (c.skip (c.rest.length - after.length))
      else tagBytes? verbatim fuel (read ++ asciiBytes [char]) (c.skip 1)

/-- The bytes before the first zero, which ends a tag. -/
def upToZero (tag : List UInt8) : List UInt8 :=
  tag.takeWhile (· != 0)

/-- A tag whose exclamation mark is next. -/
def tag? (flow : Bool) (c : Cursor) : Option (Token × Cursor) :=
  let finish := fun (handle suffix : List UInt8) (c : Cursor) =>
    if c.wordEnds 0 || (flow && c.sees ',') then some (Token.tag handle (upToZero suffix), c)
    else none
  let fuel := c.rest.length + 1
  if c.peek? 1 == some '<' then
    match tagBytes? true fuel [] (c.skip 2) with
    | none => none
    | some (suffix, c) =>
      if suffix.isEmpty || !c.sees '>' then none else finish [] suffix (c.skip 1)
  else
    let (name, after) := (c.skip 1).readWhile isWordChar
    if after.sees '!' then
      match tagBytes? false fuel [] (after.skip 1) with
      | none => none
      | some (suffix, c) =>
        if suffix.isEmpty then none else finish (asciiBytes ('!' :: name ++ ['!'])) suffix c
    else
      match tagBytes? false fuel (asciiBytes name) after with
      | none => none
      | some (suffix, c) =>
        if (upToZero suffix).isEmpty then finish [] (asciiBytes ['!']) c
        else finish (asciiBytes ['!']) suffix c

/-- The marks that may follow the name of an anchor or alias. -/
def anchorEnds : List Char :=
  ['?', ':', ',', ']', '}', '%', '@', '\x60']

/-- The name of an anchor or alias whose mark is next. -/
def anchorName? (c : Cursor) : Option (String × Cursor) :=
  let (name, c) := (c.skip 1).readWhile isWordChar
  let ends := c.wordEnds 0 || c.seesClass 0 anchorEnds.contains
  if name.isEmpty || !ends then none else some (String.ofList name, c)

/-- A number of at most nine digits. -/
def versionNumber? (c : Cursor) : Option (Nat × Cursor) :=
  let (digits, c) := c.readWhile fun char => (Text.digit? char).isSome
  if digits.length > 9 then none else (Text.natural? digits).map (·, c)

/-- The numbers of a version after spaces. -/
def version? (c : Cursor) : Option (Token × Cursor) :=
  match versionNumber? (c.skipWhile isSpace) with
  | none => none
  | some (major, c) =>
    if !c.sees '.' then none
    else
      match versionNumber? (c.skip 1) with
      | none => none
      | some (minor, c) => some (.version major minor, c)

/-- A handle and what it stands for, after spaces. -/
def tagDirective? (c : Cursor) : Option (Token × Cursor) :=
  let c := c.skipWhile isSpace
  if !c.sees '!' then none
  else
    let (name, c) := (c.skip 1).readWhile isWordChar
    let closed := c.sees '!'
    if !closed && !name.isEmpty then none
    else
      let handle := '!' :: name ++ (if closed then ['!'] else [])
      let c := if closed then c.skip 1 else c
      if !c.atSpace then none
      else
        match tagBytes? true (c.rest.length + 1) [] (c.skipWhile isSpace) with
        | none => none
        | some (uri, c) =>
          if uri.isEmpty || !c.wordEnds 0 then none
          else some (.tagDirective (asciiBytes handle) (upToZero uri), c)

/-- A directive whose percent sign is next, with the rest of its line. -/
def directive? (c : Cursor) : Option (Token × Cursor) :=
  let (name, c) := (c.skip 1).readWhile isWordChar
  let read := if !c.wordEnds 0 then none
    else if name == "YAML".toList then version? c
    else if name == "TAG".toList then tagDirective? c
    else none
  match read with
  | none => none
  | some (token, c) =>
    let c := (c.skipWhile isSpace).skipComment
    if c.atEnd || c.atBreak then some (token, c.skipBreak) else none

end Token

end ChartStream.Yaml
