import ChartStream.Text.Integer
import ChartStream.Yaml.Scalar.Fold

/-!
# Quoted scalars

In single quotes a quote is written twice; in double quotes there are escapes, one of which takes a
line break away.
-/

namespace ChartStream.Yaml

set_option autoImplicit false

/-- The character of an escape of one letter. -/
def simpleEscape? : Char → Option Char
  | '0' => some '\x00'
  | 'a' => some '\x07'
  | 'b' => some '\x08'
  | 't' => some '\t'
  | '\t' => some '\t'
  | 'n' => some '\n'
  | 'v' => some '\x0b'
  | 'f' => some '\x0c'
  | 'r' => some '\r'
  | 'e' => some '\x1b'
  | ' ' => some ' '
  | '"' => some '"'
  | '/' => some '/'
  | '\\' => some '\\'
  | 'N' => some '\x85'
  | '_' => some '\xa0'
  | 'L' => some '\u2028'
  | 'P' => some '\u2029'
  | _ => none

/-- The number of hexadecimal digits after the letter of an escape. -/
def hexLength? : Char → Option Nat
  | 'x' => some 2
  | 'u' => some 4
  | 'U' => some 8
  | _ => none

/-- The character that an escape after its backslash stands for, and the rest of the text. -/
def escape? : List Char → Option (Char × List Char)
  | [] => none
  | c :: rest =>
    match simpleEscape? c with
    | some char => some (char, rest)
    | none =>
      match hexLength? c with
      | none => none
      | some count =>
        if rest.length < count then none
        else
          match Text.baseNatural? 16 (rest.take count) with
          | none => none
          | some n => if n.isValidChar then some (Char.ofNat n, rest.drop count) else none

/-- The part of a quoted scalar up to a gap or the closing quote: its text, whether it ended with an
escaped line break, and the place after it. -/
structure QuotedRun where
  text : List Char
  escapedBreak : Bool
  after : Cursor

/-- Reads a part of a quoted scalar. -/
def quotedRun? (double : Bool) : Nat → List Char → Cursor → Option QuotedRun
  | 0, _, _ => none
  | fuel + 1, read, c =>
    match c.rest with
    | [] => some ⟨read, false, c⟩
    | char :: rest =>
      if isSpace char || isBreak char then some ⟨read, false, c⟩
      else if !double && char == '\'' && rest.head? == some '\'' then
        quotedRun? double fuel (read ++ ['\'']) (c.skip 2)
      else if char == (if double then '"' else '\'') then some ⟨read, false, c⟩
      else if double && char == '\\' then
        if rest.head?.any isBreak then some ⟨read, true, (c.skip 1).skipBreak⟩
        else
          match escape? rest with
          | none => none
          | some (meant, after) =>
            quotedRun? double fuel (read ++ [meant]) (c.skip (rest.length - after.length + 1))
      else quotedRun? double fuel (read ++ [char]) (c.skip 1)

/-- Reads a quoted scalar whose opening quote has been read. -/
def quoted? (double : Bool) : Nat → List Char → Cursor → Option (List Char × Cursor)
  | 0, _, _ => none
  | fuel + 1, read, c =>
    if c.atDocumentMark || c.atEnd then none
    else
      match quotedRun? double (c.rest.length + 1) [] c with
      | none => none
      | some run =>
        let read := read ++ run.text
        let c := run.after
        if c.sees (if double then '"' else '\'') then some (read, c.skip 1)
        else
          let start : Gap := { firstBreak := if run.escapedBreak then some [] else none }
          match Gap.read? 0 (c.rest.length + 1) start c with
          | none => none
          | some (gap, c) => quoted? double fuel (read ++ gap.text) c

end ChartStream.Yaml
