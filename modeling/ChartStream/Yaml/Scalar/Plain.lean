import ChartStream.Yaml.Scalar.Fold

/-!
# Plain scalars

A scalar without quotes ends where its words do. A comment ends it, as does a colon before white space,
and inside brackets the marks of lists and mappings.
-/

namespace ChartStream.Yaml

set_option autoImplicit false

/-- The characters that end a plain scalar inside brackets. -/
def isFlowMark (c : Char) : Bool :=
  c == ',' || c == '[' || c == ']' || c == '{' || c == '}'

/-- The number of characters of the word at the start of a text. Inside brackets a colon right before
another mark is an error. -/
def plainWord? (flow : Bool) : List Char → Option Nat
  | [] => some 0
  | c :: rest =>
    let next := rest.head?
    if isSpace c || isBreak c then some 0
    else if flow && c == ':' && next.any (fun n => isFlowMark n || n == '?') then none
    else if c == ':' && next.all (fun n => isSpace n || isBreak n) then some 0
    else if flow && isFlowMark c then some 0
    else (plainWord? flow rest).map (· + 1)

/-- A plain scalar: its text, whether a line break was read after it, and the place after it. -/
structure Plain where
  text : List Char
  brokeLine : Bool
  after : Cursor

/-- Reads the words of a plain scalar. Outside of brackets, a line that starts before the column
`indent` does not belong to it. -/
def plain? (flow : Bool) (indent : Nat) : Nat → List Char → Gap → Cursor → Option Plain
  | 0, _, _, _ => none
  | fuel + 1, read, gap, c =>
    if c.atDocumentMark || c.sees '#' then some ⟨read, gap.firstBreak.isSome, c⟩
    else
      match plainWord? flow c.rest with
      | none => none
      | some count =>
        let (read, gap) := if count = 0 then (read, gap)
          else (read ++ gap.text ++ c.rest.take count, {})
        let c := c.skip count
        if !(c.atSpace || c.atBreak) then some ⟨read, gap.firstBreak.isSome, c⟩
        else
          match Gap.read? indent (c.rest.length + 1) {} c with
          | none => none
          | some (gap, c) =>
            if !flow && c.column < indent then some ⟨read, gap.firstBreak.isSome, c⟩
            else plain? flow indent fuel read gap c

end ChartStream.Yaml
