import ChartStream.Yaml.Cursor

/-!
# Folding

What separates two words of a plain or quoted scalar, and the text that it stands for.
-/

namespace ChartStream.Yaml

set_option autoImplicit false

/-- What separates two words: spaces of one line, or line breaks, of which the first is folded. -/
structure Gap where
  spaces : List Char := []
  firstBreak : Option (List Char) := none
  moreBreaks : List Char := []

namespace Gap

/-- The text that a gap stands for. A single line break is a space, further ones are kept. -/
def text (g : Gap) : List Char :=
  match g.firstBreak with
  | none => g.spaces
  | some ['\n'] => if g.moreBreaks.isEmpty then [' '] else g.moreBreaks
  | some first => first ++ g.moreBreaks

/-- Reads a gap. After a line break no tab may stand before the column `tabsFrom`. -/
def read? (tabsFrom : Nat) : Nat → Gap → Cursor → Option (Gap × Cursor)
  | 0, _, _ => none
  | fuel + 1, g, c =>
    if c.atSpace then
      if g.firstBreak.isSome then
        if c.column < tabsFrom && c.sees '\t' then none else read? tabsFrom fuel g (c.skip 1)
      else read? tabsFrom fuel { g with spaces := g.spaces ++ c.rest.take 1 } (c.skip 1)
    else if c.atBreak then
      let (text, after) := c.readBreak
      let g := if g.firstBreak.isSome then { g with moreBreaks := g.moreBreaks ++ text }
        else { g with spaces := [], firstBreak := some text }
      read? tabsFrom fuel g after
    else some (g, c)

end Gap

end ChartStream.Yaml
