/-!
# Sinks

Where blocks end up. A sink takes a text whole or fails, and may fail when it is flushed.
-/

namespace ChartStream

set_option autoImplicit false

/-- Which calls of a sink fail, by their number from one on, and the reason it gives. -/
structure Sink.Faults where
  write : Nat → Bool := fun _ => false
  flush : Nat → Bool := fun _ => false
  reason : String := "broken pipe"

/-- A sink with the texts it has taken. -/
structure Sink where
  faults : Sink.Faults := {}
  writes : Nat := 0
  flushes : Nat := 0
  taken : List String := []

namespace Sink

/-- Hands a text to the sink and tells whether it was taken. -/
def write (s : Sink) (text : String) : Sink × Bool :=
  if s.faults.write (s.writes + 1) then ({ s with writes := s.writes + 1 }, false)
  else ({ s with writes := s.writes + 1, taken := s.taken ++ [text] }, true)

/-- Flushes the sink and tells whether that worked. -/
def flush (s : Sink) : Sink × Bool :=
  ({ s with flushes := s.flushes + 1 }, !s.faults.flush (s.flushes + 1))

/-- All that the sink has taken. -/
def contents (s : Sink) : String :=
  String.join s.taken

/-! ## Laws -/

theorem taken_write (s : Sink) (text : String) :
    (s.write text).1.taken = if (s.write text).2 then s.taken ++ [text] else s.taken := by
  cases h : s.faults.write (s.writes + 1) <;> simp [write, h]

end Sink

/-- Splits characters at line breaks. `read` holds the characters of the current line, the last one
first. A carriage return before a line break belongs to it, and a last line without a break
counts if it holds anything. -/
def linesFrom (read : List Char) : List Char → List (List Char)
  | [] => if read.isEmpty then [] else [read.reverse]
  | c :: rest =>
    if c = '\n' then
      (match read with
        | '\r' :: line => line.reverse
        | line => line.reverse) :: linesFrom [] rest
    else linesFrom (c :: read) rest

/-- The lines of a text. -/
def linesOf (text : String) : List String :=
  (linesFrom [] text.toList).map String.ofList

end ChartStream
