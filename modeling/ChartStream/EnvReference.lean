/-!
# References to environment variables

A text may refer to a variable as `${NAME}`, or as `${NAME:-text}` with a text for the case that the
variable is not set. Main definitions: `EnvReference.pieces`, `EnvReference.expand`.
-/

namespace ChartStream

set_option autoImplicit false

/-- The values of the variables that are set. -/
abbrev Environment := String → Option String

/-- A reference to a variable: its name and what stands in for it if it is not set. -/
structure EnvReference where
  name : String
  fallback : String := ""
  deriving DecidableEq, Repr

namespace EnvReference

/-- The characters that a name may start with: ASCII letters and the underscore. -/
def startsName (c : Char) : Bool :=
  ('a' ≤ c && c ≤ 'z') || ('A' ≤ c && c ≤ 'Z') || c == '_'

/-- The characters of names. -/
def inName (c : Char) : Bool :=
  startsName c || ('0' ≤ c && c ≤ '9')

/-- The name that a text starts with and the text after it. -/
def name? : List Char → Option (List Char × List Char)
  | [] => none
  | c :: rest =>
    if startsName c then some (c :: rest.takeWhile inName, rest.dropWhile inName) else none

/-- The text up to a closing brace and the text after it. -/
def untilBrace? : List Char → Option (List Char × List Char)
  | [] => none
  | c :: rest =>
    if c = '}' then some ([], rest) else (untilBrace? rest).map fun r => (c :: r.1, r.2)

/-- What follows the name of a reference: the end, or a text for an unset variable. -/
def fallback? : List Char → Option (List Char × List Char)
  | '}' :: rest => some ([], rest)
  | ':' :: '-' :: rest => untilBrace? rest
  | _ => none

/-- The reference that a text starts with and the text after it. -/
def first? : List Char → Option (EnvReference × List Char)
  | '$' :: '{' :: rest =>
    match name? rest with
    | none => none
    | some (name, rest) =>
      (fallback? rest).map fun r => (⟨String.ofList name, String.ofList r.1⟩, r.2)
  | _ => none

/-- The text that stands for a reference. -/
def value (env : Environment) (r : EnvReference) : String :=
  (env r.name).getD r.fallback

/-! ## A reference takes up part of the text -/

theorem length_untilBrace? {cs text rest : List Char} (h : untilBrace? cs = some (text, rest)) :
    rest.length < cs.length := by
  induction cs generalizing text with
  | nil => simp [untilBrace?] at h
  | cons c tail ih =>
    unfold untilBrace? at h
    split at h
    · simp only [Option.some.injEq, Prod.mk.injEq] at h
      rw [← h.2]
      exact Nat.lt_succ_self _
    · obtain ⟨r, hr, he⟩ := Option.map_eq_some_iff.1 h
      simp only [Prod.mk.injEq] at he
      have : rest.length < tail.length := @ih r.1 (by rw [hr, ← he.2])
      exact Nat.lt_succ_of_lt this

theorem length_fallback? {cs text rest : List Char} (h : fallback? cs = some (text, rest)) :
    rest.length < cs.length := by
  unfold fallback? at h
  split at h
  · simp only [Option.some.injEq, Prod.mk.injEq] at h
    rw [← h.2]
    exact Nat.lt_succ_self _
  · have := length_untilBrace? h
    simp only [List.length_cons]
    omega
  · cases h

theorem length_name? {cs name rest : List Char} (h : name? cs = some (name, rest)) :
    rest.length < cs.length := by
  unfold name? at h
  split at h
  · cases h
  · split at h
    · simp only [Option.some.injEq, Prod.mk.injEq] at h
      rw [← h.2]
      exact Nat.lt_succ_of_le (List.dropWhile_suffix _).length_le
    · cases h

theorem length_first? {cs rest : List Char} {r : EnvReference} (h : first? cs = some (r, rest)) :
    rest.length < cs.length := by
  unfold first? at h
  split at h
  · split at h
    · cases h
    · next hn =>
      obtain ⟨f, hf, he⟩ := Option.map_eq_some_iff.1 h
      simp only [Prod.mk.injEq] at he
      have h1 := length_name? hn
      have h2 : f.2.length < _ := length_fallback? hf
      rw [← he.2]
      simp only [List.length_cons]
      omega
  · cases h

/-! ## Expansion -/

/-- A part of a text: a character that stands for itself, or a reference. -/
inductive Piece where
  | char (c : Char)
  | reference (r : EnvReference)
  deriving DecidableEq, Repr

/-- The pieces of a text. A reference is read as soon as one is there. -/
def pieces (cs : List Char) : List Piece :=
  match _h : first? cs with
  | some (r, rest) => .reference r :: pieces rest
  | none =>
    match cs with
    | [] => []
    | c :: rest => .char c :: pieces rest
termination_by cs.length
decreasing_by
  · exact length_first? _h
  · exact Nat.lt_succ_self _

/-- The characters that a piece stands for. Values are not looked at again. -/
def Piece.expand (env : Environment) : Piece → List Char
  | .char c => [c]
  | .reference r => (r.value env).toList

/-- A text with its references replaced by their values. -/
def expand (env : Environment) (text : String) : String :=
  String.ofList ((pieces text.toList).flatMap (Piece.expand env))

/-- The names of the variables that a text refers to. -/
def namesIn (text : String) : List String :=
  (pieces text.toList).filterMap fun
    | .char _ => none
    | .reference r => some r.name

end EnvReference

end ChartStream
