import ChartStream.EnvReference
import Mathlib.Data.List.Infix
import Mathlib.Data.List.TakeWhile

/-!
# What becomes of references to environment variables

A reference is written `${NAME}` or `${NAME:-text}`. The scan of a text finds a reference exactly where a written one
starts, so a text of literals and references becomes the same text with the values in the places of the references.
Main definitions: `EnvReference.Mention`, `EnvReference.Mention.WellFormed`, `EnvReference.interleave`.
Main result: `EnvReference.references_replaced`.
-/

namespace ChartStream.EnvReference

set_option autoImplicit false

/-! ## Written references -/

/-- A reference as it is written: a name, and perhaps a text for the case that the variable is not set. -/
structure Mention where
  name : String
  fallback? : Option String := none
  deriving DecidableEq, Repr

namespace Mention

/-- What stands between the name and the closing brace. -/
def afterName (m : Mention) : String :=
  match m.fallback? with
  | none => ""
  | some text => ":-" ++ text

/-- The characters of a reference. -/
def chars (m : Mention) : List Char :=
  '$' :: '{' :: (m.name.toList ++ (m.afterName.toList ++ ['}']))

/-- A reference as a text. -/
def text (m : Mention) : String :=
  String.ofList m.chars

/-- The name is an ASCII letter or an underscore and then letters, digits and underscores, and the text for an unset
variable has no closing brace. -/
structure WellFormed (m : Mention) : Prop where
  name : ∃ first rest, m.name.toList = first :: rest ∧ (first.isAlpha = true ∨ first = '_') ∧
    ∀ c ∈ rest, c.isAlphanum = true ∨ c = '_'
  fallback : ∀ text, m.fallback? = some text → '}' ∉ text.toList

/-- The value of the variable if it is set, else the text for that case, else nothing. -/
def expansion (env : Environment) (m : Mention) : String :=
  match env m.name, m.fallback? with
  | some value, _ => value
  | none, some text => text
  | none, none => ""

/-- The reference that is read from its written form. -/
def reference (m : Mention) : EnvReference :=
  ⟨m.name, m.fallback?.getD ""⟩

theorem toList_text (m : Mention) : m.text.toList = m.chars :=
  String.toList_ofList

theorem value_reference (env : Environment) (m : Mention) : m.reference.value env = m.expansion env := by
  unfold value reference expansion
  cases env m.name <;> cases m.fallback? <;> rfl

end Mention

/-! ## The characters of names -/

theorem startsName_iff {c : Char} : startsName c = true ↔ c.isAlpha = true ∨ c = '_' := by
  have hupper : c.isUpper = true ↔ 'A' ≤ c ∧ c ≤ 'Z' := decide_eq_true_iff
  have hlower : c.isLower = ('a' ≤ c && c ≤ 'z') := rfl
  have halpha : c.isAlpha = (c.isUpper || c.isLower) := rfl
  rw [halpha, hlower]
  simp only [startsName, Bool.or_eq_true, Bool.and_eq_true, decide_eq_true_eq, beq_iff_eq, hupper,
    or_comm (a := 'a' ≤ c ∧ c ≤ 'z')]

theorem inName_iff {c : Char} : inName c = true ↔ c.isAlphanum = true ∨ c = '_' := by
  have halphanum : c.isAlphanum = (c.isAlpha || ('0' ≤ c && c ≤ '9')) := rfl
  rw [halphanum, inName, Bool.or_eq_true, Bool.or_eq_true, startsName_iff, or_right_comm]
/-! ## The parts of a reference -/

/-- A name is followed by a character that no name holds. -/
theorem name?_append {first : Char} {tail rest : List Char} (hfirst : startsName first = true)
    (htail : ∀ c ∈ tail, inName c = true) (hrest : ∀ c ∈ rest.head?, inName c = false) :
    name? (first :: tail ++ rest) = some (first :: tail, rest) := by
  have hstop : rest.takeWhile inName = [] ∧ rest.dropWhile inName = rest := by
    cases rest with
    | nil => exact ⟨rfl, rfl⟩
    | cons c more =>
      have hc := hrest c rfl
      simp [hc]
  simp only [List.cons_append, name?, if_pos hfirst, List.takeWhile_append_of_pos htail,
    List.dropWhile_append_of_pos htail, hstop.1, hstop.2, List.append_nil]

theorem of_name? {cs name rest : List Char} (h : name? cs = some (name, rest)) :
    cs = name ++ rest ∧ ∃ first tail, name = first :: tail ∧ startsName first = true ∧
      ∀ c ∈ tail, inName c = true := by
  cases cs with
  | nil => cases h
  | cons first more =>
    rw [name?] at h
    by_cases hfirst : startsName first = true
    · rw [if_pos hfirst, Option.some.injEq, Prod.mk.injEq] at h
      obtain ⟨rfl, rfl⟩ := h
      exact ⟨by rw [List.cons_append, List.takeWhile_append_dropWhile], first, _, rfl, hfirst,
        fun c hc => List.mem_takeWhile_imp hc⟩
    · rw [if_neg hfirst] at h
      cases h

theorem untilBrace?_append {text : List Char} (htext : '}' ∉ text) (rest : List Char) :
    untilBrace? (text ++ '}' :: rest) = some (text, rest) := by
  induction text with
  | nil => rfl
  | cons c text ih =>
    obtain ⟨hc, htext⟩ := not_or.mp (List.mem_cons.not.mp htext)
    rw [List.cons_append, untilBrace?, if_neg (Ne.symm hc), ih htext]
    rfl

theorem of_untilBrace? {cs text rest : List Char} (h : untilBrace? cs = some (text, rest)) :
    cs = text ++ '}' :: rest ∧ '}' ∉ text := by
  induction cs generalizing text with
  | nil => cases h
  | cons c tail ih =>
    rw [untilBrace?] at h
    by_cases hc : c = '}'
    · rw [if_pos hc, Option.some.injEq, Prod.mk.injEq] at h
      obtain ⟨rfl, rfl⟩ := h
      exact ⟨by rw [hc]; rfl, List.not_mem_nil⟩
    · rw [if_neg hc] at h
      obtain ⟨⟨more, after⟩, hmore, heq⟩ := Option.map_eq_some_iff.mp h
      obtain ⟨rfl, rfl⟩ := Prod.mk.inj heq
      obtain ⟨rfl, hbrace⟩ := ih hmore
      exact ⟨rfl, fun hmem => hbrace ((List.mem_cons.mp hmem).resolve_left (Ne.symm hc))⟩

theorem fallback?_afterName {m : Mention} (hm : m.WellFormed) (rest : List Char) :
    fallback? (m.afterName.toList ++ '}' :: rest) = some ((m.fallback?.getD "").toList, rest) := by
  cases hfallback : m.fallback? with
  | none => simp [Mention.afterName, hfallback, fallback?]
  | some text =>
    have htext := untilBrace?_append (hm.fallback text hfallback) rest
    simpa [Mention.afterName, hfallback, fallback?] using htext

theorem of_fallback? {cs text rest : List Char} (h : fallback? cs = some (text, rest)) :
    ∃ written? : Option String, written?.getD "" = String.ofList text ∧
      (∀ written, written? = some written → '}' ∉ written.toList) ∧
      ∀ name, cs = (⟨name, written?⟩ : Mention).afterName.toList ++ '}' :: rest := by
  unfold fallback? at h
  split at h
  · obtain ⟨rfl, rfl⟩ := Prod.mk.inj (Option.some.inj h)
    exact ⟨none, rfl, nofun, fun name => rfl⟩
  · obtain ⟨rfl, hbrace⟩ := of_untilBrace? h
    refine ⟨some (String.ofList text), rfl, fun written hwritten => ?_, fun name => ?_⟩
    · rwa [← Option.some.inj hwritten, String.toList_ofList]
    · simp [Mention.afterName]
  · cases h

/-! ## A reference at the start of a text -/

/-- The scan reads a written reference. -/
theorem first?_chars_append {m : Mention} (hm : m.WellFormed) (rest : List Char) :
    first? (m.chars ++ rest) = some (m.reference, rest) := by
  obtain ⟨first, tail, hname, hfirst, htail⟩ := hm.name
  have hstop : ∀ c ∈ (m.afterName.toList ++ '}' :: rest).head?, inName c = false := by
    cases hfallback : m.fallback? with
    | none => simp [Mention.afterName, hfallback]; rfl
    | some text => simp [Mention.afterName, hfallback]; rfl
  have hread : name? (m.name.toList ++ (m.afterName.toList ++ '}' :: rest)) =
      some (m.name.toList, m.afterName.toList ++ '}' :: rest) := by
    rw [hname]
    exact name?_append (startsName_iff.mpr hfirst) (fun c hc => inName_iff.mpr (htail c hc)) hstop
  have hsplit : m.chars ++ rest = '$' :: '{' :: (m.name.toList ++ (m.afterName.toList ++ '}' :: rest)) := by
    simp [Mention.chars]
  simp only [hsplit, first?, hread, fallback?_afterName hm, Option.map_some, String.ofList_toList]
  rfl

/-- Whatever the scan reads as a reference is a written one. -/
theorem of_first? {cs rest : List Char} {r : EnvReference} (h : first? cs = some (r, rest)) :
    ∃ m : Mention, m.WellFormed ∧ m.reference = r ∧ cs = m.chars ++ rest := by
  unfold first? at h
  split at h
  · next more =>
    cases hname : name? more with
    | none => rw [hname] at h; cases h
    | some read =>
      obtain ⟨name, after⟩ := read
      rw [hname] at h
      obtain ⟨⟨text, last⟩, hfallback, heq⟩ := Option.map_eq_some_iff.mp h
      obtain ⟨rfl, rfl⟩ := Prod.mk.inj heq
      obtain ⟨rfl, first, tail, rfl, hfirst, htail⟩ := of_name? hname
      obtain ⟨written?, htext, hwritten, hafter⟩ := of_fallback? hfallback
      refine ⟨⟨String.ofList (first :: tail), written?⟩, ⟨⟨first, tail, String.toList_ofList, ?_, ?_⟩, hwritten⟩,
        ?_, ?_⟩
      · exact startsName_iff.mp hfirst
      · exact fun c hc => inName_iff.mp (htail c hc)
      · rw [Mention.reference, htext]
      · rw [hafter (String.ofList (first :: tail))]
        simp [Mention.chars]
  · cases h

/-- There is no reference at the start of a text that does not start with a dollar and an opening brace. -/
theorem first?_eq_none {cs : List Char} (h : ¬ ['$', '{'] <+: cs) : first? cs = none := by
  cases hfirst : first? cs with
  | none => rfl
  | some read =>
    obtain ⟨m, -, -, rfl⟩ := of_first? hfirst
    exact absurd ⟨_, rfl⟩ h

/-! ## The pieces of a text -/

theorem pieces_nil : pieces [] = [] := by
  unfold pieces
  rfl

theorem pieces_of_first? {cs rest : List Char} {r : EnvReference} (h : first? cs = some (r, rest)) :
    pieces cs = .reference r :: pieces rest := by
  rw [pieces]
  split
  · next hread =>
    obtain ⟨rfl, rfl⟩ := Prod.mk.inj (Option.some.inj (hread.symm.trans h))
    rfl
  · next hread => cases hread.symm.trans h

theorem pieces_cons {c : Char} {rest : List Char} (h : first? (c :: rest) = none) :
    pieces (c :: rest) = .char c :: pieces rest := by
  rw [pieces]
  split
  · next hread => cases hread.symm.trans h
  · rfl

/-- A literal is copied, whatever reference comes after it. -/
theorem pieces_literal {literal rest : List Char} (hliteral : ¬ ['$', '{'] <:+: literal)
    (hrest : rest.head? ≠ some '{') : pieces (literal ++ rest) = literal.map .char ++ pieces rest := by
  induction literal with
  | nil => rfl
  | cons c literal ih =>
    have hnone : first? (c :: (literal ++ rest)) = none := by
      refine first?_eq_none fun hopening => ?_
      obtain ⟨rfl, hbrace⟩ := List.cons_prefix_cons.mp hopening
      cases literal with
      | nil =>
        obtain ⟨after, rfl⟩ := hbrace
        exact hrest rfl
      | cons d literal =>
        obtain ⟨rfl, -⟩ := List.cons_prefix_cons.mp hbrace
        exact hliteral ⟨[], literal, rfl⟩
    rw [List.cons_append, pieces_cons hnone, ih fun hwithin => hliteral (hwithin.trans (List.suffix_cons _ _).isInfix)]
    rfl

/-- What is read as a reference stands in the text as a written one. -/
theorem mention_of_mem_pieces {cs : List Char} {r : EnvReference} (h : Piece.reference r ∈ pieces cs) :
    ∃ m : Mention, m.WellFormed ∧ m.reference = r ∧ m.chars <:+: cs := by
  induction cs using pieces.induct with
  | case1 cs read rest hfirst ih =>
    obtain ⟨m, hm, hread, rfl⟩ := of_first? hfirst
    rw [pieces_of_first? hfirst] at h
    rcases List.mem_cons.mp h with heq | hlater
    · exact ⟨m, hm, hread.trans (Piece.reference.inj heq).symm, (List.prefix_append _ _).isInfix⟩
    · obtain ⟨later, hlaterForm, hlaterRead, hwithin⟩ := ih hlater
      exact ⟨later, hlaterForm, hlaterRead, hwithin.trans (List.suffix_append _ _).isInfix⟩
  | case2 hfirst =>
    rw [pieces_nil] at h
    cases h
  | case3 c rest hfirst ih =>
    rw [pieces_cons hfirst] at h
    rcases List.mem_cons.mp h with heq | hlater
    · cases heq
    · obtain ⟨m, hm, hread, hwithin⟩ := ih hlater
      exact ⟨m, hm, hread, hwithin.trans (List.suffix_cons _ _).isInfix⟩

/-- A text in which no reference is written is all literal. -/
theorem pieces_of_no_mention {cs : List Char} (h : ∀ m : Mention, m.WellFormed → ¬ m.chars <:+: cs) :
    pieces cs = cs.map .char := by
  induction cs with
  | nil => exact pieces_nil
  | cons c rest ih =>
    have hnone : first? (c :: rest) = none := by
      cases hfirst : first? (c :: rest) with
      | none => rfl
      | some read =>
        obtain ⟨m, hm, -, heq⟩ := of_first? hfirst
        exact absurd ⟨[], _, heq.symm⟩ (h m hm)
    rw [pieces_cons hnone, ih fun m hm hwithin => h m hm (hwithin.trans (List.suffix_cons _ _).isInfix)]
    rfl

theorem flatMap_expand_char (env : Environment) (cs : List Char) :
    (cs.map Piece.char).flatMap (Piece.expand env) = cs := by
  induction cs with
  | nil => rfl
  | cons c rest ih => rw [List.map_cons, List.flatMap_cons, ih]; rfl

/-! ## Whole texts -/

/-- Literals and references in turn and a last literal, with the references rendered as texts. -/
def interleave (render : Mention → String) (parts : List (String × Mention)) (last : String) : String :=
  parts.foldr (fun part rest => part.1 ++ render part.2 ++ rest) last

/-- The pieces of a text of literals and references: what is put in comes from the references alone. -/
theorem expand_interleave (env : Environment) {parts : List (String × Mention)} {last : String}
    (hparts : ∀ part ∈ parts, ¬ ['$', '{'] <:+: part.1.toList ∧ part.2.WellFormed)
    (hlast : ¬ ['$', '{'] <:+: last.toList) :
    (pieces (interleave Mention.text parts last).toList).flatMap (Piece.expand env) =
      (interleave (Mention.expansion env) parts last).toList := by
  induction parts with
  | nil =>
    have hcopied : pieces (last.toList ++ []) = last.toList.map .char ++ pieces [] := pieces_literal hlast nofun
    rw [List.append_nil, pieces_nil, List.append_nil] at hcopied
    rw [interleave, List.foldr_nil, hcopied, flatMap_expand_char]
    rfl
  | cons part parts ih =>
    obtain ⟨literal, m⟩ := part
    obtain ⟨⟨hliteral, hm⟩, hparts⟩ := List.forall_mem_cons.mp hparts
    have hsplit (render : Mention → String) : (interleave render ((literal, m) :: parts) last).toList =
        literal.toList ++ ((render m).toList ++ (interleave render parts last).toList) := by
      simp [interleave]
    rw [hsplit, hsplit, m.toList_text, pieces_literal hliteral (by simp [Mention.chars]),
      pieces_of_first? (first?_chars_append hm _), List.flatMap_append, List.flatMap_cons, flatMap_expand_char,
      ih hparts, Piece.expand, Mention.value_reference]

theorem expand_congr {env other : Environment} {text : String}
    (h : ∀ name ∈ namesIn text, env name = other name) : expand env text = expand other text := by
  have hpieces : ∀ piece ∈ pieces text.toList, piece.expand env = piece.expand other := by
    rintro (c | r) hmem
    · rfl
    · have hname : r.name ∈ namesIn text := List.mem_filterMap.mpr ⟨_, hmem, rfl⟩
      simp only [Piece.expand, value, h r.name hname]
  rw [expand, expand, List.flatMap_congr hpieces]

theorem mention_of_mem_namesIn {text name : String} (h : name ∈ namesIn text) :
    ∃ m : Mention, m.WellFormed ∧ m.name = name ∧ m.text.toList <:+: text.toList := by
  obtain ⟨piece, hmem, hname⟩ := List.mem_filterMap.mp h
  cases piece with
  | char c => cases hname
  | reference r =>
    obtain ⟨m, hm, rfl, hwithin⟩ := mention_of_mem_pieces hmem
    refine ⟨m, hm, Option.some.inj hname, ?_⟩
    rwa [m.toList_text]

/-- A text of literals and references becomes the same text with the values or the texts for unset variables in the
places of the references, as they are. A text in which no reference is written stays as it is. What becomes of a text
depends on the variables of `namesIn` alone, and each of them is named by a reference written in the text. -/
theorem references_replaced (env : Environment) :
    (∀ parts last, (∀ part ∈ parts, ¬ ['$', '{'] <:+: part.1.toList ∧ part.2.WellFormed) →
      ¬ ['$', '{'] <:+: last.toList →
      expand env (interleave Mention.text parts last) = interleave (Mention.expansion env) parts last) ∧
    (∀ text : String, (∀ m : Mention, m.WellFormed → ¬ m.text.toList <:+: text.toList) → expand env text = text) ∧
    (∀ text other, (∀ name ∈ namesIn text, env name = other name) → expand env text = expand other text) ∧
    ∀ text, ∀ name ∈ namesIn text,
      ∃ m : Mention, m.WellFormed ∧ m.name = name ∧ m.text.toList <:+: text.toList := by
  refine ⟨fun parts last hparts hlast => ?_, fun text hnone => ?_, fun text other => expand_congr,
    fun text name => mention_of_mem_namesIn⟩
  · rw [expand, expand_interleave env hparts hlast, String.ofList_toList]
  · have hpieces : pieces text.toList = text.toList.map .char :=
      pieces_of_no_mention fun m hm => m.toList_text ▸ hnone m hm
    rw [expand, hpieces, flatMap_expand_char, String.ofList_toList]

/-- An environment with a host and a user that looks like a reference. -/
def hostAndUser : Environment
  | "HOST" => some "db"
  | "USER" => some "$\x7bHOST\x7d"
  | _ => none

/-- A dollar before a reference, a value and a text for an unset variable that look like references, an unset variable
without such a text, and a brace left over. Then a text with something like a reference to a number, and a reference
in another environment with the same host. -/
theorem references_replaced_in_address :
    expand hostAndUser "$$\x7bUSER\x7d@$\x7bHOST:-localhost\x7d:$\x7bPORT:-$\x7bHOST\x7d$\x7bNONE\x7d\x7d" =
        "$$\x7bHOST\x7d@db:$\x7bHOST\x7d" ∧
      expand hostAndUser "$HOST and $\x7b1\x7d" = "$HOST and $\x7b1\x7d" ∧
      expand hostAndUser "$\x7bHOST\x7d" = expand (fun _ => some "db") "$\x7bHOST\x7d" := by
  obtain ⟨hreplaced, hliteral, hdepends, -⟩ := references_replaced hostAndUser
  refine ⟨?_, hliteral _ fun m hm hwithin => ?_, hdepends _ _ fun name hname => ?_⟩
  · refine hreplaced [("$", ⟨"USER", none⟩), ("@", ⟨"HOST", some "localhost"⟩), (":", ⟨"PORT", some "$\x7bHOST"⟩),
      ("", ⟨"NONE", none⟩)] "\x7d" ?_ (by decide)
    simp only [List.forall_mem_cons, List.not_mem_nil, false_imp_iff, implies_true, and_true]
    refine ⟨⟨by decide, ⟨'U', ['S', 'E', 'R'], rfl, by decide, by simp⟩, nofun⟩,
      ⟨by decide, ⟨'H', ['O', 'S', 'T'], rfl, by decide, by simp⟩, ?_⟩,
      ⟨by decide, ⟨'P', ['O', 'R', 'T'], rfl, by decide, by simp⟩, ?_⟩,
      ⟨by decide, ⟨'N', ['O', 'N', 'E'], rfl, by decide, by simp⟩, nofun⟩⟩
    · rintro text ⟨⟩
      decide
    · rintro text ⟨⟩
      decide
  · -- The only place with a dollar and an opening brace goes on with a digit.
    obtain ⟨first, rest, hname, hfirst, -⟩ := hm.name
    have hstart : ['$', '{', first] <:+: "$HOST and $\x7b1\x7d".toList := by
      refine List.IsInfix.trans (List.IsPrefix.isInfix ⟨rest ++ (m.afterName.toList ++ ['}']), ?_⟩) hwithin
      simp [Mention.text, Mention.chars, hname]
    have hone : first = '1' := by
      simpa [List.infix_cons_iff, List.cons_prefix_cons] using hstart
    subst hone
    revert hfirst
    decide
  · have hnames : namesIn "$\x7bHOST\x7d" = ["HOST"] := by
      have hread : first? "$\x7bHOST\x7d".toList = some (⟨"HOST", ""⟩, []) := rfl
      rw [namesIn, pieces_of_first? hread, pieces_nil]
      rfl
    rw [hnames, List.mem_singleton] at hname
    subst hname
    rfl

end ChartStream.EnvReference
