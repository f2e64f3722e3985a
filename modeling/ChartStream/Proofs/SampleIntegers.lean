import ChartStream.Proofs.SampleAgreement
import Mathlib.Data.List.TakeWhile
import Mathlib.Data.Nat.Digits.Defs

/-!
# Which samples stand for integers

The grammar of a readable sample is stated apart from its reader: white space around an optional sign and one or more
ASCII digits, the value of the digits by their places, and the range of a signed word. Main definitions:
`Text.Stripped`, `Text.Numeral`, `Samples.StandsFor`. Main result: `Samples.resolved_exactly`.
-/

namespace ChartStream

set_option autoImplicit false

namespace Text

/-! ## White space at both ends -/

/-- What is left of characters when the white space at both ends is taken away. -/
structure Stripped (cs core : List Char) : Prop where
  around : ∃ before after, cs = before ++ core ++ after ∧ (∀ c ∈ before, isBlank c = true) ∧
    ∀ c ∈ after, isBlank c = true
  first : ∀ c ∈ core.head?, isBlank c = false
  last : ∀ c ∈ core.getLast?, isBlank c = false

theorem dropWhile_of_head {cs : List Char} (h : ∀ c ∈ cs.head?, isBlank c = false) : cs.dropWhile isBlank = cs := by
  cases cs with
  | nil => rfl
  | cons c rest => exact List.dropWhile_cons_of_neg (by simp [h c rfl])

theorem head_dropWhile (cs : List Char) : ∀ c ∈ (cs.dropWhile isBlank).head?, isBlank c = false := by
  intro c hc
  have hnot := List.head?_dropWhile_not isBlank cs
  rwa [Option.mem_def.mp hc] at hnot

theorem trim_of_stripped {cs core : List Char} (h : Stripped cs core) : trim cs = core := by
  obtain ⟨⟨before, after, rfl, hbefore, hafter⟩, hfirst, hlast⟩ := h
  rw [trim, List.append_assoc, List.dropWhile_append_of_pos hbefore]
  by_cases hcore : core = []
  · subst hcore
    rw [List.nil_append, List.dropWhile_eq_nil_iff.mpr hafter]
    rfl
  · -- The first character of the core stops the scan from the left, the last one the scan from the right.
    have hstop : ∀ c ∈ (core ++ after).head?, isBlank c = false := by
      rw [List.head?_append_of_ne_nil _ hcore]
      exact hfirst
    rw [dropWhile_of_head hstop, List.reverse_append, List.dropWhile_append_of_pos (by simpa using hafter),
      dropWhile_of_head (by simpa using hlast), List.reverse_reverse]

theorem stripped_trim (cs : List Char) : Stripped cs (trim cs) := by
  have hleft : cs.takeWhile isBlank ++ cs.dropWhile isBlank = cs := List.takeWhile_append_dropWhile
  have hright : ((cs.dropWhile isBlank).reverse.takeWhile isBlank ++
      (cs.dropWhile isBlank).reverse.dropWhile isBlank).reverse = cs.dropWhile isBlank := by
    rw [List.takeWhile_append_dropWhile, List.reverse_reverse]
  rw [List.reverse_append] at hright
  refine ⟨⟨cs.takeWhile isBlank, ((cs.dropWhile isBlank).reverse.takeWhile isBlank).reverse, ?_,
    fun c hc => List.mem_takeWhile_imp hc, fun c hc => ?_⟩, fun c hc => ?_, fun c hc => ?_⟩
  · rw [List.append_assoc, trim, hright, hleft]
  · exact List.mem_takeWhile_imp (List.mem_reverse.mp hc)
  · -- What is taken away at the right leaves the first character as it is.
    refine head_dropWhile cs c ?_
    rw [← hright, ← trim, Option.mem_def, List.head?_append, Option.mem_def.mp hc]
    rfl
  · rw [trim, List.getLast?_reverse] at hc
    exact head_dropWhile _ c hc

/-- Trimming takes away the white space at both ends, and nothing else. -/
theorem trim_eq_iff {cs core : List Char} : trim cs = core ↔ Stripped cs core :=
  ⟨fun h => h ▸ stripped_trim cs, trim_of_stripped⟩

/-! ## Digits and signs -/

/-- The number that digits write, each of them ten times what it would be one place further right. -/
def placeValue (digits : List Char) : Nat :=
  Nat.ofDigits 10 (digits.reverse.map fun c => c.toNat - '0'.toNat)

/-- One or more ASCII digits. -/
structure Digits (cs : List Char) : Prop where
  ne_nil : cs ≠ []
  ascii : ∀ c ∈ cs, '0' ≤ c ∧ c ≤ '9'

/-- The characters are an optional sign and one or more digits, which write the integer. -/
inductive Numeral : List Char → Int → Prop
  | plain {ds : List Char} (h : Digits ds) : Numeral ds (placeValue ds)
  | positive {ds : List Char} (h : Digits ds) : Numeral ('+' :: ds) (placeValue ds)
  | negative {ds : List Char} (h : Digits ds) : Numeral ('-' :: ds) (-(placeValue ds : Int))

theorem placeValue_cons (c : Char) (cs : List Char) :
    placeValue (c :: cs) = (c.toNat - '0'.toNat) * 10 ^ cs.length + placeValue cs := by
  rw [placeValue, List.reverse_cons, List.map_append, Nat.ofDigits_append, List.length_map, List.length_reverse,
    List.map_singleton, Nat.ofDigits_singleton, Nat.add_comm, Nat.mul_comm, placeValue]

/-- Digits that continue a number shift it to the left by their count. -/
theorem digitsFrom?_eq_some_iff {acc m : Nat} {cs : List Char} :
    digitsFrom? acc cs = some m ↔
      (∀ c ∈ cs, '0' ≤ c ∧ c ≤ '9') ∧ m = acc * 10 ^ cs.length + placeValue cs := by
  induction cs generalizing acc with
  | nil => simp [digitsFrom?, placeValue, eq_comm]
  | cons c cs ih =>
    rw [digitsFrom?, List.forall_mem_cons, placeValue_cons, List.length_cons]
    by_cases hc : '0' ≤ c ∧ c ≤ '9'
    · have hdigit : digit? c = some (c.toNat - '0'.toNat) := if_pos hc
      have hshift : (10 * acc + (c.toNat - '0'.toNat)) * 10 ^ cs.length + placeValue cs =
          acc * 10 ^ (cs.length + 1) + ((c.toNat - '0'.toNat) * 10 ^ cs.length + placeValue cs) := by ring
      simp only [hdigit, ih, hc, true_and, hshift, and_self]
    · have hdigit : digit? c = none := if_neg hc
      simp only [hdigit, hc, false_and, reduceCtorEq]

theorem natural?_eq_some_iff {cs : List Char} {m : Nat} :
    natural? cs = some m ↔ Digits cs ∧ m = placeValue cs := by
  cases cs with
  | nil => exact ⟨nofun, fun h => absurd rfl h.1.ne_nil⟩
  | cons c cs =>
    rw [natural?, digitsFrom?_eq_some_iff, Nat.zero_mul, Nat.zero_add]
    exact and_congr_left fun _ => ⟨fun h => ⟨List.cons_ne_nil c cs, h⟩, Digits.ascii⟩

theorem Digits.head {c : Char} {cs : List Char} (h : Digits (c :: cs)) : c ≠ '+' ∧ c ≠ '-' := by
  have hc := h.ascii c List.mem_cons_self
  constructor <;> rintro rfl <;> exact absurd hc (by decide)

/-- The reader of integers accepts numerals and nothing else. -/
theorem integer?_eq_some_iff {cs : List Char} {n : Int} : integer? cs = some n ↔ Numeral cs n := by
  constructor
  · intro h
    unfold integer? at h
    split at h
    · obtain ⟨m, hm, rfl⟩ := Option.map_eq_some_iff.mp h
      obtain ⟨hdigits, rfl⟩ := natural?_eq_some_iff.mp hm
      exact .positive hdigits
    · obtain ⟨m, hm, rfl⟩ := Option.map_eq_some_iff.mp h
      obtain ⟨hdigits, rfl⟩ := natural?_eq_some_iff.mp hm
      exact .negative hdigits
    · obtain ⟨m, hm, rfl⟩ := Option.map_eq_some_iff.mp h
      obtain ⟨hdigits, rfl⟩ := natural?_eq_some_iff.mp hm
      exact .plain hdigits
  · rintro (hdigits | hdigits | hdigits)
    · have hread := natural?_eq_some_iff.mpr ⟨hdigits, rfl⟩
      cases cs with
      | nil => exact absurd rfl hdigits.ne_nil
      | cons c cs =>
        obtain ⟨hplus, hminus⟩ := hdigits.head
        unfold integer?
        split
        · next heq => exact absurd (List.cons.inj heq).1 hplus
        · next heq => exact absurd (List.cons.inj heq).1 hminus
        · rw [hread]
          rfl
    · rw [integer?, natural?_eq_some_iff.mpr ⟨hdigits, rfl⟩]
      rfl
    · rw [integer?, natural?_eq_some_iff.mpr ⟨hdigits, rfl⟩]
      rfl

/-! ## The range of a word -/

/-- The integer fits a signed word of 64 bits. -/
def InWord (n : Int) : Prop :=
  -2 ^ 63 ≤ n ∧ n ≤ 2 ^ 63 - 1

instance (n : Int) : Decidable (InWord n) :=
  inferInstanceAs (Decidable (_ ∧ _))

theorem inSigned64_iff {n : Int} : inSigned64 n = true ↔ InWord n := by
  simp only [inSigned64, InWord, Bool.and_eq_true, decide_eq_true_eq]
  omega

theorem not_blank_of_sign_or_digit {c : Char} (h : c = '+' ∨ c = '-' ∨ '0' ≤ c ∧ c ≤ '9') : isBlank c = false := by
  rcases h with rfl | rfl | hc
  · decide
  · decide
  · have hdigit : c.isDigit = true := by
      simp only [Char.isDigit, Bool.and_eq_true, decide_eq_true_eq]
      exact hc
    exact isBlank_of_isDigit hdigit

theorem Numeral.not_blank {core : List Char} {n : Int} (h : Numeral core n) : ∀ c ∈ core, isBlank c = false := by
  intro c hc
  apply not_blank_of_sign_or_digit
  cases h with
  | plain hdigits => exact .inr (.inr (hdigits.ascii c hc))
  | positive hdigits => exact (List.mem_cons.mp hc).imp id fun hmem => .inr (hdigits.ascii c hmem)
  | negative hdigits => exact .inr ((List.mem_cons.mp hc).imp id fun hmem => hdigits.ascii c hmem)

/-- A numeral between white space is what is left when that is taken away. -/
theorem Numeral.stripped {core : List Char} {n : Int} (h : Numeral core n) {before after : List Char}
    (hbefore : ∀ c ∈ before, isBlank c = true) (hafter : ∀ c ∈ after, isBlank c = true) :
    Stripped (before ++ core ++ after) core :=
  ⟨⟨before, after, rfl, hbefore, hafter⟩, fun c hc => h.not_blank c (List.mem_of_mem_head? hc),
    fun c hc => h.not_blank c (List.mem_of_mem_getLast? hc)⟩

theorem numeral_decimal (n : Int) : Numeral (toString n).toList n :=
  integer?_eq_some_iff.mp (by rw [Int.toString_eq_repr, integer?_repr])

end Text

/-! ## Printed values -/

namespace Line

theorem render_set (id : String) (n : Int) :
    (Line.set id n).render = "SET " ++ quoted id ++ " = " ++ toString n ++ "\n" := by
  have hequals : " = " = " " ++ "= " := rfl
  simp only [render, fields, joined, hequals, String.append_assoc]
  rfl

theorem render_variable (id : String) (n : Int) :
    (Line.variable id n).render = "VARIABLE CHART " ++ quoted id ++ " = " ++ toString n ++ "\n" := by
  have hequals : " = " = " " ++ "= " := rfl
  have hkeyword : "VARIABLE CHART " = "VARIABLE" ++ (" " ++ ("CHART" ++ " ")) := rfl
  simp only [render, fields, joined, hequals, hkeyword, String.append_assoc]
  rfl

end Line

/-! ## Samples -/

namespace Samples

open Text

/-- The value is the integer itself, or the text of a numeral for it with white space around; the integer fits a
signed word. -/
def StandsFor (value : Json) (n : Int) : Prop :=
  InWord n ∧ (value = .integer n ∨ ∃ s core, value = .string s ∧ Stripped s.toList core ∧ Numeral core n)

theorem ite_inSigned64_eq_some_iff {m n : Int} :
    (if inSigned64 m = true then some m else none) = some n ↔ InWord n ∧ m = n := by
  rw [Option.ite_none_right_eq_some, Option.some.injEq, inSigned64_iff]
  constructor <;> rintro ⟨hword, rfl⟩ <;> exact ⟨hword, rfl⟩

theorem integerOf?_eq_some_iff {value : Json} {n : Int} : integerOf? value = some n ↔ StandsFor value n := by
  cases value with
  | integer m =>
    rw [integerOf?, ite_inSigned64_eq_some_iff]
    simp [StandsFor]
  | string s =>
    simp only [StandsFor, reduceCtorEq, false_or, Json.string.injEq, ← trim_eq_iff, ← Text.integer?_eq_some_iff]
    rw [integerOf?]
    cases hread : Text.integer? (trim s.toList) with
    | none => simp [hread]
    | some m =>
      simp only [ite_inSigned64_eq_some_iff]
      simp [hread]
  | _ => simp [integerOf?, StandsFor]

theorem integer?_eq_some_iff {data : Samples} {id : String} {n : Int} :
    data.integer? id = some n ↔ ∃ value, data.get? id = some value ∧ StandsFor value n := by
  simp only [integer?, Option.bind_eq_some_iff, integerOf?_eq_some_iff]

/-- The decimal text of an integer stands for it, with white space around it or none. -/
theorem standsFor_decimal {n : Int} (hn : InWord n) (before after : String)
    (hbefore : ∀ c ∈ before.toList, isBlank c = true) (hafter : ∀ c ∈ after.toList, isBlank c = true) :
    StandsFor (.string (before ++ toString n ++ after)) n := by
  refine ⟨hn, .inr ⟨_, (toString n).toList, rfl, ?_, numeral_decimal n⟩⟩
  rw [String.toList_append, String.toList_append]
  exact (numeral_decimal n).stripped hbefore hafter

theorem integer?_insert (data : Samples) (id : String) (value : Json) :
    (data.insert id value).integer? id = integerOf? value := by
  rw [integer?, get?_insert, if_pos rfl]
  rfl

/-- An id resolves to an integer exactly if the value kept under it stands for that integer: the integer itself, or a
text that without the white space at its ends is an optional sign and one or more ASCII digits, in the range of a
signed word. The decimal text of such an integer, with any white space around it, resolves to it, and so does the
integer. What lines print for it stands for it again, and they are read back with it. -/
theorem resolved_exactly (data : Samples) (id : String) (n : Int) :
    (data.integer? id = some n ↔ ∃ value, data.get? id = some value ∧ StandsFor value n) ∧
    (InWord n →
      (∀ before after : String, (∀ c ∈ before.toList, isBlank c = true) → (∀ c ∈ after.toList, isBlank c = true) →
        (data.insert id (.string (before ++ toString n ++ after))).integer? id = some n) ∧
      (data.insert id (.integer n)).integer? id = some n ∧
      ∀ (d : Dimension) (v : Variable), ∃ printed : String,
        (d.setLine n).render = "SET " ++ Line.quoted d.id ++ " = " ++ printed ++ "\n" ∧
        (Line.variable v.id n).render = "VARIABLE CHART " ++ Line.quoted v.id ++ " = " ++ printed ++ "\n" ∧
        StandsFor (.string printed) n ∧ (data.insert id (.string printed)).integer? id = some n ∧
        Line.read? (d.setLine n).body = some (.set (Line.bare d.id) n) ∧
        Line.read? (Line.variable v.id n).body = some (.variable (Line.bare v.id) n)) := by
  refine ⟨integer?_eq_some_iff, fun hn => ⟨fun before after hbefore hafter => ?_, ?_, fun d v => ?_⟩⟩
  · rw [integer?_insert, integerOf?_eq_some_iff]
    exact standsFor_decimal hn before after hbefore hafter
  · rw [integer?_insert, integerOf?_eq_some_iff]
    exact ⟨hn, .inl rfl⟩
  · have hprinted : StandsFor (.string (toString n)) n := by
      have h := standsFor_decimal hn "" "" nofun nofun
      rwa [String.empty_append, String.append_empty] at h
    refine ⟨toString n, ?_, ?_, hprinted, ?_, Line.read?_body (d.setLine n), Line.read?_body (.variable v.id n)⟩
    · exact Line.render_set d.id n
    · exact Line.render_variable v.id n
    · rwa [integer?_insert, integerOf?_eq_some_iff]

/-- The lowest integer of a word, between white space that is not all of ASCII. -/
theorem resolved_exactly_lowest :
    InWord (-2 ^ 63) ∧
      (empty.insert "level" (.string ("\u3000\t" ++ toString (-2 ^ 63 : Int) ++ "\u2029"))).integer? "level" =
        some (-2 ^ 63) ∧
      (empty.insert "level" (.integer (-2 ^ 63))).integer? "level" = some (-2 ^ 63) ∧
      Line.read? ((Dimension.ofId "level").setLine (-2 ^ 63)).body = some (.set "level" (-2 ^ 63)) := by
  have hword : InWord (-2 ^ 63) := by decide
  obtain ⟨htexts, hnumber, hlines⟩ := (resolved_exactly empty "level" (-2 ^ 63)).2 hword
  obtain ⟨printed, -, -, -, -, hread, -⟩ := hlines (.ofId "level") ⟨"level", none⟩
  exact ⟨hword, htexts _ _ (List.all_eq_true.mp rfl) (List.all_eq_true.mp rfl), hnumber, hread⟩

end Samples

end ChartStream
