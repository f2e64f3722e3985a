import ChartStream.Duration.Text
import ChartStream.Proofs.Reading
import ChartStream.Proofs.SampleAgreement

/-!
# Written durations read back

A duration is written as counts of units that add up to it. Reading goes through the same counts one after the other,
and no sum on the way is longer than the whole. Main definitions: `Duration.Part`, `Duration.parts`. Main statement:
`Duration.read_toText`.
-/

namespace ChartStream.Duration

set_option autoImplicit false

/-! ## Counts of units -/

/-- The nanoseconds of one of a measure. -/
def Measure.worth : Measure → Nat
  | .seconds each => each * nanosPerSecond
  | .nanos each => each

/-- A count of a unit as it is written. -/
structure Part where
  count : Nat
  name : String
  each : Measure

namespace Part

def text (p : Part) : String :=
  toString p.count ++ p.name

/-- The nanoseconds of a part. -/
def worth (p : Part) : Nat :=
  p.count * p.each.worth

/-- The name is that of a unit of the measure. A count of nanoseconds is less than a second. -/
structure Readable (p : Part) : Prop where
  known : ∃ unit, unit? p.name.toList = some unit ∧ unit.whole = p.each
  worth_pos : 0 < p.each.worth
  short : ∀ each, p.each = .nanos each → p.count * each < nanosPerSecond

end Part

/-- The nanoseconds of some parts. -/
def worthOf : List Part → Nat
  | [] => 0
  | p :: rest => p.worth + worthOf rest

theorem worthOf_cons (p : Part) (rest : List Part) : worthOf (p :: rest) = p.worth + worthOf rest := by
  rw [worthOf]

theorem Part.worth_of_seconds {p : Part} {each : Nat} (h : p.each = .seconds each) :
    p.worth = p.count * each * nanosPerSecond := by
  rw [worth, h, Measure.worth, Nat.mul_assoc]

theorem Part.worth_of_nanos {p : Part} {each : Nat} (h : p.each = .nanos each) : p.worth = p.count * each := by
  rw [worth, h, Measure.worth]

/-! ## Adding up -/

theorem word?_of_lt {n : Nat} (h : n < UInt64.size) : word? n = some n :=
  if_pos (decide_eq_true h)

theorem add_eq (d : Duration) (seconds nanos : Nat) {total : Nat} (hnanos : nanos < nanosPerSecond)
    (htotal : d.nanos + seconds * nanosPerSecond + nanos = total) (hlimit : total < durationLimit) :
    d.add seconds nanos = .ok ⟨total, hlimit⟩ := by
  have hbeyond : Text.inUnsigned 64 (d.subsecNanos + nanos) = true := by
    have hsub : d.subsecNanos < nanosPerSecond := Nat.mod_lt _ (by decide)
    have hsecond : nanosPerSecond = 1000000000 := rfl
    have hsize : Nat.pow 2 64 = 18446744073709551616 := rfl
    refine decide_eq_true ?_
    omega
  rw [add, hbeyond, htotal, ofNanos?_of_lt hlimit]
  rfl

theorem count?_ofNat {n each : Nat} (h : n * each < UInt64.size) : count? (.ofNat n) each = some (n * each) := by
  rw [count?, Decimals.ofNat, word?_of_lt h]
  simp [Nat.mod_one]

/-- A part that does not make the duration too long is added to it. -/
theorem addMeasure_part (d : Duration) {p : Part} (hp : p.Readable) {total : Nat} (htotal : d.nanos + p.worth = total)
    (hlimit : total < durationLimit) : d.addMeasure (.ofNat p.count) p.each = .ok ⟨total, hlimit⟩ := by
  cases heach : p.each with
  | seconds each =>
    have hworth := Part.worth_of_seconds heach
    have hword : p.count * each < UInt64.size := by
      have hbound : p.count * each * nanosPerSecond < durationLimit :=
        Nat.lt_of_le_of_lt (hworth ▸ htotal ▸ Nat.le_add_left _ _) hlimit
      exact Nat.lt_of_mul_lt_mul_right hbound
    have hadd := d.add_eq (p.count * each) 0 (by decide)
      (by rw [Nat.add_zero, ← hworth, htotal]) hlimit
    rw [addMeasure, count?_ofNat hword]
    exact hadd
  | nanos each =>
    have hworth := Part.worth_of_nanos heach
    have hshort : p.count * each < nanosPerSecond := hp.short each heach
    have hsecond : nanosPerSecond < UInt64.size := by decide
    have hadd := d.add_eq 0 (p.count * each) hshort
      (by rw [Nat.zero_mul, Nat.add_zero, ← hworth, htotal]) hlimit
    rw [addMeasure, count?_ofNat (Nat.lt_trans hshort hsecond)]
    exact hadd

theorem addAmount_part (d : Duration) {p : Part} (hp : p.Readable) {total : Nat} (htotal : d.nanos + p.worth = total)
    (hlimit : total < durationLimit) : d.addAmount ⟨p.count, none, p.name.toList⟩ = .ok ⟨total, hlimit⟩ := by
  obtain ⟨unit, hunit, hwhole⟩ := hp.known
  have hadd := d.addMeasure_part hp htotal hlimit
  simp only [addAmount, hunit, hwhole, hadd]
  rfl

/-! ## The characters of parts -/

theorem spelled_of_unit? {name : List Char} {unit : Unit} (h : unit? name = some unit) :
    name ≠ [] ∧ ∀ c ∈ name, inUnit c = true := by
  have hall : (units.all fun u => u.names.all fun n => !n.toList.isEmpty && n.toList.all inUnit) = true := by
    decide +kernel
  have hname : String.ofList name ∈ unit.names := by simpa using List.find?_some h
  have hnames := List.all_eq_true.mp hall unit (List.mem_of_find?_eq_some h)
  have hspelled := List.all_eq_true.mp hnames _ hname
  simpa [List.all_eq_true, String.toList_ofList] using hspelled

/-- Letters are neither digits nor white space. -/
theorem not_digit_of_inUnit {c : Char} (h : inUnit c = true) : Text.digit? c = none ∧ Text.isBlank c = false := by
  have hrange : (97 ≤ c.toNat ∧ c.toNat ≤ 122) ∨ (65 ≤ c.toNat ∧ c.toNat ≤ 90) ∨ c.toNat = 181 := by
    simp only [inUnit, Bool.or_eq_true, Bool.and_eq_true, decide_eq_true_eq, beq_iff_eq, or_assoc] at h
    refine h.imp id (Or.imp id fun hmicro => ?_)
    rw [hmicro]
    rfl
  constructor
  · refine if_neg fun hdigit => ?_
    have hbounds : 48 ≤ c.toNat ∧ c.toNat ≤ 57 := hdigit
    omega
  · simp only [Text.isBlank, Text.blankRanges, List.any_cons, List.any_nil, Bool.or_false, Bool.or_eq_false_iff,
      Bool.and_eq_false_iff, decide_eq_false_iff_not]
    omega

theorem not_blank_of_digits {n : Nat} {c : Char} {cs : List Char} (h : Nat.toDigits 10 n = c :: cs) :
    c.isDigit = true ∧ (∀ d ∈ cs, d.isDigit = true) ∧ Text.isBlank c = false := by
  have hall : ∀ d ∈ c :: cs, d.isDigit = true := by
    intro d hd
    rw [← h] at hd
    exact Nat.isDigit_of_mem_toDigits (by decide) (by decide) hd
  obtain ⟨hc, hcs⟩ := List.forall_mem_cons.mp hall
  exact ⟨hc, hcs, Text.isBlank_of_isDigit hc⟩

namespace Part

/-- The characters of a part. -/
def chars (p : Part) : List Char :=
  Nat.toDigits 10 p.count ++ p.name.toList

/-- The characters of parts behind another one. -/
def following (parts : List Part) : List Char :=
  parts.flatMap fun p => ' ' :: p.chars

theorem following_cons (p : Part) (rest : List Part) :
    following (p :: rest) = ' ' :: (p.chars ++ following rest) :=
  List.flatMap_cons

/-- Each of the parts is at least one character long. -/
theorem length_le_following (rest : List Part) : rest.length ≤ (following rest).length := by
  induction rest with
  | nil => exact Nat.zero_le _
  | cons p rest ih =>
    rw [following_cons, List.length_cons, List.length_cons, List.length_append]
    omega

theorem toList_text (p : Part) : p.text.toList = p.chars := by
  rw [text, String.toList_append]
  exact congrArg (· ++ p.name.toList) Nat.toList_repr

theorem toList_intercalate (p : Part) (rest : List Part) :
    (" ".intercalate ((p :: rest).map text)).toList = p.chars ++ following rest := by
  rw [String.toList_intercalate]
  induction rest generalizing p with
  | nil => simp [following, toList_text]
  | cons q rest ih =>
    have hspace : " ".toList = [' '] := rfl
    simp only [List.map_cons, List.intercalate_cons_cons, toList_text, hspace] at ih ⊢
    rw [ih q, following_cons, List.append_assoc]
    rfl

/-- A count is not longer than what it adds. -/
theorem count_lt {p : Part} (hp : p.Readable) (h : p.worth < durationLimit) : p.count < UInt64.size := by
  cases heach : p.each with
  | seconds each =>
    have hpos : 0 < each * nanosPerSecond := by
      have hworth := hp.worth_pos
      rwa [heach] at hworth
    have hone : p.count * 1 ≤ p.count * each := Nat.mul_le_mul_left _ (Nat.pos_of_mul_pos_right hpos)
    rw [worth_of_seconds heach] at h
    have hword : p.count * each < UInt64.size := Nat.lt_of_mul_lt_mul_right h
    omega
  | nanos each =>
    have hpos : 0 < each := by
      have hworth := hp.worth_pos
      rwa [heach] at hworth
    have hone : p.count * 1 ≤ p.count * each := Nat.mul_le_mul_left _ hpos
    have hshort := hp.short each heach
    have hsecond : nanosPerSecond < UInt64.size := by decide
    omega

end Part

/-! ## Reading parts -/

theorem le_ofDigitChars (ds : List Char) (acc : Nat) : acc ≤ Nat.ofDigitChars 10 ds acc := by
  rw [Nat.ofDigitChars_eq_ofDigitChars_zero]
  have hpos : 1 * acc ≤ 10 ^ ds.length * acc := Nat.mul_le_mul_right acc (Nat.one_le_pow _ _ (by decide))
  omega

/-- The digits of a number are read up to the name of its unit. -/
theorem readNumber?_append {ds name : List Char} {acc : Nat} (hds : ∀ c ∈ ds, c.isDigit = true) (hne : name ≠ [])
    (hname : ∀ c ∈ name, inUnit c = true) (hword : Nat.ofDigitChars 10 ds acc < UInt64.size) (after : List Char) :
    readNumber? acc (ds ++ (name ++ after)) = some (Nat.ofDigitChars 10 ds acc, none, name ++ after) := by
  induction ds generalizing acc with
  | nil =>
    obtain ⟨c, more, rfl⟩ := List.exists_cons_of_ne_nil hne
    have hc := hname c List.mem_cons_self
    obtain ⟨hdigit, hblank⟩ := not_digit_of_inUnit hc
    simp [readNumber?, hdigit, hblank, hc]
  | cons c ds ih =>
    obtain ⟨hc, hds⟩ := List.forall_mem_cons.mp hds
    rw [Nat.ofDigitChars_cons, Nat.mul_comm] at hword ⊢
    have hnext : word? (acc * 10 + (c.toNat - '0'.toNat)) = some (acc * 10 + (c.toNat - '0'.toNat)) :=
      word?_of_lt (Nat.lt_of_le_of_lt (le_ofDigitChars ds _) hword)
    rw [List.cons_append, readNumber?, Text.digit?_of_isDigit hc]
    simp only [hnext, Option.bind_some]
    exact ih hds hword

theorem takeWhile_following (rest : List Part) : (Part.following rest).takeWhile inUnit = [] := by
  cases rest <;> rfl

/-- Behind a part comes nothing, or a blank. -/
theorem head_following (rest : List Part) :
    ((Part.following rest).head?.any fun c => (Text.digit? c).isNone && !Text.isBlank c) = false := by
  cases rest <;> rfl

/-- From the digits of a part on, that part is added, and what comes next decides. -/
theorem readAmounts_step {p : Part} (hp : p.Readable) (rest : List Part) {d : Duration} (next : Duration)
    (hnext : d.nanos + p.worth = next.nanos) (fuel : Nat) {c : Char} {cs : List Char}
    (hdigits : Nat.toDigits 10 p.count = c :: cs) :
    readAmounts (fuel + 1) d (c.toNat - '0'.toNat) (cs ++ (p.name.toList ++ Part.following rest)) =
      match (Part.following rest).dropWhile Text.isBlank with
      | [] => .ok next
      | c :: more =>
        match Text.digit? c with
        | some n => readAmounts fuel next n more
        | none => .error .refused := by
  obtain ⟨-, hcs, -⟩ := not_blank_of_digits hdigits
  obtain ⟨unit, hunit, -⟩ := hp.known
  obtain ⟨hne, hname⟩ := spelled_of_unit? hunit
  have hcount : Nat.ofDigitChars 10 cs (c.toNat - '0'.toNat) = p.count := by
    have hread := Nat.ofDigitChars_ten_toDigits (n := p.count)
    rwa [hdigits, Nat.ofDigitChars_cons, Nat.mul_zero, Nat.zero_add] at hread
  have hword : p.count < UInt64.size :=
    Part.count_lt hp (Nat.lt_of_le_of_lt (hnext ▸ Nat.le_add_left _ _) next.nanos_lt)
  have hnumber := readNumber?_append hcs hne hname (hcount.symm ▸ hword) (Part.following rest)
  rw [hcount] at hnumber
  have htaken : (p.name.toList ++ Part.following rest).takeWhile inUnit = p.name.toList := by
    rw [List.takeWhile_append_of_pos hname, takeWhile_following, List.append_nil]
  have hadded : d.addAmount ⟨p.count, none, p.name.toList⟩ = .ok next := d.addAmount_part hp hnext next.nanos_lt
  rw [readAmounts, hnumber]
  simp only [htaken, List.drop_left, head_following, Bool.false_eq_true, if_false, hadded]
  rfl

/-- From the digits of a part on, that part is read and then the other ones. -/
theorem readAmounts_parts {p : Part} {rest : List Part} (hparts : ∀ q ∈ p :: rest, q.Readable) {d whole : Duration}
    (hwhole : d.nanos + worthOf (p :: rest) = whole.nanos) {fuel : Nat} (hfuel : rest.length < fuel) {c : Char}
    {cs : List Char} (hdigits : Nat.toDigits 10 p.count = c :: cs) :
    readAmounts fuel d (c.toNat - '0'.toNat) (cs ++ (p.name.toList ++ Part.following rest)) = .ok whole := by
  induction rest generalizing p d fuel c cs with
  | nil =>
    obtain ⟨fuel, rfl⟩ := Nat.exists_eq_add_one_of_ne_zero (Nat.ne_of_gt hfuel)
    have hone : d.nanos + p.worth = whole.nanos := hwhole
    rw [readAmounts_step (hparts p List.mem_cons_self) [] whole hone fuel hdigits]
    rfl
  | cons q rest ih =>
    obtain ⟨fuel, rfl⟩ := Nat.exists_eq_add_one_of_ne_zero (Nat.ne_zero_of_lt hfuel)
    obtain ⟨hp, hrest⟩ := List.forall_mem_cons.mp hparts
    rw [worthOf_cons, ← Nat.add_assoc] at hwhole
    let next : Duration := ⟨d.nanos + p.worth, Nat.lt_of_le_of_lt (hwhole ▸ Nat.le_add_right _ _) whole.nanos_lt⟩
    rw [readAmounts_step hp (q :: rest) next rfl fuel hdigits, Part.following_cons]
    obtain ⟨first, digits, hq⟩ := List.exists_cons_of_ne_nil (Nat.toDigits_ne_nil (n := q.count) (b := 10))
    obtain ⟨hfirst, -, hblank⟩ := not_blank_of_digits hq
    have hdropped : (' ' :: (q.chars ++ Part.following rest)).dropWhile Text.isBlank =
        first :: (digits ++ (q.name.toList ++ Part.following rest)) := by
      rw [List.dropWhile_cons_of_pos (by decide), Part.chars, hq]
      simp [hblank]
    rw [hdropped]
    simp only [Text.digit?_of_isDigit hfirst]
    exact ih hrest (d := next) hwhole (Nat.lt_of_succ_lt_succ hfuel) hq

/-! ## The parts of a duration -/

/-- The amount of a part; nothing for a count of zero. -/
def Part.items (p : Part) : List String :=
  if p.count = 0 then [] else [p.text]

/-- A count of a long unit of some seconds. -/
def Part.long (count : Nat) (unit : String) (each : Nat) : Part :=
  ⟨count, unit ++ (if count = 1 then "" else "s"), .seconds each⟩

/-- The counts of all units from the largest on, zero or not. -/
def parts (d : Duration) : List Part :=
  let inYear := d.seconds % yearSeconds
  let inMonth := inYear % monthSeconds
  let inDay := inMonth % daySeconds
  [.long (d.seconds / yearSeconds) "year" yearSeconds,
    .long (inYear / monthSeconds) "month" monthSeconds,
    .long (inMonth / daySeconds) "day" daySeconds,
    ⟨inDay / 3600, "h", .seconds 3600⟩,
    ⟨inDay % 3600 / 60, "m", .seconds 60⟩,
    ⟨inDay % 60, "s", .seconds 1⟩,
    ⟨d.subsecNanos / 1000000, "ms", .nanos 1000000⟩,
    ⟨d.subsecNanos / 1000 % 1000, "us", .nanos 1000⟩,
    ⟨d.subsecNanos % 1000, "ns", .nanos 1⟩]

/-- The parts that are written. -/
def written (d : Duration) : List Part :=
  d.parts.filter (·.count ≠ 0)

theorem longItem_eq (n : Nat) (unit : String) (each : Nat) : longItem n unit = (Part.long n unit each).items := by
  rw [longItem, Part.items, Part.text, Part.long, String.append_assoc]

theorem amounts_eq (d : Duration) : d.amounts = d.written.map Part.text := by
  have hitems (ps : List Part) : ps.flatMap Part.items = (ps.filter (·.count ≠ 0)).map Part.text := by
    induction ps with
    | nil => rfl
    | cons p rest ih =>
      by_cases hzero : p.count = 0
      · simp [Part.items, hzero, ih]
      · simp [Part.items, hzero, ih]
  rw [written, ← hitems]
  simp only [amounts, longItem_eq _ "year" yearSeconds, longItem_eq _ "month" monthSeconds,
    longItem_eq _ "day" daySeconds, parts, List.flatMap_cons, List.flatMap_nil, List.append_assoc, List.append_nil]
  rfl

theorem seconds_split (n : Nat) :
    n / yearSeconds * yearSeconds + n % yearSeconds / monthSeconds * monthSeconds +
      n % yearSeconds % monthSeconds / daySeconds * daySeconds +
      n % yearSeconds % monthSeconds % daySeconds / 3600 * 3600 +
      n % yearSeconds % monthSeconds % daySeconds % 3600 / 60 * 60 +
      n % yearSeconds % monthSeconds % daySeconds % 60 * 1 = n := by
  have hday (m : Nat) : m / 3600 * 3600 + m % 3600 / 60 * 60 + m % 60 * 1 = m := by omega
  have hyear := Nat.div_add_mod' n yearSeconds
  have hmonth := Nat.div_add_mod' (n % yearSeconds) monthSeconds
  have hmonthDay := Nat.div_add_mod' (n % yearSeconds % monthSeconds) daySeconds
  have hlast := hday (n % yearSeconds % monthSeconds % daySeconds)
  omega

theorem nanos_split (before n : Nat) :
    before + n / 1000000 * 1000000 + n / 1000 % 1000 * 1000 + n % 1000 * 1 = before + n := by
  omega

/-- The counts add up to the duration. -/
theorem worthOf_parts (d : Duration) : worthOf d.parts = d.nanos := by
  have hlong (count each : Nat) (unit : String) :
      (Part.long count unit each).worth = count * each * nanosPerSecond :=
    Part.worth_of_seconds rfl
  have hshort (count each : Nat) (name : String) :
      (⟨count, name, .seconds each⟩ : Part).worth = count * each * nanosPerSecond :=
    Part.worth_of_seconds rfl
  have hbelow (count each : Nat) (name : String) : (⟨count, name, .nanos each⟩ : Part).worth = count * each :=
    Part.worth_of_nanos rfl
  have hnone : worthOf [] = 0 := rfl
  have hwhole : d.seconds * nanosPerSecond + d.subsecNanos = d.nanos := Nat.div_add_mod' _ _
  rw [parts]
  simp only [worthOf_cons, hnone, hlong, hshort, hbelow, ← Nat.add_assoc, ← Nat.add_mul]
  rw [Nat.add_zero, seconds_split, nanos_split, hwhole]

/-- Counts of zero add nothing. -/
theorem worthOf_written (d : Duration) : worthOf d.written = d.nanos := by
  have hfilter (ps : List Part) : worthOf (ps.filter (·.count ≠ 0)) = worthOf ps := by
    induction ps with
    | nil => rfl
    | cons p rest ih =>
      by_cases hzero : p.count = 0
      · simpa [worthOf, Part.worth, hzero] using ih
      · simpa [worthOf, hzero] using ih
  rw [written, hfilter, worthOf_parts]

theorem Part.readable_seconds (count : Nat) {each : Nat} {name : String} (hpos : 0 < each)
    (hknown : ∃ unit, unit? name.toList = some unit ∧ unit.whole = .seconds each) :
    (⟨count, name, .seconds each⟩ : Part).Readable :=
  ⟨hknown, Nat.mul_pos hpos (by decide), nofun⟩

theorem Part.readable_nanos {count each : Nat} {name : String} (hpos : 0 < each)
    (hshort : count * each < nanosPerSecond)
    (hknown : ∃ unit, unit? name.toList = some unit ∧ unit.whole = .nanos each) :
    (⟨count, name, .nanos each⟩ : Part).Readable :=
  ⟨hknown, hpos, fun _ heach => Measure.nanos.inj heach ▸ hshort⟩

/-- A long unit is known by both of its names. -/
theorem Part.readable_long (count : Nat) {each : Nat} {unit : String} (hpos : 0 < each)
    (hone : ∃ u, unit? unit.toList = some u ∧ u.whole = .seconds each)
    (hmany : ∃ u, unit? (unit ++ "s").toList = some u ∧ u.whole = .seconds each) :
    (Part.long count unit each).Readable := by
  refine readable_seconds count hpos ?_
  split
  · rwa [String.append_empty]
  · exact hmany

theorem readable_of_mem_parts (d : Duration) : ∀ p ∈ d.parts, p.Readable := by
  have hsub : d.subsecNanos < nanosPerSecond := Nat.mod_lt _ (by decide)
  have hsecond : nanosPerSecond = 1000000000 := rfl
  simp only [parts, List.forall_mem_cons, List.not_mem_nil, false_imp_iff, implies_true, and_true]
  refine ⟨Part.readable_long _ (by decide) ⟨_, rfl, rfl⟩ ⟨_, rfl, rfl⟩,
    Part.readable_long _ (by decide) ⟨_, rfl, rfl⟩ ⟨_, rfl, rfl⟩,
    Part.readable_long _ (by decide) ⟨_, rfl, rfl⟩ ⟨_, rfl, rfl⟩,
    Part.readable_seconds _ (by decide) ⟨_, rfl, rfl⟩, Part.readable_seconds _ (by decide) ⟨_, rfl, rfl⟩,
    Part.readable_seconds _ (by decide) ⟨_, rfl, rfl⟩, Part.readable_nanos (by decide) ?_ ⟨_, rfl, rfl⟩,
    Part.readable_nanos (by decide) ?_ ⟨_, rfl, rfl⟩, Part.readable_nanos (by decide) ?_ ⟨_, rfl, rfl⟩⟩
  all_goals omega

/-! ## Reading back -/

/-- What is written of a duration is read as that duration. -/
theorem read_toText (d : Duration) : read d.toText = .ok d := by
  by_cases hzero : d.nanos = 0
  · have hd : d = zero := by
      cases d
      cases hzero
      rfl
    rw [hd]
    decide +kernel
  obtain ⟨p, rest, hwritten⟩ : ∃ p rest, d.written = p :: rest := by
    refine List.exists_cons_of_ne_nil fun hnone => hzero ?_
    rw [← worthOf_written, hnone]
    rfl
  have hreadable : ∀ q ∈ p :: rest, q.Readable := by
    intro q hq
    rw [← hwritten] at hq
    exact readable_of_mem_parts d q (List.mem_of_mem_filter hq)
  obtain ⟨c, cs, hdigits⟩ := List.exists_cons_of_ne_nil (Nat.toDigits_ne_nil (n := p.count) (b := 10))
  obtain ⟨hc, -, hblank⟩ := not_blank_of_digits hdigits
  have htext : d.toText.toList = c :: (cs ++ (p.name.toList ++ Part.following rest)) := by
    rw [toText, if_neg hzero, amounts_eq, hwritten, Part.toList_intercalate, Part.chars, hdigits]
    simp
  have hnot : d.toText ≠ "0" := by
    intro hlone
    have hlong : d.toText.toList.length = 1 := by rw [hlone]; rfl
    obtain ⟨unit, hunit, -⟩ := (hreadable p List.mem_cons_self).known
    have hname : 0 < p.name.toList.length := List.length_pos_iff.mpr (spelled_of_unit? hunit).1
    rw [htext, List.length_cons, List.length_append, List.length_append] at hlong
    omega
  have hfuel : rest.length < (cs ++ (p.name.toList ++ Part.following rest)).length + 1 := by
    have hmany := Part.length_le_following rest
    simp only [List.length_append]
    omega
  have hwhole : zero.nanos + worthOf (p :: rest) = d.nanos := by
    rw [← hwritten, worthOf_written]
    exact Nat.zero_add _
  rw [read, if_neg hnot, htext, List.dropWhile_cons_of_neg (by simp [hblank])]
  simp only [Text.digit?_of_isDigit hc]
  exact readAmounts_parts hreadable hwhole hfuel hdigits

/-- The longest duration goes through all units. -/
example : toText ⟨18446744073709551615999999999, by decide⟩ =
    "584542046090years 7months 15days 17h 5m 3s 999ms 999us 999ns" := by
  decide +kernel

end ChartStream.Duration
