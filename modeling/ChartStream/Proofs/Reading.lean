import ChartStream.Line
import ChartStream.Output.Sink
import ChartStream.Text.Integer

/-!
# Reading the stream

The receiver's side of the text. A line is cut into fields: a text ends at the next quote, a word at the
next space. `Line.read?` turns the fields back into a line, and what it gives for a rendered line is the
line itself with the quotes dropped from its texts (`Line.onWire`). The whole text is cut into lines in two
ways: `Line.readAll?` ends a line at a line break outside of texts, `Line.readLines?` at every line break.
Both read a rendered sequence back, the second one if no text of it holds a line break.
-/

namespace ChartStream

set_option autoImplicit false

/-! ## Numbers -/

namespace Text

theorem digit?_of_isDigit {c : Char} (h : c.isDigit = true) :
    digit? c = some (c.toNat - '0'.toNat) := by
  simp only [Char.isDigit, Bool.and_eq_true, decide_eq_true_eq] at h
  exact if_pos h

theorem digitsFrom?_of_isDigit (cs : List Char) (acc : Nat) (h : ∀ c ∈ cs, c.isDigit = true) :
    digitsFrom? acc cs = some (Nat.ofDigitChars 10 cs acc) := by
  induction cs generalizing acc with
  | nil => simp [digitsFrom?]
  | cons c cs ih =>
    rw [Nat.ofDigitChars_cons]
    simp only [digitsFrom?, digit?_of_isDigit (h c List.mem_cons_self)]
    exact ih _ fun d hd => h d (List.mem_cons_of_mem c hd)

theorem natural?_toDigits (n : Nat) : natural? (Nat.toDigits 10 n) = some n := by
  cases hd : Nat.toDigits 10 n with
  | nil => exact absurd hd Nat.toDigits_ne_nil
  | cons c cs =>
    have hdigits : ∀ d ∈ c :: cs, d.isDigit = true := by
      intro d hmem
      rw [← hd] at hmem
      exact Nat.isDigit_of_mem_toDigits (by decide) (by decide) hmem
    change digitsFrom? 0 (c :: cs) = some n
    rw [digitsFrom?_of_isDigit _ _ hdigits, ← hd, Nat.ofDigitChars_ten_toDigits]

theorem integer?_of_isDigit {c : Char} (cs : List Char) (h : c.isDigit = true) :
    integer? (c :: cs) = (natural? (c :: cs)).map Int.ofNat := by
  unfold integer?
  split
  · next heq =>
    rw [List.cons.injEq] at heq
    exact absurd (heq.1 ▸ h) (by decide)
  · next heq =>
    rw [List.cons.injEq] at heq
    exact absurd (heq.1 ▸ h) (by decide)
  · rfl

theorem integer?_repr (n : Int) : integer? n.repr.toList = some n := by
  rw [Int.repr_eq_if]
  split
  · next hn =>
    rw [Nat.toList_repr]
    have hread := natural?_toDigits n.toNat
    cases hd : Nat.toDigits 10 n.toNat with
    | nil => exact absurd hd Nat.toDigits_ne_nil
    | cons c cs =>
      have hc : c.isDigit = true := by
        apply Nat.isDigit_of_mem_toDigits (b := 10) (n := n.toNat) (by decide) (by decide)
        rw [hd]
        exact List.mem_cons_self
      rw [integer?_of_isDigit cs hc, ← hd, hread]
      simp [Int.toNat_of_nonneg hn]
  · next hn =>
    rw [String.toList_append, Nat.toList_repr]
    change (natural? (Nat.toDigits 10 (-n).toNat)).map (fun m => -Int.ofNat m) = some n
    rw [natural?_toDigits]
    have hneg : ((-n).toNat : Int) = -n := Int.toNat_of_nonneg (by omega)
    simp [hneg]

end Text

/-! ## Fields -/

namespace Line

/-- A text as it stands on the wire. -/
def bare (s : String) : String :=
  String.ofList (unquoted s.toList)

/-- A field: a text between quotes, or a word. -/
inductive Field where
  | text (s : String)
  | word (s : String)
  deriving DecidableEq, Repr

namespace Field

/-- The characters of a field. -/
def render : Field → String
  | .text s => quoted s
  | .word s => s

/-- The field with the quotes dropped from a text. -/
def onWire : Field → Field
  | .text s => .text (bare s)
  | .word s => .word s

/-- A word that can be told from a text and from the words beside it. -/
def Clear : Field → Prop
  | .text _ => True
  | .word s => s.toList ≠ [] ∧ ∀ c ∈ s.toList, c ≠ ' ' ∧ c ≠ '\'' ∧ c ≠ '\n' ∧ c ≠ '\r'

instance (f : Field) : Decidable f.Clear :=
  match f with
  | .text _ => inferInstanceAs (Decidable True)
  | .word s => @instDecidableAnd _ _ inferInstance (List.decidableBAll _ s.toList)

/-- Where in a line a reader is, with the characters of the field so far, the last one first. -/
inductive Place where
  | before
  | inText (read : List Char)
  | afterText
  | inWord (read : List Char)

/-- The fields of the rest of a line; `none` if it is not made of fields with single spaces between
them. -/
def readFrom : Place → List Char → Option (List Field)
  | .before, [] => none
  | .before, c :: cs =>
    if c = '\'' then readFrom (.inText []) cs
    else if c = ' ' then none
    else readFrom (.inWord [c]) cs
  | .inText _, [] => none
  | .inText read, c :: cs =>
    if c = '\'' then (readFrom .afterText cs).map (.text (String.ofList read.reverse) :: ·)
    else readFrom (.inText (c :: read)) cs
  | .afterText, [] => some []
  | .afterText, c :: cs => if c = ' ' then readFrom .before cs else none
  | .inWord read, [] => some [.word (String.ofList read.reverse)]
  | .inWord read, c :: cs =>
    if c = ' ' then (readFrom .before cs).map (.word (String.ofList read.reverse) :: ·)
    else readFrom (.inWord (c :: read)) cs

theorem readFrom_inText (read cs rest : List Char) (h : '\'' ∉ cs) :
    readFrom (.inText read) (cs ++ '\'' :: rest) =
      (readFrom .afterText rest).map (.text (String.ofList (read.reverse ++ cs)) :: ·) := by
  induction cs generalizing read with
  | nil => simp [readFrom]
  | cons c cs ih =>
    rw [List.mem_cons, not_or] at h
    rw [List.cons_append, readFrom, if_neg (Ne.symm h.1), ih (c :: read) h.2]
    simp

theorem readFrom_inWord (read cs rest : List Char) (h : ∀ c ∈ cs, c ≠ ' ') :
    readFrom (.inWord read) (cs ++ rest) = readFrom (.inWord (cs.reverse ++ read)) rest := by
  induction cs generalizing read with
  | nil => rfl
  | cons c cs ih =>
    rw [List.cons_append, readFrom, if_neg (h c List.mem_cons_self),
      ih (c :: read) fun d hd => h d (List.mem_cons_of_mem c hd)]
    simp

theorem readFrom_render (f : Field) (hf : f.Clear) (rest : List Char)
    (hrest : rest = [] ∨ ∃ more, rest = ' ' :: more) :
    readFrom .before (f.render.toList ++ rest) =
      (match rest with
        | [] => some []
        | _ :: more => readFrom .before more).map (f.onWire :: ·) := by
  cases f with
  | text s =>
    have hquote := quote_not_mem_unquoted s.toList
    simp only [render, quoted, String.toList_ofList, List.cons_append, List.append_assoc,
      List.nil_append]
    rw [readFrom, if_pos rfl, readFrom_inText [] _ rest hquote]
    rcases hrest with rfl | ⟨more, rfl⟩
    · rfl
    · rw [readFrom, if_pos rfl]
      rfl
  | word s =>
    obtain ⟨hne, hclear⟩ := hf
    cases hs : s.toList with
    | nil => exact absurd hs hne
    | cons c cs =>
      rw [hs] at hclear
      have hc := hclear c List.mem_cons_self
      have hword : String.ofList (c :: cs) = s := by rw [← hs, String.ofList_toList]
      simp only [render, hs, List.cons_append]
      rw [readFrom, if_neg hc.2.1, if_neg hc.1,
        readFrom_inWord [c] cs rest fun d hd => (hclear d (List.mem_cons_of_mem c hd)).1]
      rcases hrest with rfl | ⟨more, rfl⟩
      · simp [readFrom, onWire, hword]
      · rw [readFrom, if_pos rfl]
        simp [onWire, hword]

end Field

theorem readFrom_joined (fields : List Field) (hne : fields ≠ []) (h : ∀ f ∈ fields, f.Clear) :
    Field.readFrom .before (joined (fields.map Field.render)).toList =
      some (fields.map Field.onWire) := by
  induction fields with
  | nil => exact absurd rfl hne
  | cons f rest ih =>
    have hf := h f List.mem_cons_self
    cases rest with
    | nil =>
      have hread := Field.readFrom_render f hf [] (.inl rfl)
      rw [List.append_nil] at hread
      simpa [joined] using hread
    | cons g rest =>
      have hrest := ih (List.cons_ne_nil g rest) fun e he => h e (List.mem_cons_of_mem f he)
      have hspace : " ".toList = [' '] := rfl
      simp only [List.map_cons, joined, String.toList_append] at hrest ⊢
      rw [List.append_assoc, hspace, List.singleton_append,
        Field.readFrom_render f hf _ (.inr ⟨_, rfl⟩)]
      exact congrArg (Option.map (f.onWire :: ·)) hrest

/-! ## Lines -/

/-- The flags that a field of flags names. -/
def flags? (s : String) : Option (Bool × Bool) :=
  [(false, false), (true, false), (false, true), (true, true)].find? fun f => flags f.1 f.2 = s

theorem flags?_flags (hidden obsolete : Bool) : flags? (flags hidden obsolete) = some (hidden, obsolete) := by
  cases hidden <;> cases obsolete <;> decide

/-- The fields of a line as texts and words. -/
def parts : Line → List Field
  | .chart a =>
    [.word "CHART", .text a.fullId, .text a.name, .text a.title, .text a.units, .text a.family,
      .text a.context, .text a.style.name, .word (toString a.priority), .word (toString a.updateEvery),
      .text (flags a.hidden a.obsolete), .text a.plugin, .text a.module]
  | .label job => [.word "CLABEL", .text "_collect_job", .text job, .text "0"]
  | .labelsDone => [.word "CLABEL_COMMIT"]
  | .dimension d =>
    [.word "DIMENSION", .text d.id, .text d.name, .text d.algorithm.name,
      .word (toString d.multiplier), .word (toString d.divisor), .text (flags d.hidden d.obsolete)]
  | .variable id value =>
    [.word "VARIABLE", .word "CHART", .text id, .word "=", .word (toString value)]
  | .groupStart fullId sinceLast => [.word "BEGIN", .text fullId, .word (toString sinceLast)]
  | .set id value => [.word "SET", .text id, .word "=", .word (toString value)]
  | .groupEnd => [.word "END"]

theorem fields_eq_parts (line : Line) : line.fields = line.parts.map Field.render := by
  cases line <;> rfl

/-- The line that fields make up. -/
def ofFields? : List Field → Option Line
  | [.word "CHART", .text fullId, .text name, .text title, .text units, .text family, .text context,
      .text style, .word priority, .word updateEvery, .text marks, .text plugin, .text module] => do
    let style ← ChartStyle.ofName? style
    let priority ← Text.natural? priority.toList
    let updateEvery ← Text.natural? updateEvery.toList
    let (hidden, obsolete) ← flags? marks
    return .chart {
      fullId := fullId
      name := name
      title := title
      units := units
      family := family
      context := context
      style := style
      priority := priority
      updateEvery := updateEvery
      hidden := hidden
      obsolete := obsolete
      plugin := plugin
      module := module }
  | [.word "CLABEL", .text "_collect_job", .text job, .text "0"] => some (.label job)
  | [.word "CLABEL_COMMIT"] => some .labelsDone
  | [.word "DIMENSION", .text id, .text name, .text algorithm, .word multiplier, .word divisor,
      .text marks] => do
    let algorithm ← Algorithm.ofName? algorithm
    let multiplier ← Text.integer? multiplier.toList
    let divisor ← Text.integer? divisor.toList
    let (hidden, obsolete) ← flags? marks
    return .dimension {
      id := id
      name := name
      algorithm := algorithm
      multiplier := multiplier
      divisor := divisor
      hidden := hidden
      obsolete := obsolete }
  | [.word "VARIABLE", .word "CHART", .text id, .word "=", .word value] =>
    (Text.integer? value.toList).map (.variable id)
  | [.word "BEGIN", .text fullId, .word sinceLast] =>
    (Text.natural? sinceLast.toList).map (.groupStart fullId)
  | [.word "SET", .text id, .word "=", .word value] => (Text.integer? value.toList).map (.set id)
  | [.word "END"] => some .groupEnd
  | _ => none

/-- The line that some characters make up. -/
def read? (cs : List Char) : Option Line :=
  (Field.readFrom .before cs).bind ofFields?

end Line

/-- The announcement as it is read back. -/
def Announcement.onWire (a : Announcement) : Announcement :=
  { a with
    fullId := Line.bare a.fullId
    name := Line.bare a.name
    title := Line.bare a.title
    units := Line.bare a.units
    family := Line.bare a.family
    context := Line.bare a.context
    plugin := Line.bare a.plugin
    module := Line.bare a.module }

/-- The dimension as it is read back. -/
def Dimension.onWire (d : Dimension) : Dimension :=
  { d with id := Line.bare d.id, name := Line.bare d.name }

namespace Line

/-- The line as it is read back. -/
def onWire : Line → Line
  | .chart a => .chart a.onWire
  | .label job => .label (bare job)
  | .labelsDone => .labelsDone
  | .dimension d => .dimension d.onWire
  | .variable id value => .variable (bare id) value
  | .groupStart fullId sinceLast => .groupStart (bare fullId) sinceLast
  | .set id value => .set (bare id) value
  | .groupEnd => .groupEnd

theorem bare_flags (hidden obsolete : Bool) : bare (flags hidden obsolete) = flags hidden obsolete := by
  cases hidden <;> cases obsolete <;> rfl

theorem bare_styleName (style : ChartStyle) : bare style.name = style.name := by
  cases style <;> rfl

theorem bare_algorithmName (algorithm : Algorithm) : bare algorithm.name = algorithm.name := by
  cases algorithm <;> rfl

theorem ofFields?_parts (line : Line) : ofFields? (line.parts.map Field.onWire) = some line.onWire := by
  have hlabel : bare "_collect_job" = "_collect_job" := rfl
  have hzero : bare "0" = "0" := rfl
  cases line <;>
    simp [parts, ofFields?, Field.onWire, onWire, Announcement.onWire, Dimension.onWire, bare_flags,
      bare_styleName, bare_algorithmName, ChartStyle.ofName?_name, Algorithm.ofName?_name, flags?_flags,
      Text.natural?_toDigits, Text.integer?_repr, hlabel, hzero]

theorem parts_ne_nil (line : Line) : line.parts ≠ [] := by
  cases line <;> exact List.cons_ne_nil _ _

theorem Field.clear_natural (n : Nat) : (Field.word (toString n)).Clear := by
  rw [Nat.toString_eq_ofList_toDigits]
  refine ⟨by rw [String.toList_ofList]; exact Nat.toDigits_ne_nil, fun c hc => ?_⟩
  rw [String.toList_ofList] at hc
  have hdigit := Nat.isDigit_of_mem_toDigits (b := 10) (by decide) (by decide) hc
  refine ⟨?_, ?_, ?_, ?_⟩ <;> exact fun h => absurd (h ▸ hdigit) (by decide)

theorem Field.clear_integer (n : Int) : (Field.word (toString n)).Clear := by
  rw [Int.toString_eq_repr, Int.repr_eq_if]
  split
  · exact clear_natural n.toNat
  · obtain ⟨-, hclear⟩ := clear_natural (-n).toNat
    have hsign : "-".toList = ['-'] := rfl
    refine ⟨by simp [hsign], fun c hc => ?_⟩
    rw [String.toList_append, hsign, List.singleton_append, List.mem_cons] at hc
    rcases hc with rfl | hc
    · decide
    · exact hclear c hc

theorem parts_clear (line : Line) : ∀ f ∈ line.parts, f.Clear := by
  have htext : ∀ s, (Field.text s).Clear := fun _ => trivial
  have hchart : (Field.word "CHART").Clear := by decide
  have hlabel : (Field.word "CLABEL").Clear := by decide
  have hdone : (Field.word "CLABEL_COMMIT").Clear := by decide
  have hdimension : (Field.word "DIMENSION").Clear := by decide
  have hvariable : (Field.word "VARIABLE").Clear := by decide
  have hequals : (Field.word "=").Clear := by decide
  have hstart : (Field.word "BEGIN").Clear := by decide
  have hset : (Field.word "SET").Clear := by decide
  have hend : (Field.word "END").Clear := by decide
  cases line <;>
    simp only [parts, List.forall_mem_cons, htext, Field.clear_natural, Field.clear_integer, hchart, hlabel,
      hdone, hdimension, hvariable, hequals, hstart, hset, hend, true_and] <;>
    exact List.forall_mem_nil _

/-- A line without the line break that ends it. -/
def body (line : Line) : List Char :=
  (joined line.fields).toList

theorem render_toList (line : Line) : line.render.toList = line.body ++ ['\n'] := by
  rw [render, String.toList_append]
  rfl

/-- Reading a rendered line gives the line back, with the quotes dropped from its texts. -/
theorem read?_body (line : Line) : read? line.body = some line.onWire := by
  rw [read?, body, fields_eq_parts, readFrom_joined _ line.parts_ne_nil line.parts_clear]
  exact ofFields?_parts line

/-! ## Line breaks outside of texts -/

/-- Cuts characters at the line breaks that are in no text. `read` holds the characters of the current
line, the last one first. -/
def cutFrom (inText : Bool) (read : List Char) : List Char → List (List Char)
  | [] => if read.isEmpty then [] else [read.reverse]
  | c :: cs =>
    if c = '\n' ∧ inText = false then read.reverse :: cutFrom false [] cs
    else cutFrom (if c = '\'' then !inText else inText) (c :: read) cs

/-- The lines of a text, one for each line break that is in no text. -/
def readAll? (text : String) : Option (List Line) :=
  (cutFrom false [] text.toList).mapM read?

/-- Characters that are all of the current line, and after which no text is open. -/
def Whole (cs : List Char) : Prop :=
  ∀ read rest, cutFrom false read (cs ++ rest) = cutFrom false (cs.reverse ++ read) rest

theorem Whole.append {first second : List Char} (h1 : Whole first) (h2 : Whole second) :
    Whole (first ++ second) := by
  intro read rest
  rw [List.append_assoc, h1, h2, List.reverse_append, List.append_assoc]

theorem whole_of_clear {cs : List Char} (h : ∀ c ∈ cs, c ≠ '\'' ∧ c ≠ '\n') : Whole cs := by
  induction cs with
  | nil => exact fun _ _ => rfl
  | cons c cs ih =>
    intro read rest
    obtain ⟨hquote, hbreak⟩ := h c List.mem_cons_self
    have hrest := ih fun d hd => h d (List.mem_cons_of_mem c hd)
    rw [List.cons_append, cutFrom, if_neg (fun hc => hbreak hc.1), if_neg hquote, hrest]
    simp

theorem cutFrom_inText (read cs rest : List Char) (h : '\'' ∉ cs) :
    cutFrom true read (cs ++ '\'' :: rest) = cutFrom false ('\'' :: (cs.reverse ++ read)) rest := by
  induction cs generalizing read with
  | nil => simp [cutFrom]
  | cons c cs ih =>
    rw [List.mem_cons, not_or] at h
    rw [List.cons_append, cutFrom, if_neg (by simp), if_neg (Ne.symm h.1), ih (c :: read) h.2]
    simp

theorem whole_quoted (s : String) : Whole (quoted s).toList := by
  intro read rest
  rw [quoted, String.toList_ofList, List.cons_append, List.append_assoc, cutFrom,
    if_neg (by decide), if_pos rfl]
  have hread := cutFrom_inText ('\'' :: read) _ rest (quote_not_mem_unquoted s.toList)
  simpa using hread

theorem Field.whole_render (f : Field) (hf : f.Clear) : Whole f.render.toList := by
  cases f with
  | text s => exact whole_quoted s
  | word s => exact whole_of_clear fun c hc => ⟨(hf.2 c hc).2.1, (hf.2 c hc).2.2.1⟩

theorem whole_joined (fields : List Field) (h : ∀ f ∈ fields, f.Clear) :
    Whole (joined (fields.map Field.render)).toList := by
  induction fields with
  | nil => exact fun _ _ => rfl
  | cons f rest ih =>
    have hf := Field.whole_render f (h f List.mem_cons_self)
    have hrest := ih fun e he => h e (List.mem_cons_of_mem f he)
    have hspace : Whole " ".toList := whole_of_clear (by simp)
    cases rest with
    | nil => exact hf
    | cons g rest =>
      simp only [List.map_cons, joined, String.toList_append] at hrest ⊢
      exact (hf.append hspace).append hrest

theorem whole_body (line : Line) : Whole line.body := by
  rw [body, fields_eq_parts]
  exact whole_joined _ line.parts_clear

theorem cutFrom_renderAll (lines : List Line) :
    cutFrom false [] (renderAll lines).toList = lines.map body := by
  induction lines with
  | nil => rfl
  | cons line rest ih =>
    rw [renderAll_cons, String.toList_append, render_toList, List.append_assoc, whole_body,
      List.singleton_append, cutFrom, if_pos ⟨rfl, rfl⟩, ih]
    simp

theorem mapM_read?_body (lines : List Line) :
    (lines.map body).mapM read? = some (lines.map onWire) := by
  induction lines with
  | nil => rfl
  | cons line rest ih =>
    rw [List.map_cons, List.mapM_cons, read?_body, ih]
    rfl

/-- Reading a rendered sequence gives it back, whatever its texts hold. -/
theorem readAll?_renderAll (lines : List Line) :
    readAll? (renderAll lines) = some (lines.map onWire) := by
  rw [readAll?, cutFrom_renderAll, mapM_read?_body]

/-! ## All line breaks -/

/-- No text of the field holds a line break. -/
def Field.Plain : Field → Prop
  | .text s => '\n' ∉ s.toList
  | .word _ => True

instance (f : Field) : Decidable f.Plain :=
  match f with
  | .text s => inferInstanceAs (Decidable ('\n' ∉ s.toList))
  | .word _ => inferInstanceAs (Decidable True)

/-- No text of the line holds a line break. -/
def Plain (line : Line) : Prop :=
  ∀ f ∈ line.parts, f.Plain

instance (line : Line) : Decidable line.Plain :=
  inferInstanceAs (Decidable (∀ f ∈ line.parts, f.Plain))

/-- The lines of a text, one for each line break. -/
def readLines? (text : String) : Option (List Line) :=
  (linesOf text).mapM fun line => read? line.toList

theorem mem_unquoted {c : Char} {cs : List Char} (h : c ∈ unquoted cs) : c ∈ cs :=
  (List.mem_filter.mp h).1

theorem Field.lineBreak_not_mem_render (f : Field) (hf : f.Clear) (hp : f.Plain) :
    '\n' ∉ f.render.toList := by
  cases f with
  | text s =>
    intro h
    simp only [render, quoted, String.toList_ofList, List.mem_cons, List.mem_append,
      List.not_mem_nil, or_false] at h
    rcases h with h | h | h
    · exact absurd h (by decide)
    · exact hp (mem_unquoted h)
    · exact absurd h (by decide)
  | word s => exact fun h => (hf.2 _ h).2.2.1 rfl

theorem Field.render_eq_append (f : Field) (hf : f.Clear) :
    ∃ init c, f.render.toList = init ++ [c] ∧ c ≠ '\r' := by
  cases f with
  | text s =>
    refine ⟨'\'' :: unquoted s.toList, '\'', ?_, by decide⟩
    rw [render, quoted, String.toList_ofList]
    rfl
  | word s =>
    obtain ⟨hne, hclear⟩ := hf
    refine ⟨s.toList.dropLast, s.toList.getLast hne, (List.dropLast_concat_getLast hne).symm, ?_⟩
    exact (hclear _ (List.getLast_mem hne)).2.2.2

theorem joined_plain (fields : List Field) (h : ∀ f ∈ fields, f.Clear) (hp : ∀ f ∈ fields, f.Plain) :
    '\n' ∉ (joined (fields.map Field.render)).toList := by
  induction fields with
  | nil => exact List.not_mem_nil
  | cons f rest ih =>
    have hf := f.lineBreak_not_mem_render (h f List.mem_cons_self) (hp f List.mem_cons_self)
    have hrest := ih (fun e he => h e (List.mem_cons_of_mem f he))
      fun e he => hp e (List.mem_cons_of_mem f he)
    have hspace : '\n' ∉ " ".toList := by decide
    cases rest with
    | nil => exact hf
    | cons g rest =>
      simp only [List.map_cons, joined, String.toList_append, List.mem_append, not_or] at hrest ⊢
      exact ⟨⟨hf, hspace⟩, hrest⟩

theorem joined_eq_append (fields : List Field) (hne : fields ≠ []) (h : ∀ f ∈ fields, f.Clear) :
    ∃ init c, (joined (fields.map Field.render)).toList = init ++ [c] ∧ c ≠ '\r' := by
  induction fields with
  | nil => exact absurd rfl hne
  | cons f rest ih =>
    cases rest with
    | nil => exact f.render_eq_append (h f List.mem_cons_self)
    | cons g rest =>
      obtain ⟨init, c, hinit, hc⟩ :=
        ih (List.cons_ne_nil g rest) fun e he => h e (List.mem_cons_of_mem f he)
      refine ⟨(f.render ++ " ").toList ++ init, c, ?_, hc⟩
      rw [List.map_cons] at hinit ⊢
      rw [List.append_assoc, ← hinit, ← String.toList_append]
      rfl

theorem linesFrom_append (read cs rest : List Char) (h : '\n' ∉ cs) :
    linesFrom read (cs ++ rest) = linesFrom (cs.reverse ++ read) rest := by
  induction cs generalizing read with
  | nil => rfl
  | cons c cs ih =>
    rw [List.mem_cons, not_or] at h
    have hstep : linesFrom read (c :: (cs ++ rest)) = linesFrom (c :: read) (cs ++ rest) :=
      if_neg (Ne.symm h.1)
    rw [List.cons_append, hstep, ih (c :: read) h.2]
    simp

theorem linesFrom_lineBreak (init rest : List Char) (c : Char) (hc : c ≠ '\r') :
    linesFrom ((init ++ [c]).reverse) ('\n' :: rest) = (init ++ [c]) :: linesFrom [] rest := by
  rw [List.reverse_append, List.reverse_singleton, List.singleton_append]
  simp [linesFrom, hc]

theorem linesFrom_renderAll (lines : List Line) (h : ∀ line ∈ lines, line.Plain) :
    linesFrom [] (renderAll lines).toList = lines.map body := by
  induction lines with
  | nil => rfl
  | cons line rest ih =>
    have hbody : line.body = (joined (line.parts.map Field.render)).toList := by
      rw [body, fields_eq_parts]
    have hplain := joined_plain _ line.parts_clear (h line List.mem_cons_self)
    obtain ⟨init, c, hinit, hc⟩ := joined_eq_append _ line.parts_ne_nil line.parts_clear
    rw [← hbody] at hplain hinit
    rw [renderAll_cons, String.toList_append, render_toList, List.append_assoc,
      linesFrom_append _ _ _ hplain, List.append_nil, List.singleton_append, hinit,
      linesFrom_lineBreak init _ c hc, ih fun l hl => h l (List.mem_cons_of_mem line hl), ← hinit]
    rfl

/-- Reading line by line gives a rendered sequence back if its texts hold no line break. -/
theorem readLines?_renderAll (lines : List Line) (h : ∀ line ∈ lines, line.Plain) :
    readLines? (renderAll lines) = some (lines.map onWire) := by
  have hlines : linesOf (renderAll lines) = (lines.map body).map String.ofList := by
    rw [linesOf, linesFrom_renderAll lines h]
  rw [readLines?, hlines, ← mapM_read?_body lines]
  simp [List.mapM_map, Function.comp_def]

end Line

end ChartStream
