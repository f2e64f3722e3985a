import ChartStream.Parameters
import ChartStream.Proofs.Reading

/-!
# Line breaks in parameters

The compact text of a JSON value holds no line break (`Json.lineBreak_not_mem_write`). So the text of a slot
holds one only if a string with one stands there (`Parameters.lineBreak_mem_text_iff`).
-/

namespace ChartStream

set_option autoImplicit false

/-! ## Numbers -/

theorem Text.lineBreak_not_mem_digits (n : Nat) : '\n' ∉ Nat.toDigits 10 n := by
  intro h
  have hdigit := Nat.isDigit_of_mem_toDigits (b := 10) (by decide) (by decide) h
  cases hdigit

namespace Double

theorem lineBreak_not_mem_withPoint {digits : List Char} (h : '\n' ∉ digits) (places : Nat) :
    '\n' ∉ withPoint digits places := by
  simp only [withPoint, List.mem_append, List.mem_cons, not_or]
  refine ⟨fun hmem => h (List.mem_of_mem_take hmem), by decide, ?_⟩
  split
  · decide
  · exact fun hmem => h (List.mem_of_mem_drop hmem)

theorem lineBreak_not_mem_layout (c : Nat) (k : Int) : '\n' ∉ layout c k := by
  have hdigits := Text.lineBreak_not_mem_digits c
  have hzeros : ∀ n, '\n' ∉ List.replicate n '0' := fun n h => by cases List.eq_of_mem_replicate h
  unfold layout
  dsimp only
  split
  · split
    · simp only [List.cons_append, List.mem_cons, List.mem_append, not_or]
      exact ⟨by decide, by decide, hzeros _, hdigits⟩
    · refine lineBreak_not_mem_withPoint ?_ _
      rw [List.mem_append, not_or]
      exact ⟨hdigits, hzeros _⟩
  · simp only [List.mem_append, List.mem_cons, not_or]
    refine ⟨?_, by decide, ?_, Text.lineBreak_not_mem_digits _⟩
    · split
      · next hone => exact hone ▸ hdigits
      · exact lineBreak_not_mem_withPoint hdigits 1
    · split <;> decide

theorem lineBreak_not_mem_toText (d : Double) : '\n' ∉ d.toText.toList := by
  have hlayout := lineBreak_not_mem_layout d.magnitude.shortest.1 d.magnitude.shortest.2
  rw [toText, String.toList_ofList]
  split
  · rw [List.mem_cons, not_or]
    exact ⟨by decide, hlayout⟩
  · exact hlayout

end Double

/-! ## Values -/

namespace Json

theorem hexDigit_ne_lineBreak : ∀ n < 16, '\n' ≠ hexDigit n := by
  decide

theorem lineBreak_not_mem_escape (c : Char) : '\n' ∉ escape c := by
  -- Below a space most characters are escaped by their number.
  have hcontrol : c.toNat < 0x20 →
      '\n' ∉ ['\\', 'u', '0', '0', hexDigit (c.toNat / 16), hexDigit (c.toNat % 16)] := by
    intro hc
    have hhigh := hexDigit_ne_lineBreak (c.toNat / 16) (by omega)
    have hlow := hexDigit_ne_lineBreak (c.toNat % 16) (by omega)
    simp [hhigh, hlow]
  unfold escape
  repeat' split
  case isFalse.isFalse.isFalse.isFalse.isFalse.isFalse.isFalse.isTrue hc => exact hcontrol hc
  case isFalse.isFalse.isFalse.isFalse.isFalse.isFalse.isFalse.isFalse hbreak _ _ _ _ _ =>
    exact fun h => hbreak (List.mem_singleton.mp h).symm
  all_goals decide

theorem lineBreak_not_mem_quoted (s : String) : '\n' ∉ (quoted s).toList := by
  simp only [quoted, String.toList_ofList, List.mem_cons, List.mem_append, List.mem_flatMap, List.not_mem_nil,
    or_false, not_or, not_exists, not_and]
  exact ⟨by decide, fun c _ => lineBreak_not_mem_escape c, by decide⟩

mutual

theorem lineBreak_not_mem_write : (v : Json) → '\n' ∉ v.write.toList
  | .null => by decide
  | .bool true => by decide
  | .bool false => by decide
  | .integer n => fun h => ((Line.Field.clear_integer n).2 _ h).2.2.1 rfl
  | .double d => d.lineBreak_not_mem_toText
  | .string s => lineBreak_not_mem_quoted s
  | .array items => by
    have hitems := lineBreak_not_mem_writeItems items
    simp [write, hitems]
  | .object fields => by
    have hfields := lineBreak_not_mem_writeFields fields
    simp [write, hfields]

theorem lineBreak_not_mem_writeItems : (items : List Json) → '\n' ∉ (writeItems items).toList
  | [] => by decide
  | [item] => lineBreak_not_mem_write item
  | item :: next :: rest => by
    have hitem := lineBreak_not_mem_write item
    have hrest := lineBreak_not_mem_writeItems (next :: rest)
    simp [writeItems, hitem, hrest]

theorem lineBreak_not_mem_writeFields : (fields : List (String × Json)) → '\n' ∉ (writeFields fields).toList
  | [] => by decide
  | [(name, value)] => by
    have hname := lineBreak_not_mem_quoted name
    have hvalue := lineBreak_not_mem_write value
    simp [writeFields, hname, hvalue]
  | (name, value) :: next :: rest => by
    have hname := lineBreak_not_mem_quoted name
    have hvalue := lineBreak_not_mem_write value
    have hrest := lineBreak_not_mem_writeFields (next :: rest)
    simp [writeFields, hname, hvalue, hrest]

end

/-- In the slot of a parameter list there is a string with a line break. -/
def BreaksAt (params : Json) (slot : Nat) : Prop :=
  ∃ slots s, params = .array slots ∧ slots[slot]? = some (.string s) ∧ '\n' ∈ s.toList

end Json

/-! ## Slots -/

namespace Parameters

theorem lineBreak_mem_textOf_iff (v : Json) :
    '\n' ∈ (textOf v).toList ↔ ∃ s, v = .string s ∧ '\n' ∈ s.toList := by
  cases v with
  | string s => simp [textOf]
  | null => simp [textOf]
  | bool b => cases b <;> simp [textOf, Json.lineBreak_not_mem_write]
  | _ => simp [textOf, Json.lineBreak_not_mem_write]

/-- The text of a slot holds a line break only if it is a string that does. -/
theorem lineBreak_mem_text_iff (p : Parameters) (slot : Nat) :
    '\n' ∈ (p.text slot).toList ↔ (Json.array p.slots).BreaksAt slot := by
  have hslots : (Json.array p.slots).BreaksAt slot ↔
      ∃ s, p.slots[slot]? = some (.string s) ∧ '\n' ∈ s.toList := by
    simp [Json.BreaksAt]
  rw [hslots, text]
  cases p.slots[slot]? with
  | none => simp
  | some v => simp [lineBreak_mem_textOf_iff]

theorem eq_of_read {item : Item} {required : Nat} {params : Json} {p : Parameters}
    (h : read item required params = .ok p) : params = .array p.slots := by
  cases params with
  | array slots =>
    rw [read] at h
    split at h
    · cases h
    · cases h
      rfl
  | _ => cases h

theorem text_of_id {p : Parameters} {item : Item} {slot : Nat} {s : String} (h : p.id item slot = .ok s) :
    s = p.text slot := by
  rw [id] at h
  split at h
  · cases h
  · exact (Except.ok.inj h).symm

end Parameters

instance (params : Json) (slot : Nat) : Decidable (params.BreaksAt slot) :=
  match params with
  | .array slots => decidable_of_iff _ (Parameters.lineBreak_mem_text_iff ⟨slots⟩ slot)
  | .null | .bool _ | .integer _ | .double _ | .string _ | .object _ =>
    isFalse fun ⟨_, _, h, _⟩ => by cases h

end ChartStream
