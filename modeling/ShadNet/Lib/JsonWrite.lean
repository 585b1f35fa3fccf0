import ShadNet.Lib.JsonText

/-!
# Writing JSON text

Strings are escaped as far as they have to be, and nothing is put between the tokens.

* `unescape_escape`: an escaped string stands for its characters.
* `isValue_arrayText`, `isObject_objectText`: elements and fields put together.
* `IsObject.element`: an object may stand in an array with the white space around it.
-/

namespace Lib.JsonText

/-! ## Strings -/

/-- The characters with an escape of two letters. -/
def shortEscapes : List (ℕ × Char) :=
  [(0x22, '"'), (0x5C, '\\'), (0x08, 'b'), (0x0C, 'f'), (0x0A, 'n'), (0x0D, 'r'), (0x09, 't')]

/-- A hexadecimal digit in lower case. -/
def hexChar (n : ℕ) : Char := if n < 10 then Char.ofNat (48 + n) else Char.ofNat (87 + n)

/-- A character as a writer spells it: by a short escape, by its number if it is a control
character, or as it is. -/
def escapeChar (c : Char) : List Char :=
  match shortEscapes.lookup c.toNat with
  | some e => ['\\', e]
  | none =>
    if c.toNat < 0x20 then ['\\', 'u', '0', '0', hexChar (c.toNat / 16), hexChar (c.toNat % 16)]
    else [c]

/-- The spelling of a string. -/
def escape (cs : List Char) : List Char := cs.flatMap escapeChar

theorem hexDigit_hexChar {n : ℕ} (h : n < 16) : hexDigit (hexChar n) = some n := by
  have hall : ∀ n : Fin 16, hexDigit (hexChar n) = some n.val := by decide
  exact hall ⟨n, h⟩

/-- A short escape is read as the character that it was written for. -/
theorem unescape_short {unit : ℕ} {e : Char} (h : (unit, e) ∈ shortEscapes) (cs : List Char) :
    unescape ('\\' :: e :: cs) = (unescape cs).map (unit :: ·) := by
  simp only [shortEscapes, List.mem_cons, List.not_mem_nil, or_false, Prod.mk.injEq] at h
  rcases h with ⟨rfl, rfl⟩ | ⟨rfl, rfl⟩ | ⟨rfl, rfl⟩ | ⟨rfl, rfl⟩ | ⟨rfl, rfl⟩ | ⟨rfl, rfl⟩ |
    ⟨rfl, rfl⟩ <;> simp [unescape, escapes, List.lookup_cons]

/-- A character of the basic plane is its own unit. -/
theorem codeUnits_low {c : Char} (h : c.toNat < 0x10000) : codeUnits c = [c.toNat] := if_pos h

theorem mem_of_lookup {α β : Type*} [BEq α] [LawfulBEq α] {l : List (α × β)} {a : α} {b : β}
    (h : l.lookup a = some b) : (a, b) ∈ l := by
  obtain ⟨l1, l2, hl, -⟩ := List.lookup_eq_some_iff.mp h
  rw [hl]
  simp

/-- An escaped character is read back. -/
theorem unescape_escapeChar (c : Char) (cs : List Char) :
    unescape (escapeChar c ++ cs) = (unescape cs).map (codeUnits c ++ ·) := by
  unfold escapeChar
  split
  · rename_i e he
    have hmem := mem_of_lookup he
    have hlow : c.toNat < 0x10000 := by
      have hall : ∀ p ∈ shortEscapes, p.1 < 0x10000 := by decide
      exact hall _ hmem
    rw [codeUnits_low hlow]
    exact unescape_short hmem cs
  · rename_i hnone
    have hne : ∀ unit e, (unit, e) ∈ shortEscapes → c.toNat ≠ unit := by
      rintro unit e hmem rfl
      rw [List.lookup_eq_none_iff] at hnone
      simpa using hnone _ hmem
    split
    · rename_i hcontrol
      rw [codeUnits_low (by omega)]
      have hhigh := hexDigit_hexChar (show c.toNat / 16 < 16 by omega)
      have hdigit := hexDigit_hexChar (show c.toNat % 16 < 16 by omega)
      have hzero : hexDigit '0' = some 0 := by decide
      have hunit : ((0 * 16 + 0) * 16 + c.toNat / 16) * 16 + c.toNat % 16 = c.toNat := by omega
      simp only [List.cons_append, List.nil_append, unescape, hzero, hhigh, hdigit, hunit]
    · rename_i hcontrol
      have hquote : c ≠ '"' := by
        rintro rfl
        exact hne 0x22 '"' (by simp [shortEscapes]) rfl
      have hslash : c ≠ '\\' := by
        rintro rfl
        exact hne 0x5C '\\' (by simp [shortEscapes]) rfl
      simp [unescape, hcontrol, hquote, hslash]

/-- **Escaped strings stand for their characters.** -/
theorem unescape_escape (cs : List Char) : unescape (escape cs) = some (cs.flatMap codeUnits) := by
  induction cs with
  | nil => rfl
  | cons c cs ih =>
    unfold escape at ih ⊢
    rw [List.flatMap_cons, unescape_escapeChar, ih, List.flatMap_cons]
    rfl

/-- What is written is a spelling that the grammar takes. -/
theorem spelled_escape (cs : List Char) : Spelled (escape cs) :=
  Option.isSome_of_eq_some (unescape_escape cs)

/-! ## Arrays and objects -/

/-- An array without white space, from the texts of its elements. -/
def arrayText (values : List (List UInt8)) : List UInt8 :=
  beginArray :: commaJoin values ++ [endArray]

/-- A text that may be an element with the white space around it. -/
def IsElement (text : List UInt8) : Prop :=
  ∃ e : Element, e.text = text ∧ Ws e.before ∧ Ws e.after ∧ IsValue e.value

theorem IsValue.element {l : List UInt8} (h : IsValue l) : IsElement l :=
  ⟨⟨[], l, []⟩, by simp [Element.text], ws_nil, ws_nil, h⟩

/-- An array of elements is a value. -/
theorem isValue_arrayText {texts : List (List UInt8)} (h : ∀ text ∈ texts, IsElement text) :
    IsValue (arrayText texts) := by
  cases texts with
  | nil => exact .emptyArray ws_nil
  | cons text texts =>
    have hchoose : ∀ l : List (List UInt8), (∀ text ∈ l, IsElement text) → ∃ es : List Element,
        es.map Element.text = l ∧ ∀ e ∈ es, (Ws e.before ∧ Ws e.after) ∧ IsValue e.value := by
      intro l
      induction l with
      | nil => exact fun _ => ⟨[], rfl, by simp⟩
      | cons text l ih =>
        intro hl
        obtain ⟨e, rfl, hbefore, hafter, hvalue⟩ := hl text List.mem_cons_self
        obtain ⟨es, rfl, hes⟩ := ih fun t ht => hl t (List.mem_cons_of_mem _ ht)
        exact ⟨e :: es, rfl, List.forall_mem_cons.mpr ⟨⟨⟨hbefore, hafter⟩, hvalue⟩, hes⟩⟩
    obtain ⟨es, hes, hall⟩ := hchoose _ h
    unfold arrayText
    rw [← hes]
    refine .array ?_ (fun e he => (hall e he).1) fun e he => (hall e he).2
    rintro rfl
    cases hes

/-- A member without white space. -/
def field (key : List Char) (value : List UInt8) : Member := { key, value }

theorem field_shaped {key : List Char} (h : Spelled key) (value : List UInt8) :
    (field key value).Shaped := ⟨ws_nil, h, ws_nil, ws_nil, ws_nil⟩

/-- An object, from the texts of its members. -/
def objectText (ms : List Member) : List UInt8 :=
  beginObject :: commaJoin (ms.map Member.text) ++ [endObject]

/-- An object of members is an object, with just these members. -/
theorem isObject_objectText {ms : List Member} (hshape : ∀ m ∈ ms, m.Shaped)
    (hvalue : ∀ m ∈ ms, IsValue m.value) : IsObject (objectText ms) ms := by
  by_cases hne : ms = []
  · subst hne
    exact .empty ws_nil ws_nil ws_nil
  · exact .members ws_nil ws_nil hne hshape hvalue

namespace IsObject

variable {text : List UInt8} {ms : List Member}

/-- The object without the white space around it is a value. -/
theorem element (h : IsObject text ms) : IsElement text := by
  cases h with
  | empty hw hws hw' => exact ⟨⟨_, _, _⟩, by simp [Element.text], hw, hw', .emptyObject hws⟩
  | members hw hw' hne hshape hvalue =>
    exact ⟨⟨_, _, _⟩, by simp [Element.text], hw, hw', .object hne hshape hvalue⟩

end IsObject

/-- An object written from shaped members with values is a value. -/
theorem isValue_objectText {ms : List Member} (hshape : ∀ m ∈ ms, m.Shaped)
    (hvalue : ∀ m ∈ ms, IsValue m.value) : IsValue (objectText ms) := by
  by_cases hne : ms = []
  · subst hne
    exact .emptyObject ws_nil
  · exact .object hne hshape hvalue

end Lib.JsonText
