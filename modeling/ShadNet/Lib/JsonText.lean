import Mathlib.Data.List.Basic
import ShadNet.Lib.Search
import ShadNet.Lib.Utf8

/-!
# JSON text

The grammar of RFC 8259 over the bytes of a UTF-8 text. A value is a list of bytes that the grammar
derives; an object comes with the list of its members, each with its white space. What a string
stands for is a list of UTF-16 code units, since an escape may name half of a surrogate pair.

* `flatMap_codeUnits_injective`: the code units of a string determine its characters.
* `unescape_plain`: what a string without escapes stands for.
* `IsValue.ends`: a value has a last byte, which is not white space.
* `IsObject.pieces`, `IsObject.rejoined`: the members lie in the text one behind the other, and are an
  object again without the white space between them.
-/

namespace Lib.JsonText

/-! ## Bytes -/

/-- The bracket that opens an array. -/
def beginArray : UInt8 := 0x5B

/-- The brace that opens an object. -/
def beginObject : UInt8 := 0x7B

/-- The bracket that closes an array. -/
def endArray : UInt8 := 0x5D

/-- The brace that closes an object. -/
def endObject : UInt8 := 0x7D

/-- The colon behind a name. -/
def nameSeparator : UInt8 := 0x3A

/-- The comma between values. -/
def valueSeparator : UInt8 := 0x2C

/-- The quotation mark. -/
def quotationMark : UInt8 := 0x22

/-- White space: space, tab, line feed and carriage return. -/
def isWs (b : UInt8) : Bool := b = 0x20 ∨ b = 0x09 ∨ b = 0x0A ∨ b = 0x0D

/-- White space between tokens. -/
def Ws (l : List UInt8) : Prop := ∀ b ∈ l, isWs b = true

theorem ws_nil : Ws [] := List.forall_mem_nil _

theorem ws_singleton {b : UInt8} (h : isWs b = true) : Ws [b] := by
  intro c hc
  rwa [List.mem_singleton.mp hc]

/-- The elements of an array or the members of an object, one after another. -/
def commaJoin (pieces : List (List UInt8)) : List UInt8 := [valueSeparator].intercalate pieces

/-! ## Strings -/

/-- The value of a digit of an escape. -/
def hexDigit (c : Char) : Option ℕ :=
  if '0' ≤ c ∧ c ≤ '9' then some (c.toNat - 48)
  else if 'A' ≤ c ∧ c ≤ 'F' then some (c.toNat - 55)
  else if 'a' ≤ c ∧ c ≤ 'f' then some (c.toNat - 87)
  else none

/-- What may follow a backslash, other than `u`, and what it stands for. -/
def escapes : List (Char × ℕ) :=
  [('"', 0x22), ('\\', 0x5C), ('/', 0x2F), ('b', 0x08), ('f', 0x0C), ('n', 0x0A), ('r', 0x0D),
    ('t', 0x09)]

/-- The one or two UTF-16 units of a character. -/
def codeUnits (c : Char) : List ℕ :=
  if c.toNat < 0x10000 then [c.toNat]
  else [0xD800 + (c.toNat - 0x10000) / 0x400, 0xDC00 + (c.toNat - 0x10000) % 0x400]

/-- The code units that the characters between two quotation marks stand for, if they may stand
there. -/
def unescape : List Char → Option (List ℕ)
  | [] => some []
  | '\\' :: 'u' :: a :: b :: c :: d :: cs =>
    match hexDigit a, hexDigit b, hexDigit c, hexDigit d with
    | some a, some b, some c, some d =>
      (unescape cs).map ((((a * 16 + b) * 16 + c) * 16 + d) :: ·)
    | _, _, _, _ => none
  | '\\' :: c :: cs =>
    match escapes.lookup c with
    | some unit => (unescape cs).map (unit :: ·)
    | none => none
  | c :: cs =>
    if c.toNat < 0x20 ∨ c = '"' ∨ c = '\\' then none else (unescape cs).map (codeUnits c ++ ·)

/-- The string between the quotation marks is spelled as the grammar has it. -/
def Spelled (cs : List Char) : Prop := (unescape cs).isSome = true

/-- The code units of a text without escapes. -/
def unitsOf (s : String) : List ℕ := s.toList.flatMap codeUnits

/-- A string as it stands in a text, its characters already spelled. -/
def quoted (cs : List Char) : List UInt8 := quotationMark :: utf8 cs ++ [quotationMark]

/-! ## Numbers -/

/-- A decimal digit. -/
def isDigit (b : UInt8) : Bool := 0x30 ≤ b ∧ b ≤ 0x39

/-- One digit or more. -/
def Digits (l : List UInt8) : Prop := l ≠ [] ∧ ∀ b ∈ l, isDigit b = true

/-- The integer part has no zero in front, unless it is zero. -/
def IsInt (l : List UInt8) : Prop := l = [0x30] ∨ (Digits l ∧ l.head? ≠ some 0x30)

/-- The fraction of a number, or none. -/
def IsFrac (l : List UInt8) : Prop := l = [] ∨ ∃ ds, Digits ds ∧ l = 0x2E :: ds

/-- The exponent of a number, or none. -/
def IsExp (l : List UInt8) : Prop :=
  l = [] ∨ ∃ e sign ds, (e = 0x65 ∨ e = 0x45) ∧ (sign = [] ∨ sign = [0x2B] ∨ sign = [0x2D]) ∧
    Digits ds ∧ l = e :: sign ++ ds

/-- A number of the grammar. -/
def IsNumber (l : List UInt8) : Prop :=
  ∃ minus i frac exp, (minus = [] ∨ minus = [0x2D]) ∧ IsInt i ∧ IsFrac frac ∧ IsExp exp ∧
    l = minus ++ i ++ frac ++ exp

/-! ## Values -/

/-- An element of an array with the white space around it. -/
structure Element where
  before : List UInt8
  value : List UInt8
  after : List UInt8

/-- The element with the white space around it. -/
def Element.text (e : Element) : List UInt8 := e.before ++ e.value ++ e.after

/-- A member of an object with its white space. -/
structure Member where
  before : List UInt8 := []
  key : List Char
  afterKey : List UInt8 := []
  beforeValue : List UInt8 := []
  value : List UInt8
  after : List UInt8 := []

namespace Member

variable (m : Member)

/-- From the quotation mark of the key to the end of the value. -/
def raw : List UInt8 := quoted m.key ++ m.afterKey ++ nameSeparator :: m.beforeValue ++ m.value

/-- The member with the white space around it. -/
def text : List UInt8 := m.before ++ m.raw ++ m.after

/-- The key and the white space are as they may be. -/
structure Shaped : Prop where
  before : Ws m.before
  key : Spelled m.key
  afterKey : Ws m.afterKey
  beforeValue : Ws m.beforeValue
  after : Ws m.after

/-- The key after its escapes are undone. -/
def name : Option (List ℕ) := unescape m.key

end Member

/-- The three literal names. -/
def words : List (List UInt8) := [utf8 "false".toList, utf8 "null".toList, utf8 "true".toList]

/-- **The values of the grammar.** -/
inductive IsValue : List UInt8 → Prop where
  | word {l : List UInt8} (h : l ∈ words) : IsValue l
  | number {l : List UInt8} (h : IsNumber l) : IsValue l
  | string {cs : List Char} (h : Spelled cs) : IsValue (quoted cs)
  | emptyArray {ws : List UInt8} (hws : Ws ws) : IsValue (beginArray :: ws ++ [endArray])
  | array {es : List Element} (hne : es ≠ []) (hws : ∀ e ∈ es, Ws e.before ∧ Ws e.after)
      (h : ∀ e ∈ es, IsValue e.value) :
      IsValue (beginArray :: commaJoin (es.map Element.text) ++ [endArray])
  | emptyObject {ws : List UInt8} (hws : Ws ws) : IsValue (beginObject :: ws ++ [endObject])
  | object {ms : List Member} (hne : ms ≠ []) (hshape : ∀ m ∈ ms, m.Shaped)
      (h : ∀ m ∈ ms, IsValue m.value) :
      IsValue (beginObject :: commaJoin (ms.map Member.text) ++ [endObject])

/-- **A text that is an object with the given members.** -/
inductive IsObject : List UInt8 → List Member → Prop where
  | empty {w ws w' : List UInt8} (hw : Ws w) (hws : Ws ws) (hw' : Ws w') :
      IsObject (w ++ beginObject :: ws ++ endObject :: w') []
  | members {w w' : List UInt8} {ms : List Member} (hw : Ws w) (hw' : Ws w') (hne : ms ≠ [])
      (hshape : ∀ m ∈ ms, m.Shaped) (h : ∀ m ∈ ms, IsValue m.value) :
      IsObject (w ++ beginObject :: commaJoin (ms.map Member.text) ++ endObject :: w') ms

namespace IsObject

variable {text : List UInt8} {ms : List Member}

/-- The members of an object are shaped as the grammar has it. -/
theorem shaped (h : IsObject text ms) : ∀ m ∈ ms, m.Shaped := by
  cases h with
  | empty hw hws hw' => exact nofun
  | members hw hw' hne hshape hvalue => exact hshape

/-- Their values are values. -/
theorem value (h : IsObject text ms) : ∀ m ∈ ms, IsValue m.value := by
  cases h with
  | empty hw hws hw' => exact nofun
  | members hw hw' hne hshape hvalue => exact hvalue

end IsObject

/-! ## What strings stand for -/

theorem codeUnits_ne_nil (c : Char) : codeUnits c ≠ [] := by
  unfold codeUnits
  split <;> exact nofun

/-- A character is neither of the surrogates that other characters are written with. -/
theorem not_surrogate (c : Char) :
    c.toNat < 0xD800 ∨ 0xDFFF < c.toNat ∧ c.toNat < 0x110000 := c.valid

/-- The units of a character say where they end. -/
theorem codeUnits_cancel {c d : Char} {l l' : List ℕ} (h : codeUnits c ++ l = codeUnits d ++ l') :
    c = d ∧ l = l' := by
  have hc := not_surrogate c
  have hd := not_surrogate d
  unfold codeUnits at h
  -- the first unit tells whether there is a second
  split at h <;> split at h
  · obtain ⟨hhead, htail⟩ := List.cons.inj h
    exact ⟨Char.toNat_inj.mp hhead, htail⟩
  · obtain ⟨hhead, -⟩ := List.cons.inj h
    omega
  · obtain ⟨hhead, -⟩ := List.cons.inj h
    omega
  · obtain ⟨hhead, hrest⟩ := List.cons.inj h
    obtain ⟨hlow, htail⟩ := List.cons.inj hrest
    exact ⟨Char.toNat_inj.mp (by omega), htail⟩

/-- **The code units of a text determine it.** -/
theorem flatMap_codeUnits_injective : ∀ {cs ds : List Char},
    cs.flatMap codeUnits = ds.flatMap codeUnits → cs = ds := by
  intro cs
  induction cs with
  | nil =>
    intro ds h
    cases ds with
    | nil => rfl
    | cons d ds =>
      rw [List.flatMap_nil, List.flatMap_cons] at h
      exact absurd (List.append_eq_nil_iff.mp h.symm).1 (codeUnits_ne_nil d)
  | cons c cs ih =>
    intro ds h
    cases ds with
    | nil =>
      rw [List.flatMap_nil, List.flatMap_cons] at h
      exact absurd (List.append_eq_nil_iff.mp h).1 (codeUnits_ne_nil c)
    | cons d ds =>
      rw [List.flatMap_cons, List.flatMap_cons] at h
      obtain ⟨rfl, hrest⟩ := codeUnits_cancel h
      rw [ih hrest]

/-- Without escapes a string stands for its characters. -/
theorem unescape_plain (cs : List Char) :
    Spelled cs → '\\' ∉ cs → unescape cs = some (cs.flatMap codeUnits) := by
  unfold Spelled
  fun_induction unescape cs with
  | case1 => exact fun _ _ => rfl
  | case7 c cs _ _ hc ih =>
    intro h hplain
    have hrest := ih (by simpa using h) fun hmem => hplain (List.mem_cons_of_mem c hmem)
    rw [hrest]
    rfl
  | case2 => exact fun _ hplain => absurd List.mem_cons_self hplain
  | case3 => exact nofun
  | case4 => exact fun _ hplain => absurd List.mem_cons_self hplain
  | case5 => exact nofun
  | case6 => exact nofun

/-- A member whose key has no escapes. -/
theorem Member.name_eq {m : Member} (hkey : Spelled m.key) (hplain : '\\' ∉ m.key) {s : String} :
    m.name = some (unitsOf s) ↔ m.key = s.toList := by
  unfold Member.name unitsOf
  rw [unescape_plain m.key hkey hplain, Option.some.injEq]
  exact ⟨fun h => flatMap_codeUnits_injective h, fun h => congrArg _ h⟩

/-! ## How values end -/

/-- The text has a last byte, which is not white space. -/
def Ends (l : List UInt8) : Prop := ∃ init last, l = init ++ [last] ∧ isWs last = false

/-- What a text ends with does not depend on what stands before it. -/
theorem Ends.append {l : List UInt8} (h : Ends l) (before : List UInt8) : Ends (before ++ l) := by
  obtain ⟨init, last, rfl, hlast⟩ := h
  exact ⟨before ++ init, last, (List.append_assoc ..).symm, hlast⟩

/-- A digit is no white space. -/
theorem isWs_digit {b : UInt8} (h : isDigit b = true) : isWs b = false := by
  unfold isDigit at h
  unfold isWs
  simp only [UInt8.le_iff_toNat_le, decide_eq_true_eq, decide_eq_false_iff_not,
    ← UInt8.toNat_inj] at h ⊢
  simp at h ⊢
  omega

theorem Digits.ends {l : List UInt8} (h : Digits l) : Ends l := by
  obtain ⟨hne, hall⟩ := h
  exact ⟨l.dropLast, l.getLast hne, (List.dropLast_append_getLast hne).symm,
    isWs_digit (hall _ (List.getLast_mem hne))⟩

theorem IsNumber.ends {l : List UInt8} (h : IsNumber l) : Ends l := by
  obtain ⟨minus, i, frac, exp, -, hint, hfrac, hexp, rfl⟩ := h
  have hi : Ends i := by
    rcases hint with rfl | ⟨hdigits, -⟩
    · exact ⟨[], 0x30, rfl, rfl⟩
    · exact hdigits.ends
  rcases hexp with rfl | ⟨e, sign, ds, -, -, hds, rfl⟩
  · rcases hfrac with rfl | ⟨ds, hds, rfl⟩
    · simpa using hi.append minus
    · have hend := (hds.ends.append [0x2E]).append (minus ++ i)
      simpa using hend
  · have hend := (hds.ends.append (e :: sign)).append (minus ++ i ++ frac)
    simpa using hend

theorem IsValue.ends {l : List UInt8} (h : IsValue l) : Ends l := by
  cases h with
  | word h =>
    simp only [words, List.mem_cons, List.not_mem_nil, or_false] at h
    rcases h with rfl | rfl | rfl
    · exact ⟨utf8 "fals".toList, 0x65, rfl, rfl⟩
    · exact ⟨utf8 "nul".toList, 0x6C, rfl, rfl⟩
    · exact ⟨utf8 "tru".toList, 0x65, rfl, rfl⟩
  | number h => exact h.ends
  | string h => exact ⟨_, quotationMark, rfl, rfl⟩
  | emptyArray hws => exact ⟨_, endArray, rfl, rfl⟩
  | array hne hws h => exact ⟨_, endArray, rfl, rfl⟩
  | emptyObject hws => exact ⟨_, endObject, rfl, rfl⟩
  | object hne hshape h => exact ⟨_, endObject, rfl, rfl⟩

/-! ## Joins -/

/-- Behind the first piece each has a comma before it. -/
theorem commaJoin_cons (piece : List UInt8) (pieces : List (List UInt8)) :
    commaJoin (piece :: pieces) = piece ++ pieces.flatMap (valueSeparator :: ·) := by
  induction pieces generalizing piece with
  | nil => exact (List.intercalate_singleton).trans (List.append_nil piece).symm
  | cons next pieces ih =>
    have hnext := ih next
    unfold commaJoin at hnext ⊢
    rw [List.intercalate_cons_cons, hnext]
    simp

/-- Pieces that are joined can be joined to others. -/
theorem commaJoin_append {pieces pieces' : List (List UInt8)} (h : pieces ≠ []) :
    commaJoin (pieces ++ pieces') = commaJoin pieces ++ pieces'.flatMap (valueSeparator :: ·) := by
  cases pieces with
  | nil => exact absurd rfl h
  | cons piece pieces => simp [commaJoin_cons]

/-! ## Members apart -/

/-- The member without the white space around it. -/
def Member.bare (m : Member) : Member := { m with before := [], after := [] }

/-- Without white space a member is its key and its value. -/
theorem Member.bare_text (m : Member) : m.bare.text = m.raw := List.append_nil m.raw

/-- The white space around a member is no part of its shape. -/
theorem Member.Shaped.bare {m : Member} (h : m.Shaped) : m.bare.Shaped where
  before := ws_nil
  key := h.key
  afterKey := h.afterKey
  beforeValue := h.beforeValue
  after := ws_nil

/-- Members behind commas stand in their order. -/
theorem pieces_flatMap (ms : List Member) :
    Pieces (ms.map Member.raw) ((ms.map Member.text).flatMap (valueSeparator :: ·)) := by
  induction ms with
  | nil => exact .nil _
  | cons m ms ih =>
    have hp := Pieces.cons (valueSeparator :: m.before) m.raw (ih.behind m.after)
    simpa [Member.text] using hp

theorem pieces_commaJoin (ms : List Member) :
    Pieces (ms.map Member.raw) (commaJoin (ms.map Member.text)) := by
  cases ms with
  | nil => exact .nil _
  | cons m ms =>
    rw [List.map_cons, List.map_cons, commaJoin_cons]
    have hp := Pieces.cons m.before m.raw ((pieces_flatMap ms).behind m.after)
    simpa [Member.text] using hp

namespace IsObject

variable {text : List UInt8} {ms : List Member}

/-- The members are substrings of the text. -/
theorem pieces (h : IsObject text ms) : Pieces (ms.map Member.raw) text := by
  cases h with
  | empty hw hws hw' => exact .nil _
  | members hw hw' hne hshape hvalue =>
    rename_i w w'
    have hp := ((pieces_commaJoin ms).before (endObject :: w')).behind (w ++ [beginObject])
    simpa using hp

/-- **The members joined again** are an object with these members. -/
theorem rejoined (h : IsObject text ms) :
    IsObject (beginObject :: commaJoin (ms.map Member.raw) ++ [endObject]) (ms.map Member.bare) := by
  have htext : (ms.map Member.bare).map Member.text = ms.map Member.raw := by
    rw [List.map_map]
    exact List.map_congr_left fun m _ => m.bare_text
  by_cases hne : ms = []
  · subst hne
    exact IsObject.empty ws_nil ws_nil ws_nil
  · have hbare : ms.map Member.bare ≠ [] := fun hnil => hne (List.map_eq_nil_iff.mp hnil)
    have hshape : ∀ m ∈ ms.map Member.bare, m.Shaped := by
      intro m hm
      obtain ⟨m, hmem, rfl⟩ := List.mem_map.mp hm
      exact (h.shaped m hmem).bare
    have hvalue : ∀ m ∈ ms.map Member.bare, IsValue m.value := by
      intro m hm
      obtain ⟨m, hmem, rfl⟩ := List.mem_map.mp hm
      exact h.value m hmem
    have hobject := IsObject.members ws_nil ws_nil hbare hshape hvalue
    rwa [htext] at hobject

end IsObject

end Lib.JsonText
