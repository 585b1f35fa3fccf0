import ShadNet.Lib.JsonText
import ShadNet.Spec.RawJson

/-!
# The scan agrees with the grammar

`topLevelMembers` finds the members of every text that is an object, in their order, each with its
key as it is spelled and its text from the key to the end of the value.

* `stringRun_spelled`: in a string no quotation mark ends the string before its end.
* `passes_value`: over a value the scan comes back to the depths that it started from, and meets no
  comma at depth zero.
* `membersFrom_join`, `topLevelMembers_object`: the scan of an object.
-/

namespace ShadNet.SummonBroker

open Lib Lib.JsonText

/-! ## Strings -/

/-- The escape flag after bytes of a string, none of which ends it. -/
def stringRun (escaped : Bool) : List UInt8 → Option Bool
  | [] => some escaped
  | current :: l =>
    if !escaped ∧ current = 0x22 then none else stringRun (!escaped && current = 0x5C) l

theorem stringRun_append (l l' : List UInt8) : ∀ {escaped e : Bool},
    stringRun escaped l = some e → stringRun escaped (l ++ l') = stringRun e l' := by
  induction l with
  | nil => intro escaped e h; obtain rfl := Option.some.inj h; rfl
  | cons current l ih =>
    intro escaped e h
    unfold stringRun at h
    split at h
    · cases h
    · rename_i hno
      rw [List.cons_append, stringRun, if_neg hno]
      exact ih h

/-- Bytes that are neither quotation marks nor backslashes. -/
theorem stringRun_plain {l : List UInt8} (h : ∀ b ∈ l, b ≠ 0x22 ∧ b ≠ 0x5C) :
    stringRun false l = some false := by
  induction l with
  | nil => rfl
  | cons current l ih =>
    obtain ⟨hquote, hescape⟩ := h current List.mem_cons_self
    have hrest := ih fun b hb => h b (List.mem_cons_of_mem _ hb)
    unfold stringRun
    rw [if_neg (by simp [hquote])]
    simpa [hescape] using hrest

theorem stringRun_char {c : Char} (hquote : c ≠ '"') (hescape : c ≠ '\\') :
    stringRun false (String.utf8EncodeChar c) = some false := by
  apply stringRun_plain
  intro b hb
  constructor
  · rintro rfl
    have hc := mem_utf8EncodeChar hb (by decide)
    exact hquote (Char.toNat_inj.mp hc.symm)
  · rintro rfl
    have hc := mem_utf8EncodeChar hb (by decide)
    exact hescape (Char.toNat_inj.mp hc.symm)

theorem hexDigit_ne {c : Char} {n : ℕ} (h : hexDigit c = some n) : c ≠ '"' ∧ c ≠ '\\' := by
  constructor
  · rintro rfl
    cases h
  · rintro rfl
    cases h

/-- Whatever a backslash escapes, the string goes on behind it. -/
theorem stringRun_escape {c : Char} {unit : ℕ} (h : escapes.lookup c = some unit) :
    stringRun true (String.utf8EncodeChar c) = some false := by
  obtain ⟨l, l', heq, -⟩ := List.lookup_eq_some_iff.mp h
  have hmem : (c, unit) ∈ escapes := by rw [heq]; simp
  simp only [escapes, List.mem_cons, List.not_mem_nil, or_false, Prod.mk.injEq] at hmem
  rcases hmem with ⟨rfl, -⟩ | ⟨rfl, -⟩ | ⟨rfl, -⟩ | ⟨rfl, -⟩ | ⟨rfl, -⟩ | ⟨rfl, -⟩ | ⟨rfl, -⟩ |
    ⟨rfl, -⟩ <;> rfl

theorem stringRun_cons {c : Char} (cs : List Char) (hquote : c ≠ '"') (hescape : c ≠ '\\') :
    stringRun false (utf8 (c :: cs)) = stringRun false (utf8 cs) :=
  stringRun_append _ _ (stringRun_char hquote hescape)

theorem stringRun_hex {c : Char} {n : ℕ} (cs : List Char) (h : hexDigit c = some n) :
    stringRun false (utf8 (c :: cs)) = stringRun false (utf8 cs) :=
  stringRun_cons cs (hexDigit_ne h).1 (hexDigit_ne h).2

/-- **No quotation mark inside a string ends it.** -/
theorem stringRun_spelled (cs : List Char) :
    Spelled cs → stringRun false (utf8 cs) = some false := by
  unfold Spelled
  fun_induction unescape cs with
  | case1 => exact fun _ => rfl
  | case2 a b c d cs a' b' c' d' hd hc hb ha ih =>
    intro h
    have hrest := ih (by simpa using h)
    have hu : stringRun false (utf8 ('\\' :: 'u' :: a :: b :: c :: d :: cs)) =
        stringRun false (utf8 (a :: b :: c :: d :: cs)) := rfl
    rw [hu, stringRun_hex _ ha, stringRun_hex _ hb, stringRun_hex _ hc, stringRun_hex _ hd, hrest]
  | case4 c cs _ unit hlookup ih =>
    intro h
    have hrest := ih (by simpa using h)
    have hescape : stringRun false (utf8 ('\\' :: c :: cs)) = stringRun true (utf8 (c :: cs)) := rfl
    rw [hescape, utf8_cons, stringRun_append _ _ (stringRun_escape hlookup), hrest]
  | case7 c cs _ _ hc ih =>
    intro h
    have hrest := ih (by simpa using h)
    have hquote : c ≠ '"' := fun heq => hc (Or.inr (Or.inl heq))
    have hescape : c ≠ '\\' := fun heq => hc (Or.inr (Or.inr heq))
    rw [stringRun_cons cs hquote hescape, hrest]
  | case3 => exact fun h => by cases h
  | case5 => exact fun h => by cases h
  | case6 => exact fun h => by cases h

theorem scanKey_run {l : List UInt8} (rest : List UInt8) : ∀ {escaped e : Bool},
    stringRun escaped l = some e →
    scanKey escaped (l ++ rest) = (scanKey e rest).map fun r => (l ++ r.1, r.2) := by
  induction l with
  | nil =>
    intro escaped e h
    obtain rfl := Option.some.inj h
    simp
  | cons current l ih =>
    intro escaped e h
    unfold stringRun at h
    split at h
    · cases h
    · rename_i hno
      rw [List.cons_append, scanKey, if_neg hno, ih h, Option.map_map]
      rfl

/-- A key that is spelled as JSON does is scanned to its closing quotation mark. -/
theorem scanKey_spelled {cs : List Char} (h : Spelled cs) (rest : List UInt8) :
    scanKey false (utf8 cs ++ 0x22 :: rest) = some (utf8 cs, rest) := by
  rw [scanKey_run _ (stringRun_spelled cs h)]
  simp [scanKey]

/-! ## Values -/

/-- The scan after bytes that it passes; nothing if it stops at one. -/
def ValueScan.run (st : ValueScan) : List UInt8 → Option ValueScan
  | [] => some st
  | current :: l => if st.stops current then none else (st.next current).run l

/-- A scan of two texts is one after the other. -/
theorem ValueScan.run_append (l l' : List UInt8) : ∀ {st st' : ValueScan},
    st.run l = some st' → st.run (l ++ l') = st'.run l' := by
  induction l with
  | nil => intro st st' h; obtain rfl := Option.some.inj h; rfl
  | cons current l ih =>
    intro st st' h
    unfold ValueScan.run at h
    split at h
    · cases h
    · rename_i hno
      rw [List.cons_append, ValueScan.run, if_neg hno]
      exact ih h

/-- What is passed is part of the value. -/
theorem scanValue_run {l : List UInt8} (rest : List UInt8) : ∀ {st st' : ValueScan},
    st.run l = some st' →
    scanValue st (l ++ rest) = (l ++ (scanValue st' rest).1, (scanValue st' rest).2) := by
  induction l with
  | nil =>
    intro st st' h
    obtain rfl := Option.some.inj h
    rfl
  | cons current l ih =>
    intro st st' h
    unfold ValueScan.run at h
    split at h
    · cases h
    · rename_i hno
      rw [List.cons_append, scanValue, if_neg hno]
      simp only [ih h, List.cons_append]

/-- Between strings, at the given depths. -/
def atDepths (o a : ℤ) : ValueScan := ⟨false, false, o, a⟩

/-- **The scan passes a text** and is back at the depths it came from. -/
def Passes (l : List UInt8) : Prop :=
  ∀ o a : ℤ, 0 ≤ o → 0 ≤ a → (atDepths o a).run l = some (atDepths o a)

theorem Passes.nil : Passes [] := fun _ _ _ _ => rfl

/-- Texts that the scan passes are passed one after the other. -/
theorem Passes.append {l l' : List UInt8} (h : Passes l) (h' : Passes l') : Passes (l ++ l') := by
  intro o a ho ha
  rw [ValueScan.run_append _ _ (h o a ho ha), h' o a ho ha]

/-- Bytes that the scan does not look at. -/
def Plain (b : UInt8) : Prop :=
  b ≠ 0x22 ∧ b ≠ 0x2C ∧ b ≠ 0x7B ∧ b ≠ 0x7D ∧ b ≠ 0x5B ∧ b ≠ 0x5D

instance : DecidablePred Plain := fun b => by unfold Plain; infer_instance

theorem passes_plain {l : List UInt8} (h : ∀ b ∈ l, Plain b) : Passes l := by
  intro o a _ _
  induction l with
  | nil => rfl
  | cons current l ih =>
    obtain ⟨hquote, hcomma, hbegin, hend, hbeginArray, hendArray⟩ := h current List.mem_cons_self
    have hstops : (atDepths o a).stops current = false := by simp [ValueScan.stops, hcomma]
    have hnext : (atDepths o a).next current = atDepths o a := by
      simp [ValueScan.next, atDepths, hquote, hbegin, hend, hbeginArray, hendArray]
    have hrest := ih fun b hb => h b (List.mem_cons_of_mem _ hb)
    rw [ValueScan.run, if_neg (by simp [hstops]), hnext, hrest]

theorem Passes.cons {current : UInt8} {l : List UInt8} (hcurrent : Plain current)
    (h : Passes l) : Passes (current :: l) := by
  have hsingle : Passes [current] := passes_plain fun b hb => by
    obtain rfl := List.mem_singleton.mp hb
    exact hcurrent
  exact hsingle.append h

theorem plain_ws {b : UInt8} (h : isWs b = true) : Plain b := by
  simp only [isWs, decide_eq_true_eq] at h
  rcases h with rfl | rfl | rfl | rfl <;> simp [Plain]

theorem passes_ws {l : List UInt8} (h : Ws l) : Passes l :=
  passes_plain fun b hb => plain_ws (h b hb)

/-! ### Strings -/

/-- The scan in a string does what the string does, and keeps the depths. -/
theorem run_string {l : List UInt8} (o a : ℤ) : ∀ {escaped e : Bool},
    stringRun escaped l = some e →
    (⟨true, escaped, o, a⟩ : ValueScan).run l = some ⟨true, e, o, a⟩ := by
  induction l with
  | nil =>
    intro escaped e h
    obtain rfl := Option.some.inj h
    rfl
  | cons current l ih =>
    intro escaped e h
    unfold stringRun at h
    split at h
    · cases h
    · rename_i hno
      have hstops : (⟨true, escaped, o, a⟩ : ValueScan).stops current = false := by
        simp [ValueScan.stops]
      have hnext : (⟨true, escaped, o, a⟩ : ValueScan).next current =
          ⟨true, !escaped && current = 0x5C, o, a⟩ := by
        have hstays : escaped = true ∨ ¬current = 0x22 := by
          cases escaped <;> simp_all
        simpa [ValueScan.next] using hstays
      rw [ValueScan.run, if_neg (by simp [hstops]), hnext]
      exact ih h

/-- The scan passes a string. -/
theorem passes_quoted {cs : List Char} (h : Spelled cs) : Passes (quoted cs) := by
  intro o a _ _
  have hinside := run_string o a (stringRun_spelled cs h)
  have hopen : (atDepths o a).run (quoted cs) =
      (⟨true, false, o, a⟩ : ValueScan).run (utf8 cs ++ [0x22]) := rfl
  rw [hopen, ValueScan.run_append _ _ hinside]
  rfl

/-! ### Numbers and words -/

theorem plain_digit {b : UInt8} (h : isDigit b = true) : Plain b := by
  unfold isDigit at h
  simp only [UInt8.le_iff_toNat_le, decide_eq_true_eq] at h
  refine ⟨?_, ?_, ?_, ?_, ?_, ?_⟩ <;> rintro rfl <;> simp at h

theorem passes_digits {l : List UInt8} (h : Digits l) : Passes l :=
  passes_plain fun b hb => plain_digit (h.2 b hb)

/-- The scan passes a number. -/
theorem passes_number {l : List UInt8} (h : IsNumber l) : Passes l := by
  obtain ⟨minus, i, frac, exp, hminus, hint, hfrac, hexp, rfl⟩ := h
  have hm : Passes minus := by
    rcases hminus with rfl | rfl
    · exact .nil
    · exact .cons (by decide) .nil
  have hi : Passes i := by
    rcases hint with rfl | ⟨hdigits, -⟩
    · exact .cons (by decide) .nil
    · exact passes_digits hdigits
  have hf : Passes frac := by
    rcases hfrac with rfl | ⟨ds, hds, rfl⟩
    · exact .nil
    · exact .cons (by decide) (passes_digits hds)
  have he : Passes exp := by
    rcases hexp with rfl | ⟨e, sign, ds, he, hsign, hds, rfl⟩
    · exact .nil
    · have hs : Passes sign := by
        rcases hsign with rfl | rfl | rfl
        · exact .nil
        · exact .cons (by decide) .nil
        · exact .cons (by decide) .nil
      have hmark : Plain e := by rcases he with rfl | rfl <;> decide
      exact (Passes.cons hmark hs).append (passes_digits hds)
  exact ((hm.append hi).append hf).append he

/-- The scan passes `true`, `false` and `null`. -/
theorem passes_word {l : List UInt8} (h : l ∈ words) : Passes l := by
  have hplain : words.all (fun word => word.all fun b => Plain b) = true := by decide
  have hword := List.all_eq_true.mp hplain l h
  exact passes_plain fun b hb => of_decide_eq_true (List.all_eq_true.mp hword b hb)

/-! ### Brackets -/

/-- Below depth zero a comma is passed. -/
def PassesWithin (l : List UInt8) : Prop :=
  ∀ o a : ℤ, 0 ≤ o → 0 ≤ a → 0 < o ∨ 0 < a → (atDepths o a).run l = some (atDepths o a)

theorem Passes.within {l : List UInt8} (h : Passes l) : PassesWithin l :=
  fun o a ho ha _ => h o a ho ha

theorem PassesWithin.append {l l' : List UInt8} (h : PassesWithin l) (h' : PassesWithin l') :
    PassesWithin (l ++ l') := by
  intro o a ho ha hdeep
  rw [ValueScan.run_append _ _ (h o a ho ha hdeep), h' o a ho ha hdeep]

theorem passesWithin_comma : PassesWithin [valueSeparator] := by
  intro o a _ _ hdeep
  have hstops : (atDepths o a).stops valueSeparator = false := by
    have hne : ¬(o = 0 ∧ a = 0) := by omega
    simpa [ValueScan.stops, atDepths, valueSeparator] using hne
  rw [ValueScan.run, if_neg (by simp [hstops])]
  rfl

/-- Inside brackets the scan passes a list of texts between commas. -/
theorem passesWithin_commaJoin : ∀ {pieces : List (List UInt8)},
    (∀ piece ∈ pieces, Passes piece) → PassesWithin (commaJoin pieces)
  | [], _ => Passes.nil.within
  | piece :: pieces, h => by
    have hrest : PassesWithin (pieces.flatMap (valueSeparator :: ·)) := by
      have hpieces : ∀ p ∈ pieces, Passes p := fun p hp => h p (List.mem_cons_of_mem _ hp)
      clear h
      induction pieces with
      | nil => exact Passes.nil.within
      | cons next pieces ih =>
        have hnext := (hpieces next List.mem_cons_self).within
        have htail := ih fun p hp => hpieces p (List.mem_cons_of_mem _ hp)
        exact (passesWithin_comma.append hnext).append htail
    rw [commaJoin_cons]
    exact (h piece List.mem_cons_self).within.append hrest

/-- The scan passes an array whose inside it passes. -/
theorem passes_array {l : List UInt8} (h : PassesWithin l) :
    Passes (beginArray :: l ++ [endArray]) := by
  intro o a ho ha
  have hinside := h o (a + 1) ho (by omega) (Or.inr (by omega))
  have hopen : (atDepths o a).run (beginArray :: l ++ [endArray]) =
      (atDepths o (a + 1)).run (l ++ [endArray]) := rfl
  rw [hopen, ValueScan.run_append _ _ hinside]
  have hclose : (atDepths o (a + 1)).run [endArray] = some (atDepths o (a + 1 - 1)) := rfl
  rw [hclose, Int.add_sub_cancel]

/-- The scan passes an object whose inside it passes. -/
theorem passes_object {l : List UInt8} (h : PassesWithin l) :
    Passes (beginObject :: l ++ [endObject]) := by
  intro o a ho ha
  have hinside := h (o + 1) a (by omega) ha (Or.inl (by omega))
  have hopen : (atDepths o a).run (beginObject :: l ++ [endObject]) =
      (atDepths (o + 1) a).run (l ++ [endObject]) := rfl
  rw [hopen, ValueScan.run_append _ _ hinside]
  have hclose : (atDepths (o + 1) a).run [endObject] = some (atDepths (o + 1 - 1) a) := rfl
  rw [hclose, Int.add_sub_cancel]

/-- The scan passes a member whose value it passes. -/
theorem passes_member {m : Member} (hshape : m.Shaped) (hvalue : Passes m.value) :
    Passes m.text := by
  have hkey := (passes_quoted hshape.key).append (passes_ws hshape.afterKey)
  have hcolon : Passes (nameSeparator :: m.beforeValue) :=
    .cons (by decide) (passes_ws hshape.beforeValue)
  have hraw : Passes m.raw := (hkey.append hcolon).append hvalue
  exact ((passes_ws hshape.before).append hraw).append (passes_ws hshape.after)

/-- **The scan passes every value.** -/
theorem passes_value {l : List UInt8} (h : IsValue l) : Passes l := by
  induction h with
  | word h => exact passes_word h
  | number h => exact passes_number h
  | string h => exact passes_quoted h
  | emptyArray hws => exact passes_array (passes_ws hws).within
  | array hne hws _ ih =>
    refine passes_array (passesWithin_commaJoin fun piece hpiece => ?_)
    obtain ⟨e, he, rfl⟩ := List.mem_map.mp hpiece
    obtain ⟨hbefore, hafter⟩ := hws e he
    exact ((passes_ws hbefore).append (ih e he)).append (passes_ws hafter)
  | emptyObject hws => exact passes_object (passes_ws hws).within
  | object hne hshape _ ih =>
    refine passes_object (passesWithin_commaJoin fun piece hpiece => ?_)
    obtain ⟨m, hm, rfl⟩ := List.mem_map.mp hpiece
    exact passes_member (hshape m hm) (ih m hm)

/-! ## White space -/

/-- The scan's blanks are those of JSON. -/
theorem isScanSpace_eq_isWs (b : UInt8) : isScanSpace b = isWs b := by
  simp only [isScanSpace, isWs]
  congr 1
  simp only [eq_iff_iff]
  tauto

theorem scanSpace_of_ws {l : List UInt8} (h : Ws l) : ∀ b ∈ l, isScanSpace b = true :=
  fun b hb => (isScanSpace_eq_isWs b).trans (h b hb)

theorem isBlank_of_ws {l : List UInt8} (h : Ws l) : ∀ b ∈ l, isBlank b = true := by
  intro b hb
  have hws := h b hb
  simp only [isWs, decide_eq_true_eq] at hws
  rcases hws with rfl | rfl | rfl | rfl <;> rfl

theorem rdropWhile_append_all {p : UInt8 → Bool} (l : List UInt8) {ws : List UInt8}
    (h : ∀ b ∈ ws, p b = true) : (l ++ ws).rdropWhile p = l.rdropWhile p := by
  unfold List.rdropWhile
  rw [List.reverse_append, List.dropWhile_append_of_pos fun b hb => h b (List.mem_reverse.mp hb)]

theorem rdropWhile_ends {l : List UInt8} (h : Ends l) : l.rdropWhile isScanSpace = l := by
  obtain ⟨init, last, rfl, hlast⟩ := h
  have hspace : ¬isScanSpace last = true := by rw [isScanSpace_eq_isWs, hlast]; exact Bool.false_ne_true
  exact List.rdropWhile_concat_neg isScanSpace init last hspace

/-! ## One member -/

theorem raw_ends {m : Member} (hvalue : IsValue m.value) : Ends m.raw := hvalue.ends.append _

/-- What may follow a member: nothing, or a comma. -/
def AtSeparator (rest : List UInt8) : Prop := ∀ b ∈ rest.head?, b = valueSeparator

/-- A value that has ended is empty. -/
theorem scanValue_separator {rest : List UInt8} (h : AtSeparator rest) :
    scanValue {} rest = ([], rest) := by
  cases rest with
  | nil => rfl
  | cons current l =>
    obtain rfl := h current rfl
    rfl

/-- What the scan makes of a member. -/
def topLevel (m : Member) : TopLevelMember := ⟨utf8 m.key, m.raw⟩

/-- **The scan of one member** takes its key and its value, and nothing behind. -/
theorem scanMember_raw {m : Member} (hshape : m.Shaped) (hvalue : IsValue m.value)
    {rest : List UInt8} (hrest : AtSeparator rest) :
    scanMember (m.raw ++ m.after ++ rest) = some (topLevel m, rest) := by
  have hsplit : m.raw ++ m.after ++ rest = 0x22 :: (utf8 m.key ++ 0x22 ::
      (m.afterKey ++ 0x3A :: (m.beforeValue ++ m.value ++ m.after ++ rest))) := by
    simp [Member.raw, quoted, nameSeparator, quotationMark]
  have hdrop : (m.afterKey ++ 0x3A :: (m.beforeValue ++ m.value ++ m.after ++ rest)).dropWhile
      isScanSpace = 0x3A :: (m.beforeValue ++ m.value ++ m.after ++ rest) :=
    List.dropWhile_append_of_pos (scanSpace_of_ws hshape.afterKey)
  have htake : (m.afterKey ++ 0x3A :: (m.beforeValue ++ m.value ++ m.after ++ rest)).takeWhile
      isScanSpace = m.afterKey := by
    rw [List.takeWhile_append_of_pos (scanSpace_of_ws hshape.afterKey)]
    exact List.append_nil _
  have hpasses : Passes (m.beforeValue ++ m.value ++ m.after) :=
    ((passes_ws hshape.beforeValue).append (passes_value hvalue)).append (passes_ws hshape.after)
  have hscan : scanValue {} (m.beforeValue ++ m.value ++ m.after ++ rest) =
      (m.beforeValue ++ m.value ++ m.after, rest) := by
    have hstart : (⟨false, false, 0, 0⟩ : ValueScan) = atDepths 0 0 := rfl
    have hend : scanValue (atDepths 0 0) rest = ([], rest) := scanValue_separator hrest
    rw [hstart, scanValue_run rest (hpasses 0 0 le_rfl le_rfl), hend, List.append_nil]
  have hraw : 0x22 :: utf8 m.key ++ 0x22 :: m.afterKey ++
      0x3A :: (m.beforeValue ++ m.value ++ m.after) = m.raw ++ m.after := by
    simp [Member.raw, quoted, nameSeparator, quotationMark]
  have htrim : (m.raw ++ m.after).rdropWhile isScanSpace = m.raw := by
    rw [rdropWhile_append_all _ (scanSpace_of_ws hshape.after), rdropWhile_ends (raw_ends hvalue)]
  rw [hsplit]
  simp only [scanMember, scanKey_spelled hshape.key, hdrop, htake, hscan]
  rw [hraw, htrim]
  rfl

/-! ## The members of an object -/

/-- The members from a place on: none is left, or one and those behind it. -/
theorem membersFrom_eq (l : List UInt8) : membersFrom l =
    if skipSeparators l = [] then some []
    else match scanMember (skipSeparators l) with
      | none => none
      | some (m, rest) => (membersFrom rest).map (m :: ·) := by
  rw [membersFrom]
  split
  · rfl
  · split <;> simp_all

theorem skipSeparators_comma (l : List UInt8) :
    skipSeparators (valueSeparator :: l) = skipSeparators l := rfl

/-- Blanks before a member are skipped. -/
theorem skipSeparators_ws {ws : List UInt8} (h : Ws ws) (l : List UInt8) :
    skipSeparators (ws ++ l) = skipSeparators l := by
  unfold skipSeparators
  refine List.dropWhile_append_of_pos fun b hb => ?_
  rw [scanSpace_of_ws h b hb, Bool.or_true]

theorem skipSeparators_raw (m : Member) (l : List UInt8) :
    skipSeparators (m.raw ++ l) = m.raw ++ l := rfl

/-- A comma before a member is skipped. -/
theorem membersFrom_comma (l : List UInt8) : membersFrom (valueSeparator :: l) = membersFrom l := by
  rw [membersFrom_eq, membersFrom_eq l, skipSeparators_comma]

/-- A round of the scan reads one member. -/
theorem membersFrom_text {m : Member} (hshape : m.Shaped) (hvalue : IsValue m.value)
    {rest : List UInt8} (hrest : AtSeparator rest) :
    membersFrom (m.text ++ rest) = (membersFrom rest).map (topLevel m :: ·) := by
  have hskip : skipSeparators (m.text ++ rest) = m.raw ++ m.after ++ rest := by
    have hassoc : m.text ++ rest = m.before ++ (m.raw ++ (m.after ++ rest)) := by
      simp [Member.text]
    rw [hassoc, skipSeparators_ws hshape.before, skipSeparators_raw, List.append_assoc]
  have hne : m.raw ++ m.after ++ rest ≠ [] := by simp [Member.raw, quoted]
  rw [membersFrom_eq, hskip, if_neg hne, scanMember_raw hshape hvalue hrest]

theorem atSeparator_flatMap (pieces : List (List UInt8)) :
    AtSeparator (pieces.flatMap (valueSeparator :: ·)) := by
  intro b hb
  cases pieces with
  | nil => cases hb
  | cons piece pieces => exact (Option.some.inj hb).symm

theorem membersFrom_flatMap {ms : List Member} (hshape : ∀ m ∈ ms, m.Shaped)
    (hvalue : ∀ m ∈ ms, IsValue m.value) :
    membersFrom ((ms.map Member.text).flatMap (valueSeparator :: ·)) = some (ms.map topLevel) := by
  induction ms with
  | nil =>
    rw [membersFrom_eq]
    rfl
  | cons m ms ih =>
    have htail := ih (fun n hn => hshape n (List.mem_cons_of_mem _ hn))
      fun n hn => hvalue n (List.mem_cons_of_mem _ hn)
    rw [List.map_cons, List.flatMap_cons, List.cons_append, membersFrom_comma,
      membersFrom_text (hshape m List.mem_cons_self) (hvalue m List.mem_cons_self)
        (atSeparator_flatMap _), htail]
    rfl

/-- **The scan of the members** of an object. -/
theorem membersFrom_join {ms : List Member} (hshape : ∀ m ∈ ms, m.Shaped)
    (hvalue : ∀ m ∈ ms, IsValue m.value) :
    membersFrom (commaJoin (ms.map Member.text)) = some (ms.map topLevel) := by
  cases ms with
  | nil =>
    rw [membersFrom_eq]
    rfl
  | cons m ms =>
    rw [List.map_cons, commaJoin_cons, ← membersFrom_comma]
    exact membersFrom_flatMap hshape hvalue

theorem membersFrom_ws {ws : List UInt8} (h : Ws ws) : membersFrom ws = some [] := by
  have hskip : skipSeparators ws = [] := by
    have happ := skipSeparators_ws h []
    rwa [List.append_nil] at happ
  rw [membersFrom_eq, hskip, if_pos rfl]

/-! ## The object -/

theorem trimmed_object {w w' : List UInt8} (body : List UInt8) (hw : Ws w) (hw' : Ws w') :
    trimmed (w ++ beginObject :: body ++ endObject :: w') = beginObject :: body ++ [endObject] := by
  have hleft : (w ++ beginObject :: body ++ endObject :: w').dropWhile isBlank =
      beginObject :: body ++ [endObject] ++ w' := by
    rw [List.append_assoc, List.dropWhile_append_of_pos (isBlank_of_ws hw)]
    simp [isBlank, beginObject]
  have hlast : ¬isBlank endObject = true := by decide
  unfold trimmed
  rw [hleft, rdropWhile_append_all _ (isBlank_of_ws hw'),
    List.rdropWhile_concat_neg isBlank _ _ hlast]

theorem topLevelMembers_body {w w' : List UInt8} (body : List UInt8) (hw : Ws w) (hw' : Ws w') :
    topLevelMembers (w ++ beginObject :: body ++ endObject :: w') = (membersFrom body).getD [] := by
  have hinside : ((beginObject :: body ++ [endObject]).drop 1).dropLast = body := by simp
  have hguard : ¬((beginObject :: body ++ [endObject]).length < 2 ∨
      (beginObject :: body ++ [endObject]).head? ≠ some 0x7B ∨
      (beginObject :: body ++ [endObject]).getLast? ≠ some 0x7D) := by
    have hlast : (beginObject :: body ++ [endObject]).getLast? = some endObject :=
      List.getLast?_concat
    rw [hlast]
    simp [beginObject, endObject]
  unfold topLevelMembers
  simp only [trimmed_object body hw hw', if_neg hguard, hinside]

/-- **The scan finds the members of every object**, in their order. -/
theorem topLevelMembers_object {text : List UInt8} {ms : List Member} (h : IsObject text ms) :
    topLevelMembers text = ms.map topLevel := by
  cases h with
  | empty hw hws hw' => rw [topLevelMembers_body _ hw hw', membersFrom_ws hws]; rfl
  | members hw hw' hne hshape hvalue =>
    rw [topLevelMembers_body _ hw hw', membersFrom_join hshape hvalue]
    rfl

end ShadNet.SummonBroker
