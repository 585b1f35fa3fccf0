import ShadNet.Spec.StreamExtractor

/-!
# The request reader stays inside the request

* `fits_callOk`: from a position inside the payload, a call none of whose `int` sums
  passes `2^31 - 1` leaves the position inside, never clears the error flag, copies
  payload bytes only, and reads a length-prefixed blob exactly.
* `callOk_fits`: no other call does. A sum that passes the range comes out negative, so the
  bounds test lets it through.
* `calls_ok_iff`: the same over whole runs of calls.
* `getRawData_escapes`: the length prefix `2^32 - 1` makes `getRawData` copy memory behind
  the payload.
-/

namespace ShadNet.StreamExtractor

open Lib

variable {x : StreamExtractor} {c : Call}

/-- The position is inside the payload. -/
def PosOk (x : StreamExtractor) : Prop := 0 ≤ x.pos ∧ x.pos ≤ x.data.length

/-- The bytes from the position on. -/
def rest (x : StreamExtractor) : List UInt8 := x.data.drop x.pos.toNat

/-- The string bytes from the position on, up to a NUL or the end. -/
def strBytes (x : StreamExtractor) : List UInt8 := x.rest.takeWhile (· ≠ 0)

/-- The length that the next four bytes spell. -/
def lenPrefix (x : StreamExtractor) : ℕ := fromLe (x.rest.take 4)

/-- A readable length prefix with all the bytes it announces behind it. -/
def RawComplete (x : StreamExtractor) : Prop :=
  x.error = false ∧ x.pos + 4 + x.lenPrefix ≤ x.data.length

instance (x : StreamExtractor) : Decidable x.RawComplete := inferInstanceAs (Decidable (_ ∧ _))

/-- **No `int` sum of the call passes the range.** `getRawData` adds the length only after
it has read one. A payload of `2^31` bytes and more also has what a wrapped sum
copies, if the copy is inside and the position is not left negative. -/
def Fits (x : StreamExtractor) : Call → Prop
  | .get width => x.pos + width.1 < 2 ^ 31
  | .getString _ => x.pos + x.strBytes.length + (if x.strBytes = x.rest then 0 else 1) < 2 ^ 31
  | .getBytes n => x.pos + n.1 < 2 ^ 31
  | .peekBytes n => x.pos + n.1 < 2 ^ 31 ∨ x.pos + n.1 ≤ x.data.length
  | .getRawData => x.pos + 4 < 2 ^ 31 ∧
      (x.error = false → x.pos + 4 ≤ x.data.length → x.pos + 4 + x.lenPrefix < 2 ^ 31 ∨
        (2 ^ 32 ≤ x.pos + 4 + x.lenPrefix ∧ x.pos + 4 + x.lenPrefix ≤ x.data.length))

/-- **What a call must do**: it stays in the data, keeps an error, copies bytes of the data only,
and reads a blob exactly if it is whole. -/
structure CallOk (x : StreamExtractor) (c : Call) : Prop where
  pos : 0 ≤ (x.call c).1.pos ∧ (x.call c).1.pos ≤ x.data.length
  error : x.error = true → (x.call c).1.error = true
  copied : ∀ r, (x.call c).2 = some r → r.Inside x.data
  raw : c = .getRawData → x.RawComplete → (x.call c).1.error = false ∧
    ∃ r, (x.call c).2 = some r ∧ r.bytes x.data = (x.rest.drop 4).take x.lenPrefix
  rawNone : c = .getRawData → ¬ x.RawComplete → (x.call c).1.error = true ∧ (x.call c).2 = none
  parsed : c = .getRawData → ∀ (M : Type) (parse : Region → Option M),
    (x.decodeProto parse).2 = none ∨
      ∃ r, r.Inside x.data ∧ (x.decodeProto parse).2 = parse r

theorem call_data (x : StreamExtractor) (c : Call) : (x.call c).1.data = x.data := by
  have hget : ∀ w, (x.get w).1.data = x.data := by
    intro w; unfold get; split <;> rfl
  cases c with
  | get w => exact hget w
  | getString e => simp only [call, getString]; split <;> rfl
  | getBytes n => simp only [call, getBytes]; split <;> rfl
  | peekBytes n => rfl
  | getRawData =>
    simp only [call, getRawData]
    split
    · exact hget 4
    · split <;> exact hget 4

theorem fromLe_lt (l : List UInt8) : fromLe l < 256 ^ l.length := by
  induction l with
  | nil => simp [fromLe]
  | cons b l ih =>
    have := b.toNat_lt
    simp only [fromLe, List.length_cons, Nat.pow_succ]
    omega

theorem lenPrefix_lt (x : StreamExtractor) : x.lenPrefix < 2 ^ 32 := by
  have h := fromLe_lt (x.rest.take 4)
  have hl : (x.rest.take 4).length ≤ 4 := by simp
  exact lt_of_lt_of_le h (le_trans (Nat.pow_le_pow_right (by norm_num) hl) (by norm_num))

/-- A position is an `int`. -/
theorem call_pos_lt (h : x.pos < 2 ^ 31) (c : Call) : (x.call c).1.pos < 2 ^ 31 := by
  -- a position is an old one or the wrapped value of a sum
  have hget : ∀ w, (x.get w).1.pos < 2 ^ 31 := by
    intro w; unfold get; split
    · exact h
    · exact wrap32_lt _
  have hscan : ∀ (l : List UInt8) (p : ℤ), p < 2 ^ 31 → scanString l p < 2 ^ 31 := by
    intro l
    induction l with
    | nil => intro p hp; exact hp
    | cons b l ih =>
      intro p hp
      unfold scanString
      split
      · exact hp
      · exact ih _ (wrap32_lt _)
  cases c with
  | get w => exact hget w
  | getString e =>
    simp only [call, getString]
    split
    · exact hscan _ _ h
    · exact wrap32_lt _
  | getBytes n => exact hget n
  | peekBytes n => exact h
  | getRawData =>
    simp only [call, getRawData]
    split
    · exact hget 4
    · split
      · exact hget 4
      · exact wrap32_lt _

theorem after_pos_lt (data : List UInt8) (calls : List Call) (n : ℕ) :
    (after data calls n).pos < 2 ^ 31 :=
  runAt_inv (P := fun x : StreamExtractor => x.pos < 2 ^ 31) (by simp [ofData])
    (fun _ c h => call_pos_lt h c) calls n

theorem rest_length (hx : PosOk x) : (x.rest.length : ℤ) = x.data.length - x.pos := by
  have h1 := hx.1
  have h2 := hx.2
  unfold rest
  rw [List.length_drop]; omega

/-! ## The single reads -/

/-- A fixed-size read whose sum stays in the range: the bounds test is exact. -/
theorem get_of_fits (hx : PosOk x) {w : ℕ} (h : x.pos + w < 2 ^ 31) :
    x.get w = if (x.data.length : ℤ) < x.pos + w then ({ x with error := true }, none)
      else ({ x with pos := x.pos + w }, some ⟨x.pos, w⟩) := by
  unfold get
  rw [wrap32_of_lt (by have := hx.1; omega) h]

/-- One whose sum passes the range: the test lets it through, and the position goes
negative. -/
theorem get_of_not_fits {w : ℕ} (h : 2 ^ 31 ≤ x.pos + w) (hw : x.pos + w < 2 ^ 32) :
    x.get w = ({ x with pos := x.pos + w - 2 ^ 32 }, some ⟨x.pos, w⟩) := by
  unfold get
  rw [wrap32_of_ge h hw, if_neg (by omega)]

theorem getBytes_eq_get (x : StreamExtractor) (n : ℕ) : x.getBytes n = x.get n := rfl

theorem peekBytes_eq_get (x : StreamExtractor) (n : ℕ) : x.peekBytes n = (x.get n).2 := by
  unfold peekBytes get; split <;> rfl

/-- Within the range the scan of `getString` counts its steps. -/
theorem scanString_of_lt : ∀ (l : List UInt8) {p : ℤ}, 0 ≤ p →
    p + (l.takeWhile (· ≠ 0)).length < 2 ^ 31 →
    scanString l p = p + (l.takeWhile (· ≠ 0)).length := by
  intro l
  induction l with
  | nil => intro p _ _; simp [scanString]
  | cons b l ih =>
    intro p hp h
    by_cases hb : b = 0
    · simp [scanString, hb]
    · rw [List.takeWhile_cons_of_pos (by simpa using hb), List.length_cons] at h ⊢
      push_cast at h ⊢
      rw [scanString, if_neg (by rintro (h | h) <;> [omega; exact hb h]),
        wrap32_of_lt (by omega) (by omega), ih (by omega) (by omega)]
      omega

/-- Past it the scan stops at the wrapped position. -/
theorem scanString_of_ge : ∀ (l : List UInt8) {p : ℤ}, 0 ≤ p → p < 2 ^ 31 →
    2 ^ 31 ≤ p + (l.takeWhile (· ≠ 0)).length → scanString l p = - 2 ^ 31 := by
  intro l
  induction l with
  | nil => intro p _ hp h; simp at h; omega
  | cons b l ih =>
    intro p hp hp' h
    by_cases hb : b = 0
    · simp [hb] at h; omega
    · rw [List.takeWhile_cons_of_pos (by simpa using hb), List.length_cons] at h
      push_cast at h
      rw [scanString, if_neg (by rintro (h | h) <;> [omega; exact hb h])]
      by_cases hw : p + 1 < 2 ^ 31
      · rw [wrap32_of_lt (by omega) hw]
        exact ih (by omega) hw (by omega)
      · -- the step that wraps: the next round stops at the negative position
        rw [wrap32_of_ge (by omega) (by omega)]
        cases l with
        | nil => simp only [scanString]; omega
        | cons b' l => rw [scanString, if_pos (Or.inl (by omega))]; omega

theorem takeWhile_length_lt {α : Type*} {p : α → Bool} {l : List α} (h : l.takeWhile p ≠ l) :
    (l.takeWhile p).length < l.length := by
  have hpre := List.takeWhile_prefix (l := l) p
  rcases Nat.eq_or_lt_of_le hpre.length_le with he | hl
  · exact absurd (hpre.eq_of_length he) h
  · exact hl

/-- `getString` up to the end of the range. -/
theorem getString_of_fits (hx : PosOk x) (e : Bool) (h : x.Fits (.getString e)) :
    x.getString e = if x.strBytes = x.rest
      then ({ x with pos := x.data.length, error := true }, none)
      else ({ x with pos := x.pos + x.strBytes.length + 1,
                     error := x.error || (!e && decide (x.strBytes.length = 0)) },
        some ⟨x.pos, x.strBytes.length⟩) := by
  have h0 := hx.1
  have hlen := rest_length hx
  simp only [Fits] at h
  have hscan : scanString x.rest x.pos = x.pos + x.strBytes.length := by
    apply scanString_of_lt x.rest h0
    unfold strBytes at h; split at h <;> omega
  unfold getString
  rw [show List.drop x.pos.toNat x.data = x.rest from rfl, hscan]
  by_cases hr : x.strBytes = x.rest
  · -- no terminator before the end
    rw [if_pos hr]
    simp only [hr]
    rw [if_pos (by omega), show x.pos + x.rest.length = x.data.length by omega]
  · have hlt : x.strBytes.length < x.rest.length := takeWhile_length_lt hr
    rw [if_neg hr] at h
    simp only [if_neg hr]
    rw [if_neg (by omega), wrap32_of_lt (by omega) (by omega),
      show (x.pos + x.strBytes.length - x.pos).toNat = x.strBytes.length by omega]
    simp

/-- The prefix that `getRawData` reads, and where it leaves the reader. -/
theorem getRawData_of_lt (hx : PosOk x) (h : x.pos + 4 < 2 ^ 31) :
    x.getRawData =
      if (x.data.length : ℤ) < x.pos + 4 then ({ x with error := true }, none)
      else if x.error then ({ x with pos := x.pos + 4 }, none)
      else if (x.data.length : ℤ) < wrap32 (x.pos + 4 + wrap32 x.lenPrefix) then
        ({ x with pos := x.pos + 4, error := true }, none)
      else ({ x with pos := wrap32 (x.pos + 4 + x.lenPrefix) }, some ⟨x.pos + 4, x.lenPrefix⟩) := by
  have hg := get_of_fits hx (w := 4) (by exact_mod_cast h)
  have hcast : ((4 : ℕ) : ℤ) = 4 := rfl
  rw [hcast] at hg
  unfold getRawData getValue
  rw [hg]
  by_cases h4 : (x.data.length : ℤ) < x.pos + 4
  · simp [h4]
  · simp only [h4, if_false]
    rfl

/-- `getRawData` on a blob that fits. -/
theorem getRawData_of_fits (hx : PosOk x) (h : x.Fits .getRawData) :
    x.getRawData = if x.RawComplete
      then ({ x with pos := wrap32 (x.pos + 4 + x.lenPrefix) }, some ⟨x.pos + 4, x.lenPrefix⟩)
      else ({ x with pos := if (x.data.length : ℤ) < x.pos + 4 then x.pos else x.pos + 4,
                     error := true }, none) := by
  obtain ⟨h4, hL⟩ := h
  have h0 := hx.1
  have hlt := lenPrefix_lt x
  rw [getRawData_of_lt hx h4]
  by_cases ha : (x.data.length : ℤ) < x.pos + 4
  · rw [if_pos ha, if_neg (fun hc => by have := hc.2; omega), if_pos ha]
  · rw [if_neg ha]
    by_cases he : x.error = true
    · rw [if_pos he, if_neg (fun hc => by have := hc.1; simp [he] at this), if_neg ha]
      simp [he]
    · have he' : x.error = false := by simpa using he
      rw [if_neg he]
      -- on such lengths the test means what it should
      have htest : (x.data.length : ℤ) < wrap32 (x.pos + 4 + wrap32 x.lenPrefix) ↔
          ¬ x.pos + 4 + x.lenPrefix ≤ x.data.length := by
        rcases hL he' (by omega) with hfit | ⟨hfit, hin⟩
        · rw [wrap32_of_lt (x := (x.lenPrefix : ℤ)) (by omega) (by omega),
            wrap32_of_lt (by omega) hfit]
          omega
        · rw [wrap32_of_ge (x := (x.lenPrefix : ℤ)) (by omega) (by omega),
            wrap32_of_lt (by omega) (by omega)]
          omega
      by_cases hc : x.pos + 4 + x.lenPrefix ≤ x.data.length
      · rw [if_neg (by rw [htest]; exact fun h => h hc), if_pos ⟨he', hc⟩]
      · rw [if_pos (htest.2 hc), if_neg (fun h => hc h.2), if_neg ha]

/-! ## The calls -/

/-- The fixed-size reads share one bounds test. -/
theorem get_inside (hx : PosOk x) {w : ℕ} (hw : x.pos + w < 2 ^ 31) :
    (0 ≤ (x.get w).1.pos ∧ (x.get w).1.pos ≤ x.data.length) ∧
      (x.error = true → (x.get w).1.error = true) ∧
      ∀ r, (x.get w).2 = some r → r.Inside x.data := by
  have h0 := hx.1
  rw [get_of_fits hx hw]
  split
  · exact ⟨hx, fun _ => rfl, fun r hr => by cases hr⟩
  · refine ⟨⟨by simp only; omega, by simp only; omega⟩, fun he => he, ?_⟩
    intro r hr
    obtain rfl := Option.some.inj hr
    exact ⟨h0, by simp only; omega⟩

theorem callOk_peekBytes {n : Fin (2 ^ 31)} (hx : PosOk x) (h : x.Fits (.peekBytes n)) :
    CallOk x (.peekBytes n) := by
  refine ⟨hx, fun he => he, ?_, nofun, nofun, nofun⟩
  intro r hr
  simp only [call, peekBytes_eq_get] at hr
  rcases h with h | h
  · exact (get_inside hx h).2.2 r hr
  · -- the sum may wrap, but the bytes are there
    have hr' : r = ⟨x.pos, n⟩ := by
      unfold get at hr
      split at hr
      · cases hr
      · exact (Option.some.inj hr).symm
    exact hr' ▸ ⟨hx.1, h⟩

theorem callOk_getString {e : Bool} (hx : PosOk x) (h : x.Fits (.getString e)) :
    CallOk x (.getString e) := by
  have h0 := hx.1
  have h1 := hx.2
  have hlen := rest_length hx
  have hcall := getString_of_fits hx e h
  refine ⟨?_, ?_, ?_, nofun, nofun, nofun⟩ <;> simp only [call] <;> rw [hcall] <;> split
  · exact ⟨by simp only; omega, le_rfl⟩
  · have hlt : x.strBytes.length < x.rest.length := takeWhile_length_lt ‹_›
    exact ⟨by simp only; omega, by simp only; omega⟩
  · intro _; rfl
  · intro he; simp [he]
  · intro r hr; cases hr
  · have hlt : x.strBytes.length < x.rest.length := takeWhile_length_lt ‹_›
    intro r hr
    obtain rfl := Option.some.inj hr
    exact ⟨h0, by simp only; omega⟩

/-- A blob that is all there is copied. -/
theorem callOk_getRawData_complete (hx : PosOk x) (h : x.Fits .getRawData) (hc : x.RawComplete) :
    CallOk x .getRawData := by
  have h0 := hx.1
  have h1 := hx.2
  have hlt := lenPrefix_lt x
  have hin := hc.2
  have hcall := getRawData_of_fits hx h
  obtain ⟨h4, hL⟩ := h
  rw [if_pos hc] at hcall
  have hpos : 0 ≤ wrap32 (x.pos + 4 + x.lenPrefix) ∧
      wrap32 (x.pos + 4 + x.lenPrefix) ≤ x.data.length := by
    rcases hL hc.1 (by omega) with hfit | ⟨hfit, -⟩
    · rw [wrap32_of_lt (by omega) hfit]; omega
    · rw [show x.pos + 4 + (x.lenPrefix : ℤ) = x.pos + 4 + x.lenPrefix - 2 ^ 32 + 2 ^ 32 by omega,
        wrap32_add_modulus, wrap32_of_lt (by omega) (by omega)]
      omega
  have hreg : Region.Inside ⟨x.pos + 4, x.lenPrefix⟩ x.data := ⟨by simp only; omega, hin⟩
  refine ⟨?_, ?_, ?_, ?_, fun _ h => absurd hc h, ?_⟩
  · simp only [call, hcall]; exact hpos
  · intro he; simp [call, hcall, he]
  · intro r hr
    simp only [call, hcall] at hr
    exact Option.some.inj hr ▸ hreg
  · intro _ _
    refine ⟨by simp only [call, hcall]; exact hc.1, ⟨x.pos + 4, x.lenPrefix⟩,
      by simp only [call, hcall], ?_⟩
    unfold Region.bytes rest
    rw [List.drop_drop, show (x.pos + 4).toNat = x.pos.toNat + 4 by omega]
  · intro _ M parse
    refine Or.inr ⟨_, hreg, ?_⟩
    simp [decodeProto, hcall, hc.1]

/-- Of a blob that is not whole, nothing is copied. -/
theorem callOk_getRawData_part (hx : PosOk x) (h : x.Fits .getRawData) (hc : ¬ x.RawComplete) :
    CallOk x .getRawData := by
  have h0 := hx.1
  have h1 := hx.2
  have hcall := getRawData_of_fits hx h
  rw [if_neg hc] at hcall
  refine ⟨?_, ?_, ?_, fun _ h => absurd h hc, ?_, ?_⟩
  · simp only [call, hcall]; split <;> omega
  · intro _; simp only [call, hcall]
  · intro r hr; simp [call, hcall] at hr
  · intro _ _; simp only [call, hcall, and_self]
  · intro _ M parse; exact Or.inl (by simp [decodeProto, hcall])

/-- **A call that fits** does what it must. -/
theorem fits_callOk (hx : PosOk x) (h : x.Fits c) : CallOk x c := by
  cases c with
  | get w =>
    obtain ⟨a, b, d⟩ := get_inside hx h
    exact ⟨a, b, d, nofun, nofun, nofun⟩
  | getBytes n =>
    obtain ⟨a, b, d⟩ := get_inside hx h
    exact ⟨a, b, d, nofun, nofun, nofun⟩
  | peekBytes n => exact callOk_peekBytes hx h
  | getString e => exact callOk_getString hx h
  | getRawData =>
    by_cases hc : x.RawComplete
    · exact callOk_getRawData_complete hx h hc
    · exact callOk_getRawData_part hx h hc

theorem fits_getString {e : Bool} (hx : PosOk x) (hint : x.pos < 2 ^ 31)
    (h : CallOk x (.getString e)) : x.Fits (.getString e) := by
  have h0 := hx.1
  have h1 := hx.2
  by_contra hno
  have hlen := rest_length hx
  have hpos := h.pos.1
  simp only [Fits, not_lt] at hno
  simp only [call, getString, show List.drop x.pos.toNat x.data = x.rest from rfl] at hpos
  by_cases hs : 2 ^ 31 ≤ x.pos + x.strBytes.length
  · -- the scan itself runs past the range
    rw [scanString_of_ge _ h0 hint hs, if_neg (by omega), wrap32_of_lt (by omega) (by omega)] at hpos
    simp only at hpos
    omega
  · -- the terminator is the last byte an `int` position can name
    rw [scanString_of_lt x.rest h0 (by unfold strBytes at hs; omega)] at hpos
    have hne : x.strBytes ≠ x.rest := by
      intro he; rw [if_pos he] at hno; omega
    have hlt : x.strBytes.length < x.rest.length := takeWhile_length_lt hne
    rw [if_neg hne] at hno
    unfold strBytes at hno hs hlt
    rw [if_neg (by omega), wrap32_of_ge (by omega) (by omega)] at hpos
    simp only at hpos
    omega

/-- The prefix of a call that behaves is read within the range. -/
theorem getRawData_prefix_fits (hx : PosOk x) (hint : x.pos < 2 ^ 31) (h : CallOk x .getRawData) :
    x.pos + 4 < 2 ^ 31 := by
  have h0 := hx.1
  have h1 := hx.2
  by_contra h4
  have hpos := h.pos.1
  have hcop := h.copied
  -- the prefix itself is read across the end of the range
  have hg := get_of_not_fits (x := x) (w := 4) (by omega) (by omega)
  simp only [call, getRawData, hg] at hpos hcop
  split at hpos
  · simp only at hpos; omega
  · rename_i he
    rw [if_neg he] at hcop
    split at hpos
    · simp only at hpos; omega
    · rename_i ht
      rw [if_neg ht] at hcop
      have := (hcop _ rfl).1
      simp only at this
      omega

theorem fits_getRawData (hx : PosOk x) (hint : x.pos < 2 ^ 31) (h : CallOk x .getRawData) :
    x.Fits .getRawData := by
  have h0 := hx.1
  have h1 := hx.2
  have h4 := getRawData_prefix_fits hx hint h
  by_contra hno
  have hlt := lenPrefix_lt x
  have hpos := h.pos.1
  have hcop := h.copied
  simp only [Fits, not_and, not_forall] at hno
  obtain ⟨he, hle, hover⟩ := hno h4
  simp only [not_or, not_lt, not_and, not_le] at hover
  -- the test lets the blob through, and its end or the new position is outside
  have htest : wrap32 (x.pos + 4 + wrap32 x.lenPrefix) ≤ x.data.length := by
    by_cases hs : (x.lenPrefix : ℤ) < 2 ^ 31
    · rw [wrap32_of_lt (x := (x.lenPrefix : ℤ)) (by omega) hs, wrap32_of_ge hover.1 (by omega)]
      omega
    · rw [wrap32_of_ge (x := (x.lenPrefix : ℤ)) (by omega) (by omega),
        wrap32_of_lt (by omega) (by omega)]
      omega
  simp only [call, getRawData_of_lt hx h4, if_neg (show ¬ (x.data.length : ℤ) < x.pos + 4 by omega),
    he, if_neg (show ¬ (x.data.length : ℤ) < wrap32 (x.pos + 4 + wrap32 x.lenPrefix) by omega)]
    at hpos hcop
  have := (hcop _ rfl).2
  simp only at this
  simp only [Bool.false_eq_true, if_false] at hpos
  rw [wrap32_of_ge (by omega) (by omega)] at hpos
  omega

/-- **A call that does what it must** fits. -/
theorem callOk_fits (hx : PosOk x) (hint : x.pos < 2 ^ 31) (h : CallOk x c) : x.Fits c := by
  have h0 := hx.1
  have h1 := hx.2
  cases c with
  | get w =>
    -- the position comes out negative
    by_contra hno
    simp only [Fits, not_lt] at hno
    have := h.pos.1
    simp only [call, get_of_not_fits hno (by omega)] at this
    omega
  | getBytes n =>
    by_contra hno
    simp only [Fits, not_lt] at hno
    have := h.pos.1
    simp only [call, getBytes_eq_get, get_of_not_fits hno (by omega)] at this
    omega
  | peekBytes n =>
    -- the position stays, but the bytes are not all there
    by_contra hno
    simp only [Fits, not_or, not_lt, not_le] at hno
    have := h.copied ⟨x.pos, n⟩ (by
      simp only [call, peekBytes_eq_get, get_of_not_fits hno.1 (by omega)])
    have := this.2
    simp only at this
    omega
  | getString e => exact fits_getString hx hint h
  | getRawData => exact fits_getRawData hx hint h

/-! ## Runs -/

/-- While every call behaves the position stays inside. -/
theorem after_posOk {data : List UInt8} {calls : List Call}
    (h : ∀ n (hn : n < calls.length), CallOk (after data calls n) calls[n]) (n : ℕ) :
    PosOk (after data calls n) :=
  runAt_guard (P := PosOk) (G := CallOk) ⟨le_rfl, by simp [ofData]⟩
    (fun x c _ hc => ⟨hc.pos.1, by rw [call_data]; exact hc.pos.2⟩) h n

/-- **Every call of a run behaves exactly when every one fits.** -/
theorem calls_ok_iff (data : List UInt8) (calls : List Call) :
    (∀ n (hn : n < calls.length), CallOk (after data calls n) calls[n]) ↔
      ∀ n (hn : n < calls.length), (after data calls n).Fits calls[n] := by
  constructor
  · intro h n hn
    exact callOk_fits (after_posOk h n) (after_pos_lt data calls n) (h n hn)
  · intro h n hn
    have hpos : PosOk (after data calls n) :=
      runAt_guard (P := PosOk) (G := Fits) ⟨le_rfl, by simp [ofData]⟩
        (fun x c hx hf => by
          have hc := fits_callOk hx hf
          exact ⟨hc.pos.1, by rw [call_data]; exact hc.pos.2⟩) h n
    exact fits_callOk hpos (h n hn)

/-- The four bytes `FF FF FF FF` announce `2^32 - 1` bytes, none of which is there. -/
theorem getRawData_escapes : ¬ ∀ (data : List UInt8) (calls : List Call) (n : ℕ)
    (hn : n < calls.length), CallOk (after data calls n) calls[n] := by
  intro h
  have hc := h [255, 255, 255, 255] [.getRawData] 0 (by decide)
  have hr := hc.copied ⟨4, 4294967295⟩ (by decide)
  exact absurd hr (by decide)

end ShadNet.StreamExtractor
