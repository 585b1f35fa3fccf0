import Mathlib.Data.List.Basic

/-!
# Formats that are read one field after another

A reader is a state; `cursor data pos` is the reader of `data` that stands at position `pos`. A
reading `Reads` a piece of data if, wherever the piece stands in data below a limit, it gives the
value of the piece and leaves the reader behind it.

* `Reads.bind`, `Reads.times`: fields one after another, and a list of them behind their number.
* `Reads.whole`: data that are one such piece.
* `Reads.injective`: what is read the same way has different data for different values.
-/

namespace Lib

variable {β σ α γ δ : Type} {cursor : List β → ℕ → σ} {limit : ℕ} {read : StateM σ α}
  {bytes bytes' : List β} {a a' : α}

/-- The reading takes the bytes for the value, wherever they stand. -/
def Reads (cursor : List β → ℕ → σ) (limit : ℕ) (read : StateM σ α) (bytes : List β) (a : α) : Prop :=
  ∀ before after, (before ++ bytes ++ after).length < limit →
    read.run (cursor (before ++ bytes ++ after) before.length) =
      (a, cursor (before ++ bytes ++ after) (before ++ bytes).length)

/-- As often as a number says. -/
def readTimes (read : StateM σ α) : ℕ → StateM σ (List α)
  | 0 => pure []
  | n + 1 => do
    let a ← read
    let l ← readTimes read n
    pure (a :: l)

namespace Reads

/-- A reader that reads nothing. -/
theorem pure (a : α) : Reads cursor limit (Pure.pure a) [] a := by
  intro before after _
  rw [List.append_nil]
  rfl

/-- **One field after another.** -/
theorem bind {next : α → StateM σ γ} {c : γ} (h : Reads cursor limit read bytes a)
    (h' : Reads cursor limit (next a) bytes' c) :
    Reads cursor limit (read >>= next) (bytes ++ bytes') c := by
  intro before after hlen
  have hfirst := h before (bytes' ++ after) (by simpa using hlen)
  have hsecond := h' (before ++ bytes) after (by simpa using hlen)
  rw [show before ++ bytes ++ (bytes' ++ after) = before ++ (bytes ++ bytes') ++ after by simp] at hfirst
  rw [show before ++ bytes ++ bytes' ++ after = before ++ (bytes ++ bytes') ++ after by simp] at hsecond
  have hpos : (before ++ bytes ++ bytes').length = (before ++ (bytes ++ bytes')).length := by
    rw [List.append_assoc]
  rw [hpos] at hsecond
  rw [StateT.run_bind, hfirst]
  exact hsecond

/-- **A list of fields** is read one by one. -/
theorem times {encode : γ → List β} {value : γ → α} (l : List γ)
    (h : ∀ c ∈ l, Reads cursor limit read (encode c) (value c)) :
    Reads cursor limit (readTimes read l.length) (l.flatMap encode) (l.map value) := by
  induction l with
  | nil => exact pure []
  | cons c l ih =>
    have hrest := ih fun d hd => h d (List.mem_cons_of_mem c hd)
    have hcons : Reads cursor limit (Pure.pure (value c :: l.map value)) [] (value c :: l.map value) :=
      pure _
    rw [List.flatMap_cons, List.map_cons, List.length_cons, ← List.append_nil (l.flatMap encode)]
    exact bind (h c List.mem_cons_self) (bind hrest hcons)

/-- A reader that is given nothing but its bytes reads all of them. -/
theorem whole (h : Reads cursor limit read bytes a) (hlen : bytes.length < limit) :
    read.run (cursor bytes 0) = (a, cursor bytes bytes.length) := by
  have hread := h [] [] (by simpa using hlen)
  simpa using hread

/-- **The data tell the value.** -/
theorem injective (h : Reads cursor limit read bytes a) (h' : Reads cursor limit read bytes a')
    (hlen : bytes.length < limit) : a = a' := by
  have hread := h.whole hlen
  rw [h'.whole hlen] at hread
  exact (Prod.mk.inj hread).1.symm

end Reads

end Lib
