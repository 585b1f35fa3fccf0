import Mathlib.Data.List.AList
import Mathlib.Tactic.Linarith

/-!
# Runs of a step function

`runAt step s es n` is the state after the first `n` events of `es`, from `s`.

* `runAt_from`: what holds at one point holds from there on if the later steps keep it.
* `runAt_inv`: what every step keeps holds at every point of a run.
* `runAt_guard`: the same for a property that only guarded steps keep.
* `runAt_iff_guard`: when in addition an unguarded step always breaks the
  property, the property holds along the whole run exactly when every step of
  the run is guarded (`runAt_iff_along`: in the states of this run).
-/

namespace Lib

variable {σ ε : Type*} {step : σ → ε → σ}

/-- The state after the first `n` events. -/
def runAt (step : σ → ε → σ) (s : σ) (es : List ε) (n : ℕ) : σ := (es.take n).foldl step s

@[simp] theorem runAt_zero (s : σ) (es : List ε) : runAt step s es 0 = s := by simp [runAt]

/-- The state after one more event is that event's step. -/
theorem runAt_succ (s : σ) {es : List ε} {n : ℕ} (hn : n < es.length) :
    runAt step s es (n + 1) = step (runAt step s es n) es[n] := by
  simp only [runAt]
  rw [List.take_add_one, List.getElem?_eq_getElem hn, Option.toList_some, List.foldl_append]
  rfl

/-- Behind the last event a run stands still. -/
theorem runAt_min (s : σ) (es : List ε) (n : ℕ) :
    runAt step s es n = runAt step s es (min n es.length) := by
  simp only [runAt]
  rcases le_total n es.length with h | h
  · rw [min_eq_left h]
  · rw [min_eq_right h, List.take_of_length_le h, List.take_length]

/-- After its events a run stays where it is. -/
theorem runAt_over (s : σ) {es : List ε} {n : ℕ} (hn : es.length ≤ n) :
    runAt step s es (n + 1) = runAt step s es n := by
  rw [runAt_min, runAt_min (n := n), min_eq_right (by omega), min_eq_right hn]

/-- **From some point on.** What holds after `n` events and guarded steps keep still holds when the
later steps are guarded. -/
theorem runAt_from {P : σ → Prop} {G : σ → ε → Prop} {s : σ} {es : List ε} {n : ℕ}
    (h : P (runAt step s es n)) (hstep : ∀ s e, P s → G s e → P (step s e))
    (hG : ∀ m (hm : m < es.length), n ≤ m → G (runAt step s es m) es[m]) {m : ℕ} (hnm : n ≤ m) :
    P (runAt step s es m) := by
  induction m, hnm using Nat.le_induction with
  | base => exact h
  | succ m hnm ih =>
    by_cases hm : m < es.length
    · rw [runAt_succ s hm]
      exact hstep _ _ ih (hG m hm hnm)
    · -- the run is over
      rw [runAt_min, min_eq_right (by omega)]
      rwa [runAt_min, min_eq_right (by omega)] at ih

/-- **Guarded invariants.** A property that guarded steps keep holds at every point
of a run all of whose steps are guarded. -/
theorem runAt_guard {P : σ → Prop} {G : σ → ε → Prop} {s : σ} {es : List ε} (h0 : P s)
    (hstep : ∀ s e, P s → G s e → P (step s e))
    (hG : ∀ n (hn : n < es.length), G (runAt step s es n) es[n]) (n : ℕ) :
    P (runAt step s es n) :=
  runAt_from (n := 0) (by simpa using h0) hstep (fun m hm _ => hG m hm) (Nat.zero_le n)

/-- **Invariants.** What every step keeps holds at every point of a run. -/
theorem runAt_inv {P : σ → Prop} {s : σ} (h0 : P s) (hstep : ∀ s e, P s → P (step s e))
    (es : List ε) (n : ℕ) : P (runAt step s es n) :=
  runAt_guard (G := fun _ _ => True) h0 (fun s e h _ => hstep s e h) (fun _ _ => trivial) n

/-- **Exact guards.** Let `I` hold in every state, and let a guarded step keep `P` and an
unguarded one break it. Then `P` holds along a run exactly when its steps are guarded. -/
theorem runAt_iff_guard {I P : σ → Prop} {G : σ → ε → Prop} {s : σ} {es : List ε} (hI0 : I s)
    (hI : ∀ s e, I s → I (step s e)) (h0 : P s)
    (hgood : ∀ s e, I s → P s → G s e → P (step s e))
    (hbad : ∀ s e, I s → P s → ¬ G s e → ¬ P (step s e)) :
    (∀ n, P (runAt step s es n)) ↔ ∀ n (hn : n < es.length), G (runAt step s es n) es[n] := by
  constructor
  · intro hP n hn
    by_contra hG
    have := hP (n + 1)
    rw [runAt_succ s hn] at this
    exact hbad _ _ (runAt_inv hI0 hI es n) (hP n) hG this
  · intro hG n
    exact (runAt_guard (P := fun s => I s ∧ P s) ⟨hI0, h0⟩
      (fun s e h hg => ⟨hI s e h.1, hgood s e h.1 h.2 hg⟩) hG n).2

/-- A property of the states of one run holds along it if and only if each event is good for it. -/
theorem runAt_iff_along {P : σ → Prop} {G : σ → ε → Prop} {s : σ} {es : List ε} (h0 : P s)
    (hstep : ∀ n (hn : n < es.length), P (runAt step s es n) →
      (P (step (runAt step s es n) es[n]) ↔ G (runAt step s es n) es[n])) :
    (∀ n, P (runAt step s es n)) ↔ ∀ n (hn : n < es.length), G (runAt step s es n) es[n] := by
  constructor
  · intro hP n hn
    have hnext := hP (n + 1)
    rw [runAt_succ s hn] at hnext
    exact (hstep n hn (hP n)).mp hnext
  · intro hG n
    induction n with
    | zero => rwa [runAt_zero]
    | succ n ih =>
      by_cases hn : n < es.length
      · rw [runAt_succ s hn]
        exact (hstep n hn ih).mpr (hG n hn)
      · rwa [runAt_over s (by omega)]

end Lib
