import Mathlib.Tactic.Linarith

/-!
# Loops

A loop is a step that either leaves (`none`) or gives the state of the next round.
`rounds step s n` is the state the `n`-th round starts from.

* `terminates_of_measure`: a loop whose rounds keep an invariant and lower a measure
  terminates.
* `not_terminates_of_fixed`: one that reaches a state its step gives back does not.
* `Leaves.unique`: the state a loop leaves in is the only one.
* `leaves_loop`: a loop that is run for as many rounds as its measure has left.
-/

namespace Lib

variable {σ : Type*} {step : σ → Option σ} {s : σ}

/-- The state round `n` starts from, if the loop gets there. -/
def rounds (step : σ → Option σ) (s : σ) : ℕ → Option σ
  | 0 => some s
  | n + 1 => (rounds step s n).bind step

@[simp] theorem rounds_zero : rounds step s 0 = some s := rfl

/-- A round after `n` rounds makes `n + 1`. -/
theorem rounds_succ_of {n : ℕ} {t u : σ} (h : rounds step s n = some t) (hu : step t = some u) :
    rounds step s (n + 1) = some u := by
  simp only [rounds, h, Option.bind_some, hu]

/-- A round that starts was reached from a round before it. -/
theorem rounds_succ_inv {n : ℕ} {u : σ} (h : rounds step s (n + 1) = some u) :
    ∃ t, rounds step s n = some t ∧ step t = some u :=
  Option.bind_eq_some_iff.mp h

/-- Some round does not start. -/
def Terminates (step : σ → Option σ) (s : σ) : Prop := ∃ n, rounds step s n = none

/-- What holds at the start and is kept by every round. -/
theorem rounds_inv {P : σ → Prop} (h0 : P s) (hstep : ∀ t u, P t → step t = some u → P u) :
    ∀ n t, rounds step s n = some t → P t := by
  intro n
  induction n with
  | zero => intro t h; obtain rfl := Option.some.inj h; exact h0
  | succ n ih =>
    intro u h
    obtain ⟨t, ht, hu⟩ := rounds_succ_inv h
    exact hstep t u (ih t ht) hu

/-- A measure that falls in every round ends the loop. -/
theorem terminates_of_measure {P : σ → Prop} (m : σ → ℕ) (h0 : P s)
    (hstep : ∀ t u, P t → step t = some u → P u ∧ m u < m t) : Terminates step s := by
  by_contra hno
  have hsome : ∀ n, ∃ t, rounds step s n = some t := fun n =>
    Option.ne_none_iff_exists'.mp (fun h => hno ⟨n, h⟩)
  -- the measure would drop for ever
  have hdrop : ∀ n t, rounds step s n = some t → m t + n ≤ m s := by
    intro n
    induction n with
    | zero => intro t h; obtain rfl := Option.some.inj h; simp
    | succ n ih =>
      intro u h
      obtain ⟨t, ht, hu⟩ := rounds_succ_inv h
      have hP := rounds_inv h0 (fun t u hP hu => (hstep t u hP hu).1) n t ht
      have := (hstep t u hP hu).2
      have := ih t ht
      omega
  obtain ⟨t, ht⟩ := hsome (m s + 1)
  have := hdrop _ t ht
  omega

/-- A round that changes nothing is repeated for ever. -/
theorem not_terminates_of_fixed {n : ℕ} {t : σ} (hn : rounds step s n = some t)
    (ht : step t = some t) : ¬ Terminates step s := by
  rintro ⟨k, hk⟩
  have hstay : ∀ i, rounds step s (n + i) = some t := by
    intro i
    induction i with
    | zero => exact hn
    | succ i ih => exact rounds_succ_of ih ht
  have hnone : ∀ i, rounds step s (k + i) = none := by
    intro i
    induction i with
    | zero => exact hk
    | succ i ih => rw [← Nat.add_assoc, rounds, ih, Option.bind_none]
  have h1 := hstay k
  have h2 := hnone n
  rw [Nat.add_comm] at h2
  rw [h2] at h1
  cases h1

/-! ## Leaving -/

variable {t u : σ}

/-- `n + 1` rounds are one from the start and `n` after it. -/
theorem rounds_succ' (step : σ → Option σ) (s : σ) (n : ℕ) :
    rounds step s (n + 1) = (step s).bind fun u => rounds step u n := by
  induction n with
  | zero => cases h : step s <;> simp [rounds, h]
  | succ n ih =>
    rw [rounds, ih]
    cases step s <;> rfl

/-- Some round starts from `t`. -/
def Reaches (step : σ → Option σ) (s t : σ) : Prop := ∃ n, rounds step s n = some t

theorem Reaches.refl (s : σ) : Reaches step s s := ⟨0, rfl⟩

theorem Reaches.head (hs : step s = some u) (h : Reaches step u t) : Reaches step s t := by
  obtain ⟨n, hn⟩ := h
  exact ⟨n + 1, by rw [rounds_succ', hs, Option.bind_some, hn]⟩

/-- What is reached from a state that was reached is reached. -/
theorem Reaches.trans (h : Reaches step s t) (h' : Reaches step t u) : Reaches step s u := by
  obtain ⟨n, hn⟩ := h
  induction n generalizing s with
  | zero =>
    obtain rfl := Option.some.inj hn
    exact h'
  | succ n ih =>
    rw [rounds_succ'] at hn
    obtain ⟨v, hv, hn⟩ := Option.bind_eq_some_iff.mp hn
    exact .head hv (ih hn)

/-- The loop leaves in the state `t`. -/
def Leaves (step : σ → Option σ) (s t : σ) : Prop := Reaches step s t ∧ step t = none

theorem Leaves.here (h : step s = none) : Leaves step s s := ⟨.refl s, h⟩

theorem Leaves.head (hs : step s = some u) (h : Leaves step u t) : Leaves step s t :=
  ⟨.head hs h.1, h.2⟩

/-- A loop is left as it is left from any state on its way. -/
theorem Leaves.of_reaches (h : Reaches step s u) (h' : Leaves step u t) : Leaves step s t :=
  ⟨h.trans h'.1, h'.2⟩

/-- After a round the loop leaves where it would have left before it. -/
theorem Leaves.tail (h : Leaves step s t) (hs : step s = some u) : Leaves step u t := by
  obtain ⟨⟨n, hn⟩, ht⟩ := h
  cases n with
  | zero =>
    obtain rfl := Option.some.inj hn
    rw [ht] at hs
    cases hs
  | succ n =>
    rw [rounds_succ', hs, Option.bind_some] at hn
    exact ⟨⟨n, hn⟩, ht⟩

/-- **A loop leaves in one state only.** -/
theorem Leaves.unique (h : Leaves step s t) (h' : Leaves step s u) : t = u := by
  obtain ⟨⟨n, hn⟩, ht⟩ := h
  induction n generalizing s with
  | zero =>
    obtain rfl := Option.some.inj hn
    obtain ⟨⟨m, hm⟩, -⟩ := h'
    cases m with
    | zero => exact Option.some.inj hm
    | succ m =>
      rw [rounds_succ', ht] at hm
      cases hm
  | succ n ih =>
    rw [rounds_succ'] at hn
    obtain ⟨v, hv, hn⟩ := Option.bind_eq_some_iff.mp hn
    exact ih (h'.tail hv) hn

/-- The state after at most `fuel` rounds. -/
def loop (step : σ → Option σ) : ℕ → σ → σ
  | 0, s => s
  | fuel + 1, s =>
    match step s with
    | none => s
    | some t => loop step fuel t

/-- **Enough rounds.** A loop whose rounds keep an invariant and lower a measure leaves within as many
rounds as the measure says. -/
theorem leaves_loop {P : σ → Prop} (m : σ → ℕ) (h0 : P s)
    (hstep : ∀ t u, P t → step t = some u → P u ∧ m u < m t) {fuel : ℕ} (hfuel : m s ≤ fuel) :
    Leaves step s (loop step fuel s) := by
  induction fuel generalizing s with
  | zero =>
    refine Leaves.here ?_
    by_contra hne
    obtain ⟨u, hu⟩ := Option.ne_none_iff_exists'.mp hne
    have := (hstep s u h0 hu).2
    omega
  | succ fuel ih =>
    unfold loop
    cases hs : step s with
    | none => exact Leaves.here hs
    | some u =>
      obtain ⟨hP, hlt⟩ := hstep s u h0 hs
      exact (ih hP (by omega)).head hs

end Lib
