import ShadNet.Lib.Run

/-!
# The latest event of a kind

* `latest`: what the last event of a kind says.
* `latest_eq_some_iff`: there is such an event, and none of the kind after it.
* `runAt_latest`: a part of the state that such events overwrite, and others leave, is what the last of
  them says.
-/

namespace Lib

variable {σ ε α : Type*} {step : σ → ε → σ} {f : ε → Option α} {es : List ε} {n : ℕ}

/-- What the last of the first `n` events says, of those that `f` knows. -/
def latest (f : ε → Option α) (es : List ε) (n : ℕ) : Option α := (es.take n).reverse.findSome? f

@[simp] theorem latest_zero (f : ε → Option α) (es : List ε) : latest f es 0 = none := by
  simp [latest]

/-- With one more event, the latest of `f` is that event's or the one before. -/
theorem latest_succ (f : ε → Option α) (hn : n < es.length) :
    latest f es (n + 1) = (f es[n]).or (latest f es n) := by
  unfold latest
  rw [List.take_add_one, List.getElem?_eq_getElem hn, Option.toList_some, List.reverse_append,
    List.reverse_singleton, List.singleton_append, List.findSome?_cons]
  cases f es[n] <;> rfl

/-- Behind the last event nothing is later. -/
theorem latest_over (f : ε → Option α) (hn : es.length ≤ n) : latest f es (n + 1) = latest f es n := by
  unfold latest
  rw [List.take_of_length_le hn, List.take_of_length_le (by omega)]

/-- **The last one is there**, and after it comes none. -/
theorem latest_eq_some_iff {a : α} : latest f es n = some a ↔
    ∃ k, ∃ hk : k < es.length, k < n ∧ f es[k] = some a ∧
      ∀ j (hj : j < es.length), k < j → j < n → f es[j] = none := by
  induction n with
  | zero => simp
  | succ n ih =>
    by_cases hn : n < es.length
    · rw [latest_succ f hn]
      cases hlast : f es[n] with
      | some b =>
        rw [Option.some_or]
        constructor
        · rintro h
          exact ⟨n, hn, n.lt_succ_self, hlast.trans h, fun j hj hlt hle => by omega⟩
        · rintro ⟨k, hk, hkn, hka, hnone⟩
          by_cases hkeq : k = n
          · subst hkeq
            exact hlast.symm.trans hka
          · have := hnone n hn (by omega) n.lt_succ_self
            rw [hlast] at this
            cases this
      | none =>
        rw [Option.none_or, ih]
        constructor
        · rintro ⟨k, hk, hkn, hka, hnone⟩
          refine ⟨k, hk, by omega, hka, fun j hj hlt hle => ?_⟩
          by_cases hjn : j = n
          · subst hjn
            exact hlast
          · exact hnone j hj hlt (by omega)
        · rintro ⟨k, hk, hkn, hka, hnone⟩
          have hne : k ≠ n := by
            rintro rfl
            rw [hlast] at hka
            cases hka
          exact ⟨k, hk, by omega, hka, fun j hj hlt hle => hnone j hj hlt (by omega)⟩
    · -- the list is over
      rw [latest_over f (by omega), ih]
      constructor
      · rintro ⟨k, hk, -, hka, hnone⟩
        exact ⟨k, hk, by omega, hka, fun j hj hlt hle => hnone j hj hlt (by omega)⟩
      · rintro ⟨k, hk, -, hka, hnone⟩
        exact ⟨k, hk, by omega, hka, fun j hj hlt hle => hnone j hj hlt (by omega)⟩

/-- If there is none, there was none before. -/
theorem latest_eq_none_of_le {k : ℕ} (hkn : k ≤ n) (h : latest f es n = none) : latest f es k = none := by
  by_contra hne
  obtain ⟨a, ha⟩ := Option.ne_none_iff_exists'.mp hne
  obtain ⟨j, hj, hjk, hja, -⟩ := latest_eq_some_iff.mp ha
  unfold latest at h
  rw [List.findSome?_eq_none_iff] at h
  have hmem : es[j] ∈ es.take n := List.mem_take_iff_getElem.mpr ⟨j, by omega, rfl⟩
  rw [h es[j] (List.mem_reverse.mpr hmem)] at hja
  cases hja

/-- **What is overwritten** is what the latest event says, or what was there at the start. -/
theorem runAt_latest {g : σ → Option α} (hstep : ∀ s e, g (step s e) = (f e).or (g s)) (s : σ)
    (es : List ε) (n : ℕ) : g (runAt step s es n) = (latest f es n).or (g s) := by
  induction n with
  | zero => simp
  | succ n ih =>
    by_cases hn : n < es.length
    · rw [runAt_succ s hn, hstep, ih, latest_succ f hn, Option.or_assoc]
    · rw [runAt_over s (by omega), latest_over f (by omega), ih]

end Lib
