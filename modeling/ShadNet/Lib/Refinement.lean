import ShadNet.Lib.Run

/-!
# Machines that answer each other's steps

A step of one machine is answered by steps of another, none or several.

* `answers`: what a run of the one is answered by.
* `run_of_steps`, `Refines.run`: states that are related stay so along a run and its answers.
* `answers_inv`: what is kept of a state and the answers so far.
-/

namespace Lib

variable {σ τ ε ε' : Type*} {R : σ → τ → Prop} {step : σ → ε → σ} {step' : τ → ε' → τ}
  {answer : σ → ε → List ε'} {s : σ} {t : τ}

/-- `R` relates the states, and answered steps keep it. -/
def Refines (R : σ → τ → Prop) (step : σ → ε → σ) (step' : τ → ε' → τ) (answer : σ → ε → List ε') :
    Prop :=
  ∀ s t e, R s t → R (step s e) ((answer s e).foldl step' t)

/-- The answers to the first `n` events. -/
def answers (step : σ → ε → σ) (answer : σ → ε → List ε') : σ → List ε → ℕ → List ε'
  | _, [], _ => []
  | _, _, 0 => []
  | s, e :: es, n + 1 => answer s e ++ answers step answer (step s e) es n

@[simp] theorem answers_nil (s : σ) (n : ℕ) : answers step answer s [] n = [] := by
  cases n <;> rfl

@[simp] theorem answers_zero (s : σ) (es : List ε) : answers step answer s es 0 = [] := by
  cases es <;> rfl

/-- A run starts with its first event. -/
theorem runAt_cons (s : σ) (e : ε) (es : List ε) (n : ℕ) :
    runAt step s (e :: es) (n + 1) = runAt step (step s e) es n := rfl

theorem runAt_nil (s : σ) (n : ℕ) : runAt step s [] n = s := by
  simp [runAt]

/-- A whole run. -/
theorem runAt_length (s : σ) (es : List ε) : runAt step s es es.length = es.foldl step s := by
  simp [runAt]

/-- **Along a run** whose steps keep the relation. -/
theorem run_of_steps {es : List ε}
    (h : ∀ e ∈ es, ∀ s t, R s t → R (step s e) ((answer s e).foldl step' t)) (h0 : R s t) (n : ℕ) :
    R (runAt step s es n) ((answers step answer s es n).foldl step' t) := by
  induction es generalizing s t n with
  | nil =>
    rw [runAt_nil, answers_nil]
    exact h0
  | cons e es ih =>
    cases n with
    | zero =>
      rw [runAt_zero, answers_zero]
      exact h0
    | succ n =>
      rw [runAt_cons, answers, List.foldl_append]
      exact ih (fun e he => h e (List.mem_cons_of_mem _ he)) (h e List.mem_cons_self s t h0) n

/-- **Along any run** of machines that answer each other. -/
theorem Refines.run (h : Refines R step step' answer) (h0 : R s t) (es : List ε) (n : ℕ) :
    R (runAt step s es n) ((answers step answer s es n).foldl step' t) :=
  run_of_steps (fun e _ s t hR => h s t e hR) h0 n

/-- **Along a run**, with what has been answered so far. -/
theorem answers_inv {P : σ → List ε' → Prop} (h0 : P s [])
    (h : ∀ s done e, P s done → P (step s e) (done ++ answer s e)) (es : List ε) (n : ℕ) :
    P (runAt step s es n) (answers step answer s es n) := by
  have hall : ∀ done es', (es' : List ε').foldl (fun done e => done ++ [e]) done = done ++ es' := by
    intro done es'
    rw [List.foldl_append_eq_append, ← List.flatMap_def, List.flatMap_singleton']
  have hrefines : Refines P step (fun done e => done ++ [e]) answer := by
    intro s done e hs
    rw [hall]
    exact h s done e hs
  have hrun := hrefines.run h0 es n
  rwa [hall, List.nil_append] at hrun

end Lib
