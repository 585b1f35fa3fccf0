import ShadNet.Lib.Run

/-!
# Read, then write

Threads run commands on a shared store. A command reads the store, decides, and if its decision
writes it does so in a later step; the steps of other threads may come in between.

* `ReadWrite.serial`: commands one after another.
* `ReadWrite.Steady`: a write finds a store on which its command decides as it did on the one
  that it read.
* `ReadWrite.run_serial`: when every write of a run is steady, store and replies are those of
  the commands one after another, in the order in which they were done.
-/

namespace Lib

/-- How commands `κ` act on a store `σ`, with decisions `δ` and replies `ρ`. -/
structure ReadWrite (κ σ δ ρ : Type*) where
  decide : κ → σ → δ
  writes : δ → Bool
  apply : κ → δ → σ → σ × ρ

namespace ReadWrite

variable {ι κ σ δ ρ : Type*} (w : ReadWrite κ σ δ ρ)

/-- A command executed in one step. -/
def exec (c : κ) (s : σ) : σ × ρ := w.apply c (w.decide c s) s

/-- Commands one after another, with the replies to them. -/
def serial (s : σ) : List κ → σ × List ρ
  | [] => (s, [])
  | c :: cs =>
    let r := serial (w.exec c s).1 cs
    (r.1, (w.exec c s).2 :: r.2)

/-- One command more, one after the other. -/
theorem serial_concat (s : σ) (cs : List κ) (c : κ) : w.serial s (cs ++ [c]) =
    ((w.exec c (w.serial s cs).1).1, (w.serial s cs).2 ++ [(w.exec c (w.serial s cs).1).2]) := by
  induction cs generalizing s with
  | nil => rfl
  | cons d cs ih => simp only [List.cons_append, serial, ih]

/-- The store, the command that each thread has still to write, with the store that it has
read, and the commands done with the replies to them. -/
structure State (ι κ σ ρ : Type*) where
  store : σ
  pending : ι → Option (κ × σ)
  done : List (κ × ρ)

/-- A command reads in one step, and writes in another. -/
inductive Step (ι κ : Type*) where
  | start (i : ι) (c : κ)
  | finish (i : ι)

/-- A thread has one command at a time. -/
def step [DecidableEq ι] (s : State ι κ σ ρ) : Step ι κ → State ι κ σ ρ
  | .start i c =>
    match s.pending i with
    | some _ => s
    | none =>
      if w.writes (w.decide c s.store) then
        { s with pending := Function.update s.pending i (some (c, s.store)) }
      else
        let r := w.exec c s.store
        { s with store := r.1, done := s.done ++ [(c, r.2)] }
  | .finish i =>
    match s.pending i with
    | none => s
    | some (c, read) =>
      let r := w.apply c (w.decide c read) s.store
      ⟨r.1, Function.update s.pending i none, s.done ++ [(c, r.2)]⟩

/-- A write finds a store on which its command still decides the same. -/
def Steady (s : State ι κ σ ρ) : Step ι κ → Prop
  | .start _ _ => True
  | .finish i => ∀ p ∈ s.pending i, w.decide p.1 s.store = w.decide p.1 p.2

/-- A store with no command pending and none done. -/
def init (s : σ) : State ι κ σ ρ := ⟨s, fun _ => none, []⟩

/-- Store and replies are those of the commands in the order in which they were done. -/
def InOrder (s0 : σ) (s : State ι κ σ ρ) : Prop :=
  w.serial s0 (s.done.map Prod.fst) = (s.store, s.done.map Prod.snd)

/-- Store and replies are those of the commands in some order. -/
def Serialised (s0 : σ) (s : State ι κ σ ρ) : Prop :=
  ∃ order : List (κ × ρ), order.Perm s.done ∧
    w.serial s0 (order.map Prod.fst) = (s.store, order.map Prod.snd)

variable {w} {s0 : σ} {s : State ι κ σ ρ}

/-- Commands that are in order are as good as one after the other. -/
theorem InOrder.serialised (h : w.InOrder s0 s) : w.Serialised s0 s :=
  ⟨s.done, List.Perm.refl _, h⟩

/-- A command that is executed in one step goes to the end of the order. -/
theorem InOrder.concat (h : w.InOrder s0 s) (c : κ) {d : δ} (hd : w.decide c s.store = d)
    (pending : ι → Option (κ × σ)) : w.InOrder s0
      ⟨(w.apply c d s.store).1, pending, s.done ++ [(c, (w.apply c d s.store).2)]⟩ := by
  unfold InOrder at *
  simp only [List.map_append, List.map_cons, List.map_nil]
  rw [serial_concat, h]
  simp only [exec, hd]

variable [DecidableEq ι]

/-- A steady step keeps the order. -/
theorem step_inOrder (h : w.InOrder s0 s) (e : Step ι κ) (he : w.Steady s e) :
    w.InOrder s0 (w.step s e) := by
  cases e with
  | start i c =>
    cases hp : s.pending i with
    | some _ => simpa only [step, hp] using h
    | none =>
      by_cases hw : w.writes (w.decide c s.store) = true
      · -- the command has only read so far
        simp only [step, hp, hw, if_true]
        exact h
      · -- it does not write, and is done
        simp only [step, hp, hw]
        exact h.concat c rfl _
  | finish i =>
    cases hp : s.pending i with
    | none => simpa only [step, hp] using h
    | some p =>
      simp only [step, hp]
      exact h.concat p.1 (he p hp) _

/-- What waits to be written was decided so. -/
theorem pending_writes (s0 : σ) (steps : List (Step ι κ)) (n : ℕ) :
    ∀ i p, (runAt w.step (init s0) steps n).pending i = some p →
      w.writes (w.decide p.1 p.2) = true := by
  refine runAt_inv (P := fun s : State ι κ σ ρ => ∀ i p, s.pending i = some p →
    w.writes (w.decide p.1 p.2) = true) (by simp [init]) ?_ steps n
  intro s e h j p hp
  cases e with
  | start i c =>
    cases hi : s.pending i with
    | some _ =>
      simp only [step, hi] at hp
      exact h j p hp
    | none =>
      by_cases hw : w.writes (w.decide c s.store) = true
      · simp only [step, hi, hw, if_true] at hp
        by_cases hj : j = i
        · subst hj
          rw [Function.update_self] at hp
          obtain rfl := Option.some.inj hp
          exact hw
        · rw [Function.update_of_ne hj] at hp
          exact h j p hp
      · simp only [step, hi, hw] at hp
        exact h j p hp
  | finish i =>
    cases hi : s.pending i with
    | none =>
      simp only [step, hi] at hp
      exact h j p hp
    | some _ =>
      simp only [step, hi] at hp
      by_cases hj : j = i
      · subst hj
        rw [Function.update_self] at hp
        cases hp
      · rw [Function.update_of_ne hj] at hp
        exact h j p hp

/-- **A steady run is serial.** -/
theorem run_serial (s0 : σ) (steps : List (Step ι κ))
    (hsteady : ∀ n (hn : n < steps.length), w.Steady (runAt w.step (init s0) steps n) steps[n])
    (n : ℕ) : w.Serialised s0 (runAt w.step (init s0) steps n) := by
  have hstart : w.InOrder s0 (init s0 : State ι κ σ ρ) := rfl
  have horder : w.InOrder s0 (runAt w.step (init s0) steps n) :=
    runAt_guard hstart (fun _ e h he => step_inOrder h e he) hsteady n
  exact horder.serialised

end ReadWrite

end Lib
