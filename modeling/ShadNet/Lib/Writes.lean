import Mathlib.Data.List.Basic
import Mathlib.Tactic.Common

/-!
# Writes to numbered slots

* `writeAll_getElem?`: of several writes to a slot the last one stands.
* `writeAll_eq_self`: writes change nothing exactly when each slot holds what is written there last.
* `Slots.foldl_eq`: a loop that writes to the slots of a record writes them all.
-/

namespace Lib

variable {ν : Type*} {slots : List ν} {ws : List (ℕ × ν)} {i : ℕ} {v : ν}

/-- Writes past the end are dropped. -/
def writeAll (slots : List ν) (ws : List (ℕ × ν)) : List ν :=
  ws.foldl (fun slots w => slots.set w.1 w.2) slots

/-- The last write to a slot. -/
def lastWrite (ws : List (ℕ × ν)) (i : ℕ) : Option ν :=
  ((ws.filter fun w => w.1 = i).getLast?).map Prod.snd

/-- Each slot holds what is written there last. -/
def WrittenAlready (slots : List ν) (ws : List (ℕ × ν)) : Prop :=
  ∀ i v v', slots[i]? = some v → lastWrite ws i = some v' → v' = v

/-- A later write to the same place wins. -/
theorem lastWrite_cons (w : ℕ × ν) (ws : List (ℕ × ν)) (i : ℕ) : lastWrite (w :: ws) i =
    (lastWrite ws i).or (if w.1 = i then some w.2 else none) := by
  unfold lastWrite
  rw [List.filter_cons]
  by_cases hw : w.1 = i
  · rw [if_pos (by simpa using hw), if_pos hw, List.getLast?_cons]
    cases ((ws.filter fun w => w.1 = i).getLast?) <;> rfl
  · rw [if_neg (by simpa using hw), if_neg hw, Option.or_none]

/-- **The last write stands.** -/
theorem writeAll_getElem? (slots : List ν) (ws : List (ℕ × ν)) (i : ℕ) :
    (writeAll slots ws)[i]? = slots[i]?.map fun v => (lastWrite ws i).getD v := by
  unfold writeAll
  induction ws generalizing slots with
  | nil => simp [lastWrite]
  | cons w ws ih =>
    rw [List.foldl_cons, ih, lastWrite_cons]
    by_cases hw : w.1 = i
    · -- an earlier write to the slot, which a later one may overwrite
      subst hw
      rw [if_pos rfl, List.getElem?_set_self']
      cases slots[w.1]? <;> cases lastWrite ws w.1 <;> rfl
    · rw [if_neg hw, Option.or_none, List.getElem?_set_ne hw]

/-- Writes change nothing exactly when all that they leave is there already. -/
theorem writeAll_eq_self : writeAll slots ws = slots ↔ WrittenAlready slots ws := by
  constructor
  · intro h i v v' hv hlast
    have hget := writeAll_getElem? slots ws i
    rw [h, hv, hlast] at hget
    exact (Option.some.inj hget).symm
  · intro h
    refine List.ext_getElem? fun i => ?_
    rw [writeAll_getElem?]
    cases hv : slots[i]? with
    | none => rfl
    | some v =>
      cases hlast : lastWrite ws i with
      | none => rfl
      | some v' => exact congrArg some (h i v v' hv hlast)

/-- Numbered slots within a record. -/
structure Slots (σ ν : Type*) where
  get : σ → List ν
  put : σ → List ν → σ
  put_get : ∀ s, put s (get s) = s
  get_put : ∀ s l, get (put s l) = l
  put_put : ∀ s l l', put (put s l) l' = put s l'

/-- **A loop of writes** is `writeAll` of what its rounds write. -/
theorem Slots.foldl_eq {σ α : Type*} (p : Slots σ ν) {f : σ → α → σ} {write : α → Option (ℕ × ν)}
    (hf : ∀ s a, f s a = p.put s (writeAll (p.get s) (write a).toList)) (s : σ) (l : List α) :
    l.foldl f s = p.put s (writeAll (p.get s) (l.filterMap write)) := by
  induction l generalizing s with
  | nil => exact (p.put_get s).symm
  | cons a l ih =>
    rw [List.foldl_cons, ih, hf, p.get_put, p.put_put, List.filterMap_cons]
    cases write a <;> rfl

end Lib
