import Mathlib.Data.Set.Insert

/-!
# Replicas that are kept by news

Somebody who cannot see a set keeps a list of its elements, and is told of each element that comes
or goes. News may be under way for a while, and come in any order.

* `mem_apply`: what a piece of news does to the list.
* `InStep`: list and set agree on every element of which no news is owed. It is kept when an element
  changes and news of it becomes owed (`InStep.change`), and when news is delivered that still is true
  (`InStep.deliver`).
* `InStep.settled`: when nothing is owed, they agree.
-/

namespace Lib

variable {α : Type*} {truth truth' : Set α} {view : List α} {owed owed' : Set α} {a : α}

/-- An element has come, or it has gone. -/
structure News (α : Type*) where
  elem : α
  present : Bool
deriving DecidableEq

/-- The news is true of the set. -/
def News.Holds (truth : Set α) (n : News α) : Prop := n.elem ∈ truth ↔ n.present = true

/-- The list agrees with the set, but for elements of which news is owed. -/
def InStep (truth : Set α) (view : List α) (owed : Set α) : Prop :=
  ∀ x, x ∉ owed → (x ∈ view ↔ x ∈ truth)

/-- The view of whoever hears the news. -/
def News.apply [DecidableEq α] (view : List α) (n : News α) : List α :=
  if n.present then n.elem :: view else view.filter (· ≠ n.elem)

/-- News settles one element, and leaves the others. -/
theorem mem_apply [DecidableEq α] {n : News α} {x : α} :
    x ∈ n.apply view ↔ if x = n.elem then n.present = true else x ∈ view := by
  unfold News.apply
  by_cases hx : x = n.elem <;> cases n.present <;> simp [hx]

namespace InStep

theorem refl (h : ∀ x, x ∈ view ↔ x ∈ truth) : InStep truth view owed := fun x _ => h x

/-- A view is in step with the truth as long as the truth is the same and no less is owed. -/
theorem mono (h : InStep truth view owed) (hsame : ∀ x, x ∈ truth' ↔ x ∈ truth)
    (hle : owed ⊆ owed') : InStep truth' view owed' := by
  intro x hx
  rw [hsame x]
  exact h x fun hmem => hx (hle hmem)

/-- One element changes, and news of it becomes owed. -/
theorem change (h : InStep truth view owed) (hsame : ∀ x, x ≠ a → (x ∈ truth' ↔ x ∈ truth))
    (hle : owed ⊆ owed') (ha : a ∈ owed') : InStep truth' view owed' := by
  intro x hx
  have hne : x ≠ a := by
    rintro rfl
    exact hx ha
  rw [hsame x hne]
  exact h x fun hmem => hx (hle hmem)

/-- News arrives, of an element of which no more need be owed. -/
theorem deliver [DecidableEq α] {n : News α} (h : InStep truth view owed) (hn : n.Holds truth)
    (hle : owed ⊆ insert n.elem owed') : InStep truth (n.apply view) owed' := by
  intro x hx
  rw [mem_apply]
  split
  · rename_i heq
    subst heq
    exact hn.symm
  · rename_i hne
    refine h x fun hmem => ?_
    rcases hle hmem with heq | hmem
    · exact hne heq
    · exact hx hmem

/-- **With nothing owed, the view is the truth.** -/
theorem settled (h : InStep truth view owed) (hnone : ∀ x, x ∉ owed) (x : α) :
    x ∈ view ↔ x ∈ truth :=
  h x (hnone x)

end InStep

end Lib
