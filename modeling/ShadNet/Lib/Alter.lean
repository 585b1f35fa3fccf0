import ShadNet.Lib.Table

/-!
# Tables changed key by key

* `Alters f t k t'`: `t'` is `t` with the value of `k` rewritten by `f`, or dropped.
* `get?_foldl_alters`: where `f` has nothing to do a second time, a table altered at one key after the
  other has `f` applied at each of them, whatever their order and however often they come.
* `get?_foldl_del`: the same for deletions.
-/

namespace Lib

variable {κ ν α : Type*} [DecidableEq κ] {f : ν → Option ν} {t t' : Table κ ν} {k : κ}

/-- One table is the other with the value at `k` altered by `f`. -/
def Alters (f : ν → Option ν) (t : Table κ ν) (k : κ) (t' : Table κ ν) : Prop :=
  ∀ k', t'.get? k' = if k' = k then (t.get? k).bind f else t.get? k'

/-- A table is altered to itself if what `f` makes of the value at `k` is that value. -/
theorem Alters.refl (h : (t.get? k).bind f = t.get? k) : Alters f t k t := by
  intro k'
  split
  · rename_i hk
    rw [hk, h]
  · rfl

theorem Alters.set {v v' : ν} (h : t.get? k = some v) (hf : f v = some v') :
    Alters f t k (t.set k v') := by
  intro k'
  rw [Table.get?_set, h, Option.bind_some, hf]

theorem Alters.del {v : ν} (h : t.get? k = some v) (hf : f v = none) : Alters f t k (t.del k) := by
  intro k'
  rw [Table.get?_del, h, Option.bind_some, hf]

/-- **Alterations in any order.** `P` holds of the tables on the way. -/
theorem get?_foldl_alters (hf : ∀ v v', f v = some v' → f v' = some v') {P : Table κ ν → Prop}
    {step : Table κ ν → α → Table κ ν} {key : α → κ} {l : List α}
    (hstep : ∀ t, P t → ∀ a ∈ l, Alters f t (key a) (step t a) ∧ P (step t a)) (ht : P t) (k : κ) :
    (l.foldl step t).get? k = if k ∈ l.map key then (t.get? k).bind f else t.get? k := by
  induction l generalizing t with
  | nil => simp
  | cons a l ih =>
    obtain ⟨halt, hP⟩ := hstep t ht a List.mem_cons_self
    rw [List.foldl_cons, ih (fun t ht b hb => hstep t ht b (List.mem_cons_of_mem a hb)) hP,
      List.map_cons, halt k]
    by_cases hk : k = key a
    · -- once altered, it stays
      have hagain : ((t.get? k).bind f).bind f = (t.get? k).bind f := by
        cases hv : (t.get? k).bind f with
        | none => rfl
        | some v' =>
          obtain ⟨v, -, hfv⟩ := Option.bind_eq_some_iff.mp hv
          exact hf v v' hfv
      subst hk
      simp only [if_true, List.mem_cons, true_or, hagain, ite_self]
    · simp [hk]

/-- Keys that are deleted one after the other are all gone, and no others. -/
theorem get?_foldl_del (l : List κ) (t : Table κ ν) (k : κ) :
    (l.foldl Table.del t).get? k = if k ∈ l then none else t.get? k := by
  induction l generalizing t with
  | nil => simp
  | cons a l ih =>
    rw [List.foldl_cons, ih, Table.get?_del]
    by_cases hk : k = a
    · simp [hk]
    · simp [hk]

end Lib
