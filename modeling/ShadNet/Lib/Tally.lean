import ShadNet.Lib.Table

/-!
# Tallies

The keys a table maps to a value, and how their number changes with the table. A tally is a
second table that keeps these numbers, without entries for zero.

* `usersOf_set`, `usersOf_del`: the number of users of a value after a key is mapped anew or
  dropped.
* `Tallies.enter`, `Tallies.leave`: a tally of any count that goes up or down by one.
-/

namespace Lib

namespace Table

variable {κ ν : Type*} [DecidableEq κ] [DecidableEq ν] {t : Table κ ν} {k : κ} {v c : ν}

/-- The keys mapped to a value, each once. -/
def usersOf (t : Table κ ν) (c : ν) : List κ := t.keys.filter fun k => t.get? k = some c

/-- The users of a value are those who have it. -/
theorem mem_usersOf : k ∈ t.usersOf c ↔ t.get? k = some c := by
  unfold usersOf
  rw [List.mem_filter, decide_eq_true_eq]
  refine ⟨And.right, fun h => ⟨mem_keys_iff.mpr ⟨c, h⟩, h⟩⟩

theorem nodup_usersOf (t : Table κ ν) (c : ν) : (t.usersOf c).Nodup := t.keys_nodup.filter _

/-- The users other than `k`, as a number. -/
def others (t : Table κ ν) (k : κ) (c : ν) : ℕ := ((t.keys.erase k).filter fun u => t.get? u = some c).length

/-- What is said of the keys other than `k` does not depend on what `k` is mapped to. -/
theorem others_congr {t' : Table κ ν} (h : ∀ u, u ≠ k → t'.get? u = t.get? u) :
    ((t.keys.erase k).filter fun u => t'.get? u = some c).length = t.others k c := by
  unfold others
  refine congrArg _ (List.filter_congr fun u hu => ?_)
  rw [h u ((t.keys_nodup.mem_erase_iff.mp hu).1)]

/-- The users of a value: the others, and perhaps this one. -/
theorem length_usersOf (t : Table κ ν) (k : κ) (c : ν) :
    (t.usersOf c).length = t.others k c + if t.get? k = some c then 1 else 0 := by
  unfold usersOf others
  by_cases hk : k ∈ t.keys
  · rw [((List.perm_cons_erase hk).filter _).length_eq, List.filter_cons]
    by_cases hc : t.get? k = some c
    · simp [hc]
    · simp [hc]
  · rw [List.erase_of_not_mem hk, if_neg (by rw [get?_eq_none.mpr hk]; simp), Nat.add_zero]

/-- Who takes a value is one of its users. -/
theorem usersOf_set (t : Table κ ν) (k : κ) (v c : ν) :
    ((t.set k v).usersOf c).length = t.others k c + if v = c then 1 else 0 := by
  have hkeys : (t.set k v).keys = k :: t.keys.erase k := by
    unfold set
    rw [AList.keys_insert]
  unfold usersOf
  rw [hkeys, List.filter_cons, get?_set_self]
  have hothers : ((t.keys.erase k).filter fun u => (t.set k v).get? u = some c).length = t.others k c :=
    others_congr fun u hu => get?_set_ne hu
  rw [← hothers]
  by_cases hc : v = c
  · simp [hc]
  · simp [hc]

/-- An entry that is taken out is not counted. -/
theorem usersOf_del (t : Table κ ν) (k : κ) (c : ν) :
    ((t.del k).usersOf c).length = t.others k c := by
  have hkeys : (t.del k).keys = t.keys.erase k := AList.keys_erase k t
  unfold usersOf
  rw [hkeys, others_congr fun u hu => get?_del_ne hu]

end Table

variable {ν : Type*} [DecidableEq ν] {counts : Table ν ℤ} {f : ν → ℕ} {c : ν}

/-- The table has the numbers that are not zero, and no other entry. -/
def Tallies (counts : Table ν ℤ) (f : ν → ℕ) : Prop :=
  ∀ c, counts.get? c = if f c = 0 then none else some (f c : ℤ)

theorem Tallies.empty : Tallies (∅ : Table ν ℤ) fun _ => 0 := by
  intro c
  simp

theorem Tallies.congr {g : ν → ℕ} (h : Tallies counts f) (hfg : ∀ c, f c = g c) : Tallies counts g := by
  intro c
  rw [← hfg]
  exact h c

/-- A count that is kept is positive, and is the number counted. -/
theorem Tallies.get?_eq_some_iff (h : Tallies counts f) {n : ℤ} :
    counts.get? c = some n ↔ 0 < f c ∧ n = f c := by
  rw [h c]
  by_cases h0 : f c = 0
  · simp [h0]
  · rw [if_neg h0, Option.some.injEq]
    omega

/-- A count that is not there is 0. -/
theorem Tallies.getD (h : Tallies counts f) : (counts.get? c).getD 0 = f c := by
  rw [h c]
  by_cases h0 : f c = 0
  · simp [h0]
  · simp [h0]

/-- The count of a value goes up when one more has it. -/
theorem Tallies.enter (h : Tallies counts f) (c : ν) :
    Tallies (counts.set c ((counts.get? c).getD 0 + 1)) fun x => if x = c then f x + 1 else f x := by
  intro x
  rw [Table.get?_set, h.getD]
  by_cases hx : x = c
  · subst hx
    simp
  · simp only [if_neg hx]
    exact h x

/-- Counting one less, where there was one, counts the others. -/
theorem Tallies.leave {n : ℤ} (h : Tallies counts f) (hn : counts.get? c = some n) :
    Tallies (if n - 1 ≤ 0 then counts.del c else counts.set c (n - 1))
      fun x => if x = c then f x - 1 else f x := by
  obtain ⟨hpos, rfl⟩ := h.get?_eq_some_iff.mp hn
  intro x
  simp only
  by_cases hx : x = c
  · subst hx
    by_cases h1 : f x = 1
    · simp [h1]
    · have hlt : ¬ ((f x : ℤ) - 1 ≤ 0) := by omega
      rw [if_neg hlt, Table.get?_set_self, if_pos rfl, if_neg (by omega)]
      congr 1
      omega
  · rw [if_neg hx, ← h x]
    split
    · exact Table.get?_del_ne hx
    · exact Table.get?_set_ne hx

end Lib
