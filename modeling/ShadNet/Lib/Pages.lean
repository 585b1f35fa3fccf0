import Mathlib.Data.List.Nodup
import Mathlib.Data.List.Range
import Mathlib.Tactic.Linarith

/-!
# Pages

A list that is handed out in pages of `m` entries, numbered from 0.

* `mem_page`: the entries of a page by their indices.
* `page_eq_nil`: pages past the end are empty.
* `existsUnique_page`: an entry of a list without repeats is on exactly one page.
* `filterMap_getElem?`: a loop over the indices of a window reads the window.
-/

namespace Lib

variable {α β : Type*} {l : List α} {m k : ℕ} {x : α}

/-- The `k`-th page of `m` elements. -/
def page (l : List α) (m k : ℕ) : List α := (l.drop (k * m)).take m

/-- No page has more elements than asked for. -/
theorem page_length_le (l : List α) (m k : ℕ) : (page l m k).length ≤ m := List.length_take_le m _

/-- The pages of a list of images are the images of its pages. -/
theorem page_map (f : α → β) (l : List α) (m k : ℕ) : page (l.map f) m k = (page l m k).map f := by
  unfold page
  rw [← List.map_drop, List.map_take]

theorem page_eq_nil (h : l.length ≤ k * m) : page l m k = [] := by
  unfold page
  rw [List.drop_eq_nil_of_le h, List.take_nil]

/-- A page keeps the order of its list. -/
theorem page_sublist (l : List α) (m k : ℕ) : (page l m k).Sublist l :=
  (List.take_sublist m _).trans (List.drop_sublist _ l)

/-- The entries of a page by their indices in the list. -/
theorem mem_page : x ∈ page l m k ↔ ∃ i, k * m ≤ i ∧ i < (k + 1) * m ∧ l[i]? = some x := by
  have hsucc : (k + 1) * m = k * m + m := Nat.succ_mul _ _
  unfold page
  rw [List.mem_iff_getElem?]
  constructor
  · rintro ⟨j, hj⟩
    have hlt : j < m := by
      by_contra hge
      rw [List.getElem?_take, if_neg hge] at hj
      cases hj
    rw [List.getElem?_take_of_lt hlt, List.getElem?_drop] at hj
    exact ⟨k * m + j, by omega, by omega, hj⟩
  · rintro ⟨i, hle, hlt, hi⟩
    refine ⟨i - k * m, ?_⟩
    rw [List.getElem?_take_of_lt (by omega), List.getElem?_drop]
    rwa [Nat.add_sub_cancel' hle]

/-- **Exactly one page**: that of the entry's index. -/
theorem existsUnique_page (hl : l.Nodup) (hm : 0 < m) (hx : x ∈ l) :
    ∃ k, x ∈ page l m k ∧ k * m < l.length ∧ ∀ k', x ∈ page l m k' → k' = k := by
  obtain ⟨i, hi⟩ := List.mem_iff_getElem?.mp hx
  have hlt : i < l.length := (List.getElem?_eq_some_iff.mp hi).1
  have hpage := Nat.div_add_mod' i m
  have hmod := Nat.mod_lt i hm
  refine ⟨i / m, mem_page.mpr ⟨i, by omega, ?_, hi⟩, by omega, ?_⟩
  · have hsucc : (i / m + 1) * m = i / m * m + m := Nat.succ_mul _ _
    omega
  · intro k' hk'
    obtain ⟨j, hle, hjlt, hj⟩ := mem_page.mp hk'
    -- without repeats the index is known
    obtain ⟨hjlen, hjx⟩ := List.getElem?_eq_some_iff.mp hj
    obtain ⟨hilen, hix⟩ := List.getElem?_eq_some_iff.mp hi
    have hsame : l[j] = l[i] := hjx.trans hix.symm
    obtain rfl : j = i := (List.Nodup.getElem_inj_iff hl).mp hsame
    exact (Nat.div_eq_of_lt_le hle hjlt).symm

/-- **A loop over a window** reads the elements that `drop` and `take` leave. -/
theorem filterMap_getElem? (l : List α) (i n : ℕ) :
    (List.range' i n).filterMap (fun j => l[j]?) = (l.drop i).take n := by
  induction n generalizing i with
  | zero => simp
  | succ n ih =>
    rw [List.range'_succ, List.filterMap_cons, ih]
    by_cases hi : i < l.length
    · rw [List.getElem?_eq_getElem hi, List.drop_eq_getElem_cons hi, List.take_succ_cons]
    · rw [List.getElem?_eq_none (by omega), List.drop_eq_nil_of_le (by omega),
        List.drop_eq_nil_of_le (by omega)]
      simp

end Lib
