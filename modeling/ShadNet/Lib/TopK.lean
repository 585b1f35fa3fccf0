import Mathlib.Data.List.Nodup
import Mathlib.Data.List.Perm.Basic
import Mathlib.Order.Basic
import Mathlib.Tactic.Linarith

/-!
# The best `n` of a list

Elements are ranked by a key, smaller first, and several may share one. `IsTop key n rows l`
says that `l` is a possible answer for the best `n` of `rows`: an initial segment of some
sorting of them.

* `IsTop.insert`: the answer for one more row is had by inserting it into the answer at
  hand.
* `IsTop.drop`: a row outside the answer may go.
* `IsTop.replace`: exchanging a row of the answer for another one is an answer exactly when
  no row outside is better than the new one.
-/

namespace Lib

variable {α κ : Type*} [LinearOrder κ] {key : α → κ} {n : ℕ} {a o : α}
  {rows rows' rest l l1 l2 s : List α}

/-- A list in the order of `key`. -/
def SortedBy (key : α → κ) (l : List α) : Prop := l.Pairwise fun a b => key a ≤ key b

/-- How many elements stand before the first that `a` could be put in front of. -/
def lowerBound (key : α → κ) (l : List α) (a : α) : ℕ :=
  (l.takeWhile fun b => decide (key b < key a)).length

/-- `a` put at position `i`. -/
def insertAt (l : List α) (i : ℕ) (a : α) : List α := l.take i ++ a :: l.drop i

/-- `a` put at its place in a sorted list. -/
def insertBy (key : α → κ) (a : α) (l : List α) : List α := insertAt l (lowerBound key l a) a

/-- A possible answer for the best `n` rows. -/
def IsTop (key : α → κ) (n : ℕ) (rows l : List α) : Prop :=
  ∃ s, s.Perm rows ∧ SortedBy key s ∧ l = s.take n

theorem insertAt_perm (l : List α) (i : ℕ) (a : α) : (insertAt l i a).Perm (a :: l) := by
  unfold insertAt
  refine List.perm_middle.trans ?_
  rw [List.take_append_drop]

/-- An element goes behind all those that rank before it. -/
theorem insertBy_eq (key : α → κ) (a : α) (l : List α) :
    insertBy key a l = (l.takeWhile fun b => decide (key b < key a)) ++
      a :: l.dropWhile fun b => decide (key b < key a) := by
  have htake : l.take (lowerBound key l a) = l.takeWhile fun b => decide (key b < key a) :=
    (List.prefix_iff_eq_take.mp (List.takeWhile_prefix _)).symm
  have hdrop : l.drop (lowerBound key l a) = l.dropWhile fun b => decide (key b < key a) := by
    have hsplit : l.take (lowerBound key l a) ++ l.drop (lowerBound key l a) =
        l.take (lowerBound key l a) ++ l.dropWhile fun b => decide (key b < key a) := by
      rw [List.take_append_drop, htake, List.takeWhile_append_dropWhile]
    exact List.append_cancel_left hsplit
  unfold insertBy insertAt
  rw [htake, hdrop]

/-- Insertion adds the element, and no other. -/
theorem insertBy_perm (key : α → κ) (a : α) (l : List α) : (insertBy key a l).Perm (a :: l) :=
  insertAt_perm _ _ _

/-- Insertion keeps the order. -/
theorem insertBy_sorted (h : SortedBy key l) (a : α) : SortedBy key (insertBy key a l) := by
  rw [insertBy_eq]
  induction l with
  | nil => simp [SortedBy]
  | cons b l ih =>
    obtain ⟨hb, hl⟩ := List.pairwise_cons.mp h
    -- `a` goes behind `b` if it ranks after it, and else in front of the whole list
    by_cases hlt : key b < key a
    · rw [List.takeWhile_cons_of_pos (by simpa using hlt),
        List.dropWhile_cons_of_pos (by simpa using hlt), List.cons_append]
      refine List.pairwise_cons.mpr ⟨?_, ih hl⟩
      intro x hx
      rw [← insertBy_eq] at hx
      rcases List.mem_cons.mp ((insertBy_perm key a l).mem_iff.mp hx) with rfl | hx
      · exact le_of_lt hlt
      · exact hb x hx
    · rw [List.takeWhile_cons_of_neg (by simpa using hlt),
        List.dropWhile_cons_of_neg (by simpa using hlt), List.nil_append]
      have hab := not_lt.mp hlt
      refine List.pairwise_cons.mpr ⟨?_, h⟩
      intro x hx
      rcases List.mem_cons.mp hx with rfl | hx
      · exact hab
      · exact le_trans hab (hb x hx)

/-- The best `n` after an insertion depend on the best `n` before. -/
theorem take_insertBy (key : α → κ) (a : α) (l : List α) (n : ℕ) :
    (insertBy key a l).take n = (insertBy key a (l.take n)).take n := by
  simp only [insertBy_eq]
  induction l generalizing n with
  | nil => simp
  | cons b l ih =>
    cases n with
    | zero => simp
    | succ n =>
      rw [List.take_succ_cons]
      -- the head decides on both sides alike
      by_cases hlt : key b < key a
      · simp only [List.takeWhile_cons_of_pos (p := fun b => decide (key b < key a)) (a := b)
          (by simpa using hlt), List.dropWhile_cons_of_pos (p := fun b => decide (key b < key a))
          (a := b) (by simpa using hlt), List.cons_append, List.take_succ_cons, ih n]
      · simp only [List.takeWhile_cons_of_neg (p := fun b => decide (key b < key a)) (a := b)
          (by simpa using hlt), List.dropWhile_cons_of_neg (p := fun b => decide (key b < key a))
          (a := b) (by simpa using hlt), List.nil_append, List.take_succ_cons]
        cases n with
        | zero => simp
        | succ n => simp [List.take_take]

/-- An element of a list whose elements are told apart by `f`, and the others. -/
theorem perm_cons_others {β : Type*} [DecidableEq β] {f : α → β} (hnd : (l.map f).Nodup)
    (ha : a ∈ l) : l.Perm (a :: l.filter fun x => f x ≠ f a) := by
  obtain ⟨l1, l2, rfl⟩ := List.append_of_mem ha
  rw [List.map_append, List.map_cons, List.nodup_middle, List.nodup_cons, ← List.map_append] at hnd
  have hself : (l1 ++ l2).filter (fun x => f x ≠ f a) = l1 ++ l2 := by
    rw [List.filter_eq_self]
    intro x hx
    have hne : f x ≠ f a := fun h => hnd.1 (h ▸ List.mem_map_of_mem hx)
    simpa using hne
  refine List.perm_middle.trans (List.Perm.cons a ?_)
  rw [List.filter_append, List.filter_cons_of_neg (by simp), ← List.filter_append, hself]

/-- What is left of the sorting behind an answer. -/
theorem IsTop.split (h : IsTop key n rows l) : ∃ r, (l ++ r).Perm rows ∧ SortedBy key (l ++ r) ∧
    l.length ≤ n ∧ (r = [] ∨ l.length = n) := by
  obtain ⟨s, hs, hsort, rfl⟩ := h
  refine ⟨s.drop n, by rwa [List.take_append_drop], by rwa [List.take_append_drop], by simp, ?_⟩
  rcases le_total s.length n with hle | hle
  · exact Or.inl (List.drop_of_length_le hle)
  · exact Or.inr (by rw [List.length_take]; omega)

/-- The front of a sorted list has the best elements, if it is long enough. -/
theorem isTop_of_split (rest : List α) (hs : (l ++ rest).Perm rows) (hsort : SortedBy key (l ++ rest))
    (hle : l.length ≤ n) (hrest : rest = [] ∨ l.length = n) : IsTop key n rows l := by
  refine ⟨l ++ rest, hs, hsort, ?_⟩
  rcases hrest with rfl | he
  · rw [List.append_nil, List.take_of_length_le hle]
  · rw [List.take_left' he]

/-- Inside an answer nothing is worse than a row outside. -/
theorem IsTop.le (h : IsTop key n rows l) (hrest : (l ++ rest).Perm rows) {x y : α} (hx : x ∈ l)
    (hy : y ∈ rest) : key x ≤ key y := by
  obtain ⟨r, hr, hsort, -⟩ := h.split
  have hperm : r.Perm rest := (List.perm_append_left_iff l).mp (hr.trans hrest.symm)
  exact (List.pairwise_append.mp hsort).2.2 x hx y (hperm.mem_iff.mpr hy)

/-- **A row that is put in** and cut off behind `n` gives the best `n` of the rows with it. -/
theorem IsTop.insert (h : IsTop key n rows l) (a : α) :
    IsTop key n (a :: rows) ((insertBy key a l).take n) := by
  obtain ⟨s, hs, hsort, rfl⟩ := h
  exact ⟨insertBy key a s, (insertBy_perm key a s).trans (hs.cons a), insertBy_sorted hsort a,
    (take_insertBy key a s n).symm⟩

/-- **One row outside the answer less.** -/
theorem IsTop.drop (h : IsTop key n rows l) (hrest : (l ++ rest).Perm rows)
    (hrows : rows.Perm (o :: rows')) (ho : o ∈ rest) : IsTop key n rows' l := by
  obtain ⟨r, hr, hsort, hle, hlen⟩ := h.split
  have hperm : r.Perm rest := (List.perm_append_left_iff l).mp (hr.trans hrest.symm)
  obtain ⟨r1, r2, rfl⟩ := List.append_of_mem (hperm.mem_iff.mpr ho)
  -- there is a row outside, so the answer is full
  have hn : l.length = n := by
    rcases hlen with he | he
    · simp at he
    · exact he
  refine isTop_of_split (r1 ++ r2) ?_ ?_ hle (Or.inr hn)
  · have hmid : (o :: (l ++ (r1 ++ r2))).Perm (o :: rows') := by
      refine List.Perm.trans ?_ (hr.trans hrows)
      rw [← List.append_assoc, ← List.append_assoc]
      exact List.perm_middle.symm
    exact hmid.cons_inv
  · refine hsort.sublist (List.Sublist.append_left ?_ l)
    exact List.Sublist.append_left (List.sublist_cons_self o r2) r1

/-- **One row of the answer for another.** -/
theorem IsTop.replace (h : IsTop key n rows (l1 ++ o :: l2))
    (hrest : (l1 ++ o :: l2 ++ rest).Perm rows) (hrows : rows.Perm (o :: rows')) (a : α) :
    IsTop key n (a :: rows') (insertBy key a (l1 ++ l2)) ↔ ∀ b ∈ rest, key a ≤ key b := by
  have hperm := insertBy_perm key a (l1 ++ l2)
  have hall : (insertBy key a (l1 ++ l2) ++ rest).Perm (a :: rows') := by
    refine (hperm.append_right rest).trans ?_
    rw [List.cons_append]
    refine List.Perm.cons a ?_
    have hmid : (o :: (l1 ++ l2 ++ rest)).Perm (o :: rows') := by
      refine List.Perm.trans ?_ (hrest.trans hrows)
      rw [List.append_assoc, List.append_assoc, List.cons_append]
      exact List.perm_middle.symm
    exact hmid.cons_inv
  constructor
  · intro ht b hb
    exact ht.le hall (hperm.mem_iff.mpr (List.mem_cons_self ..)) hb
  · intro hbest
    obtain ⟨r, hr, hsort, hle, hlen⟩ := h.split
    have hr' : r.Perm rest := (List.perm_append_left_iff _).mp (hr.trans hrest.symm)
    obtain ⟨hsl, hsr, hcross⟩ := List.pairwise_append.mp hsort
    -- the sorted rest stays behind the new answer
    have hsub : (l1 ++ l2).Sublist (l1 ++ o :: l2) :=
      List.Sublist.append_left (List.sublist_cons_self o l2) l1
    have hlen' : (insertBy key a (l1 ++ l2)).length = (l1 ++ o :: l2).length := by
      rw [hperm.length_eq]; simp; omega
    refine isTop_of_split r ((hr'.append_left _).trans hall) ?_ (hlen' ▸ hle) (hlen' ▸ hlen)
    refine List.pairwise_append.mpr ⟨insertBy_sorted (List.Pairwise.sublist hsub hsl) a, hsr, ?_⟩
    intro x hx y hy
    rcases List.mem_cons.mp (hperm.mem_iff.mp hx) with rfl | hx
    · exact hbest y (hr'.mem_iff.mp hy)
    · exact hcross x (hsub.subset hx) y hy

end Lib
