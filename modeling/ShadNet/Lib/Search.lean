import Mathlib.Data.List.Infix
import Mathlib.Data.Nat.Find

/-!
# Searching a list

Where a pattern occurs in a list, and what the first occurrence says of the elements before it.

* `indexOfFrom_eq_some_iff`, `indexOfFrom_eq_none_iff`: the search finds the first occurrence.
* `FirstAt.unique`, `FirstAt.not_infix`: there is one first occurrence, and none within the
  elements before it.
* `FirstAt.behind`: the first occurrence behind elements without one and a separator that the pattern
  shares no element with.
* `Pieces`: lists that lie one behind the other in a list.
-/

namespace Lib

variable {α : Type*} {pat l l' : List α} {i j k : ℕ}

/-! ## Occurrences -/

/-- The pattern starts at position `j`. -/
def OccursAt (pat l : List α) (j : ℕ) : Prop := pat <+: l.drop j

/-- The first occurrence that does not start before `i`. -/
structure FirstAt (pat l : List α) (i j : ℕ) : Prop where
  le : i ≤ j
  occurs : OccursAt pat l j
  first : ∀ k, i ≤ k → k < j → ¬ OccursAt pat l k

theorem OccursAt.le_length (h : OccursAt pat l j) (hpat : pat ≠ []) : j + pat.length ≤ l.length := by
  have hlen : pat.length ≤ (l.drop j).length := List.IsPrefix.length_le h
  have hpos := List.length_pos_of_ne_nil hpat
  rw [List.length_drop] at hlen
  omega

/-- An occurrence behind the front, counted from there or from the start. -/
theorem occursAt_drop : OccursAt pat (l.drop i) j ↔ OccursAt pat l (i + j) := by
  unfold OccursAt
  rw [List.drop_drop]

theorem occursAt_append_length (pre pat post : List α) : OccursAt pat (pre ++ pat ++ post) pre.length := by
  unfold OccursAt
  rw [List.append_assoc, List.drop_left]
  exact List.prefix_append _ _

/-- The elements of an occurrence. -/
theorem OccursAt.getElem? (h : OccursAt pat l j) (hk : k < pat.length) : l[j + k]? = pat[k]? := by
  obtain ⟨rest, hrest⟩ := h
  rw [← List.getElem?_drop, ← hrest, List.getElem?_append_left hk]

/-- An occurrence that ends within a prefix of the list. -/
theorem OccursAt.infix_of_append (h : OccursAt pat (l ++ l') j) (hend : j + pat.length ≤ l.length) :
    pat <:+: l := by
  have hpre : pat <+: l.drop j := by
    unfold OccursAt at h
    rw [List.drop_append_of_le_length (by omega)] at h
    refine List.prefix_of_prefix_length_le h (List.prefix_append _ _) ?_
    rw [List.length_drop]
    omega
  exact hpre.isInfix.trans (List.drop_suffix j l).isInfix

/-- What is part of a list occurs in it. -/
theorem exists_occursAt_of_infix (h : pat <:+: l) : ∃ j, j + pat.length ≤ l.length ∧ OccursAt pat l j := by
  obtain ⟨pre, post, rfl⟩ := h
  refine ⟨pre.length, ?_, occursAt_append_length pre pat post⟩
  simp only [List.length_append]
  omega

/-- A prefix of the list that ends with the pattern. -/
theorem suffix_take_iff {n : ℕ} (hn : n ≤ l.length) :
    pat <:+ l.take n ↔ pat.length ≤ n ∧ OccursAt pat l (n - pat.length) := by
  have hlen : (l.take n).length = n := List.length_take_of_le hn
  rw [List.suffix_iff_eq_drop, hlen]
  constructor
  · intro h
    have hle : pat.length ≤ n := by
      have := congrArg List.length h
      rw [List.length_drop, hlen] at this
      omega
    refine ⟨hle, ?_⟩
    unfold OccursAt
    rw [h, List.length_drop, hlen, Nat.sub_sub_self (Nat.sub_le n pat.length)]
    exact (List.take_prefix n l).drop _
  · rintro ⟨hle, hoccurs⟩
    have htake := List.prefix_iff_eq_take.mp hoccurs
    rw [List.drop_take, Nat.sub_sub_self hle]
    exact htake

theorem OccursAt.suffix_take (h : OccursAt pat l j) (hpat : pat ≠ []) : pat <:+ l.take (j + pat.length) := by
  refine (suffix_take_iff (h.le_length hpat)).mpr ⟨Nat.le_add_left _ _, ?_⟩
  rwa [Nat.add_sub_cancel]

/-- One element occurs where it is. -/
theorem occursAt_singleton {a : α} : OccursAt [a] l j ↔ l[j]? = some a := by
  constructor
  · intro h
    have hget := h.getElem? (k := 0) (by simp)
    simpa using hget
  · intro h
    obtain ⟨hj, heq⟩ := List.getElem?_eq_some_iff.mp h
    unfold OccursAt
    rw [List.drop_eq_getElem_cons hj, heq]
    exact ⟨_, rfl⟩

namespace FirstAt

/-- There is only one first occurrence. -/
theorem unique (h : FirstAt pat l i j) (h' : FirstAt pat l i k) : j = k := by
  rcases Nat.lt_trichotomy j k with hlt | heq | hgt
  · exact absurd h.occurs (h'.first j h.le hlt)
  · exact heq
  · exact absurd h'.occurs (h.first k h'.le hgt)

/-- Nothing between the start of the search and the first occurrence contains the pattern. -/
theorem not_infix (h : FirstAt pat l i j) (hj : j ≤ l.length) (hpat : pat ≠ []) {d : List α}
    (hd : d <:+: (l.take j).drop i) : ¬ pat <:+: d := by
  intro hoccur
  obtain ⟨k, hk, hoccurs⟩ := exists_occursAt_of_infix (hoccur.trans hd)
  have hpos := List.length_pos_of_ne_nil hpat
  simp only [List.length_drop, List.length_take] at hk
  refine h.first (i + k) (by omega) (by omega) ?_
  have hin : OccursAt pat (l.take j) (i + k) := occursAt_drop.mp hoccurs
  exact hin.trans ((List.take_prefix j l).drop _)

/-- **Behind a separator.** The pattern is not in `l` and has no element of the separator. -/
theorem behind {sep rest : List α} (hpat : pat ≠ []) (hsep : sep ≠ []) (hno : ¬ pat <:+: l)
    (hdisj : ∀ a ∈ sep, a ∉ pat) : FirstAt pat (l ++ sep ++ (pat ++ rest)) 0 (l ++ sep).length := by
  refine ⟨Nat.zero_le _, ?_, ?_⟩
  · rw [← List.append_assoc]
    exact occursAt_append_length _ _ _
  · intro k _ hk hoccurs
    by_cases hend : k + pat.length ≤ l.length
    · rw [List.append_assoc] at hoccurs
      exact hno (hoccurs.infix_of_append hend)
    · -- the occurrence reaches into the separator, or starts in it
      have hpos := List.length_pos_of_ne_nil hpat
      have hseppos := List.length_pos_of_ne_nil hsep
      rw [List.length_append] at hk
      have hin : max k l.length - l.length < sep.length := by omega
      have hget := hoccurs.getElem? (k := max k l.length - k) (by omega)
      have hsepget : (l ++ sep ++ (pat ++ rest))[k + (max k l.length - k)]? =
          sep[max k l.length - l.length]? := by
        rw [List.append_assoc, List.getElem?_append_right (by omega),
          List.getElem?_append_left (by omega)]
        congr 1
        omega
      rw [hsepget, List.getElem?_eq_getElem hin, List.getElem?_eq_getElem (by omega)] at hget
      refine hdisj _ (List.getElem_mem hin) ?_
      rw [Option.some.inj hget]
      exact List.getElem_mem _

/-- A search that starts behind a prefix. -/
theorem append_left (pre : List α) (h : FirstAt pat l i j) :
    FirstAt pat (pre ++ l) (pre.length + i) (pre.length + j) := by
  have hdrop : ∀ k, OccursAt pat (pre ++ l) (pre.length + k) ↔ OccursAt pat l k := by
    intro k
    unfold OccursAt
    rw [List.drop_length_add_append]
  refine ⟨Nat.add_le_add_left h.le _, (hdrop j).mpr h.occurs, ?_⟩
  intro k hik hkj hoccurs
  obtain ⟨m, rfl⟩ := Nat.exists_eq_add_of_le (Nat.le_trans (Nat.le_add_right _ _) hik)
  exact h.first m (by omega) (by omega) ((hdrop m).mp hoccurs)

end FirstAt

/-- Where nothing occurs at the front, the first occurrence is that of the rest. -/
theorem firstAt_cons {a : α} (h : ¬ OccursAt pat (a :: l) 0) :
    FirstAt pat (a :: l) 0 (j + 1) ↔ FirstAt pat l 0 j := by
  constructor
  · intro hf
    exact ⟨Nat.zero_le j, hf.occurs, fun k _ hk => hf.first (k + 1) (Nat.zero_le _) (by omega)⟩
  · intro hf
    refine ⟨Nat.zero_le _, hf.occurs, ?_⟩
    intro k _ hk
    cases k with
    | zero => exact h
    | succ k => exact hf.first k (Nat.zero_le k) (by omega)

/-- Behind elements that the pattern does not start with. -/
theorem FirstAt.append_of_not_mem {a : α} {pre : List α} (h : FirstAt (a :: pat) l 0 j) (ha : a ∉ pre) :
    FirstAt (a :: pat) (pre ++ l) 0 (pre.length + j) := by
  induction pre with
  | nil => simpa using h
  | cons b pre ih =>
    obtain ⟨hb, hpre⟩ := not_or.mp (List.mem_cons.not.mp ha)
    have hno : ¬ OccursAt (a :: pat) (b :: (pre ++ l)) 0 := fun hoccurs =>
      hb (List.cons_prefix_cons.mp hoccurs).1
    have hlen : (b :: pre).length + j = pre.length + j + 1 := by
      rw [List.length_cons]
      omega
    rw [hlen, List.cons_append]
    exact (firstAt_cons hno).mpr (ih hpre)

/-- What a list starts with occurs at once. -/
theorem firstAt_append_self (pat l : List α) : FirstAt pat (pat ++ l) 0 0 :=
  ⟨le_rfl, List.prefix_append _ _, fun k _ hk => absurd hk (Nat.not_lt_zero k)⟩

theorem firstAt_drop : FirstAt pat (l.drop i) 0 j ↔ FirstAt pat l i (i + j) := by
  constructor
  · intro h
    refine ⟨Nat.le_add_right i j, occursAt_drop.mp h.occurs, ?_⟩
    intro k hik hkj hoccurs
    obtain ⟨m, rfl⟩ := Nat.exists_eq_add_of_le hik
    exact h.first m (Nat.zero_le m) (by omega) (occursAt_drop.mpr hoccurs)
  · intro h
    refine ⟨Nat.zero_le j, occursAt_drop.mpr h.occurs, ?_⟩
    intro k _ hkj hoccurs
    exact h.first (i + k) (Nat.le_add_right i k) (by omega) (occursAt_drop.mp hoccurs)

/-! ## The search -/

section search

variable [DecidableEq α]

/-- The first occurrence of a pattern. -/
def indexOf (pat : List α) : List α → Option ℕ
  | [] => if pat = [] then some 0 else none
  | a :: l => if pat.isPrefixOf (a :: l) then some 0 else (indexOf pat l).map (· + 1)

/-- The first occurrence at position `i` or behind. -/
def indexOfFrom (pat l : List α) (i : ℕ) : Option ℕ := (indexOf pat (l.drop i)).map (i + ·)

theorem occursAt_zero : OccursAt pat l 0 ↔ pat.isPrefixOf l = true := List.isPrefixOf_iff_prefix.symm

/-- `indexOf` finds the first occurrence. -/
theorem indexOf_eq_some_iff : indexOf pat l = some j ↔ FirstAt pat l 0 j ∧ j ≤ l.length := by
  induction l generalizing j with
  | nil =>
    by_cases hpat : pat = []
    · subst hpat
      constructor
      · intro h
        obtain rfl := Option.some.inj h
        exact ⟨⟨le_rfl, List.nil_prefix, fun k _ hk => absurd hk (Nat.not_lt_zero k)⟩, le_rfl⟩
      · rintro ⟨-, hj⟩
        obtain rfl := Nat.le_zero.mp hj
        rfl
    · constructor
      · intro h
        rw [indexOf, if_neg hpat] at h
        cases h
      · rintro ⟨h, -⟩
        exact absurd (List.prefix_nil.mp (by simpa [OccursAt] using h.occurs)) hpat
  | cons a l ih =>
    unfold indexOf
    by_cases hzero : pat.isPrefixOf (a :: l) = true
    · have hoccurs := occursAt_zero.mpr hzero
      have hfirst : FirstAt pat (a :: l) 0 0 := ⟨le_rfl, hoccurs, fun k _ hk => absurd hk (Nat.not_lt_zero k)⟩
      rw [if_pos hzero, Option.some.injEq]
      constructor
      · rintro rfl
        exact ⟨hfirst, Nat.zero_le _⟩
      · rintro ⟨h, -⟩
        exact hfirst.unique h
    · have hno : ¬ OccursAt pat (a :: l) 0 := fun h => hzero (occursAt_zero.mp h)
      rw [if_neg hzero, Option.map_eq_some_iff]
      constructor
      · rintro ⟨k, hk, rfl⟩
        obtain ⟨hf, hle⟩ := ih.mp hk
        exact ⟨(firstAt_cons hno).mpr hf, Nat.succ_le_succ hle⟩
      · rintro ⟨hf, hle⟩
        cases j with
        | zero => exact absurd hf.occurs hno
        | succ j => exact ⟨j, ih.mpr ⟨(firstAt_cons hno).mp hf, Nat.le_of_succ_le_succ hle⟩, rfl⟩

/-- **The search finds the first occurrence.** -/
theorem indexOfFrom_eq_some_iff (hpat : pat ≠ []) : indexOfFrom pat l i = some j ↔ FirstAt pat l i j := by
  unfold indexOfFrom
  rw [Option.map_eq_some_iff]
  constructor
  · rintro ⟨k, hk, rfl⟩
    exact firstAt_drop.mp (indexOf_eq_some_iff.mp hk).1
  · intro h
    obtain ⟨k, rfl⟩ := Nat.exists_eq_add_of_le h.le
    have hlen := h.occurs.le_length hpat
    refine ⟨k, indexOf_eq_some_iff.mpr ⟨firstAt_drop.mpr h, ?_⟩, rfl⟩
    rw [List.length_drop]
    omega

/-- **The search gives up** if and only if the pattern does not occur from `i` on. -/
theorem indexOfFrom_eq_none_iff (hpat : pat ≠ []) :
    indexOfFrom pat l i = none ↔ ∀ j, i ≤ j → ¬ OccursAt pat l j := by
  constructor
  · intro hnone j hij hoccurs
    -- the least of the occurrences would have been found
    classical
    have hex : ∃ k, i ≤ k ∧ OccursAt pat l k := ⟨j, hij, hoccurs⟩
    have hfirst : FirstAt pat l i (Nat.find hex) :=
      ⟨(Nat.find_spec hex).1, (Nat.find_spec hex).2, fun k hik hk hk' => Nat.find_min hex hk ⟨hik, hk'⟩⟩
    rw [(indexOfFrom_eq_some_iff hpat).mpr hfirst] at hnone
    cases hnone
  · intro h
    rw [Option.eq_none_iff_forall_ne_some]
    intro j hj
    have hf := (indexOfFrom_eq_some_iff hpat).mp hj
    exact h j hf.le hf.occurs

end search

/-! ## Pieces -/

/-- The pieces lie in the list one behind the other. -/
inductive Pieces : List (List α) → List α → Prop where
  | nil (l : List α) : Pieces [] l
  | cons (gap piece : List α) {pieces : List (List α)} {rest : List α} (h : Pieces pieces rest) :
      Pieces (piece :: pieces) (gap ++ piece ++ rest)

theorem Pieces.behind {pieces : List (List α)} (pre : List α) (h : Pieces pieces l) :
    Pieces pieces (pre ++ l) := by
  cases h with
  | nil => exact .nil _
  | cons gap piece h =>
    have hp := Pieces.cons (pre ++ gap) piece h
    simpa [List.append_assoc] using hp

theorem Pieces.before {pieces : List (List α)} (post : List α) (h : Pieces pieces l) :
    Pieces pieces (l ++ post) := by
  induction h with
  | nil l => exact .nil _
  | cons gap piece h ih =>
    have hp := Pieces.cons gap piece ih
    simpa [List.append_assoc] using hp

end Lib
