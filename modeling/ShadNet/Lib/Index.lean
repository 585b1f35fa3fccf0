import ShadNet.Lib.Table

/-!
# Secondary indices

Beside a table `t` stands an index `ix` of lists. `entry k v` says under what a row is listed,
and as what; `keyOf` finds the row again.

* `Indexed.insert`, `Indexed.erase`, `Indexed.update`: an index that follows the table stays exact.
* `Indexed.rows_perm`: then a lookup finds the rows that a scan of the table does.
-/

namespace Lib

variable {κ ν ι α : Type*} [DecidableEq κ] [DecidableEq ι]

/-- What is listed under `i`. -/
def Table.listAt (ix : Table ι (List α)) (i : ι) : List α := (ix.get? i).getD []

/-- Lists a row at its place in the index. -/
def Table.addTo (ix : Table ι (List α)) : Option (ι × α) → Table ι (List α)
  | none => ix
  | some (i, a) => ix.set i (ix.listAt i ++ [a])

/-- Takes a row off the list at its place. -/
def Table.removeFrom [DecidableEq α] (ix : Table ι (List α)) : Option (ι × α) → Table ι (List α)
  | none => ix
  | some (i, a) => ix.set i ((ix.listAt i).filter (· ≠ a))

/-- A list that is set is read back, and no other has changed. -/
theorem Table.listAt_set (ix : Table ι (List α)) (i j : ι) (l : List α) :
    (ix.set i l).listAt j = if j = i then l else ix.listAt j := by
  unfold Table.listAt
  rw [Table.get?_set]
  split <;> rfl

/-- Every row is listed once where it belongs, and nothing else is listed. -/
structure Indexed (entry : κ → ν → Option (ι × α)) (t : Table κ ν) (ix : Table ι (List α)) :
    Prop where
  nodup : ∀ i, (ix.listAt i).Nodup
  mem : ∀ i a, a ∈ ix.listAt i ↔ ∃ k v, t.get? k = some v ∧ entry k v = some (i, a)

/-- An entry gives the key of its row. -/
structure Keyed (entry : κ → ν → Option (ι × α)) (keyOf : ι → α → κ) : Prop where
  key : ∀ {k v i a}, entry k v = some (i, a) → k = keyOf i a
  inj : ∀ {i a a'}, keyOf i a = keyOf i a' → a = a'

variable {entry : κ → ν → Option (ι × α)} {keyOf : ι → α → κ} {t : Table κ ν}
  {ix : Table ι (List α)} {k : κ} {v v' : ν}

theorem Indexed.empty : Indexed entry (∅ : Table κ ν) (∅ : Table ι (List α)) := by
  constructor
  · intro i
    exact List.nodup_nil
  · intro i a
    constructor
    · intro h
      cases h
    · rintro ⟨k, v, hk, -⟩
      cases hk

/-- An index stays right when a new row is put in and listed. -/
theorem Indexed.insert (h : Indexed entry t ix) (hkey : Keyed entry keyOf)
    (hnew : t.get? k = none) : Indexed entry (t.set k v) (ix.addTo (entry k v)) := by
  -- the rows that were listed are the others
  have hold : ∀ i a, a ∈ ix.listAt i ↔
      ∃ k' v', k' ≠ k ∧ (t.set k v).get? k' = some v' ∧ entry k' v' = some (i, a) := by
    intro i a
    rw [h.mem]
    constructor
    · rintro ⟨k', v', hk', he⟩
      have hne : k' ≠ k := by
        rintro rfl
        rw [hnew] at hk'
        cases hk'
      exact ⟨k', v', hne, by rwa [Table.get?_set_ne hne], he⟩
    · rintro ⟨k', v', hne, hk', he⟩
      exact ⟨k', v', by rwa [Table.get?_set_ne hne] at hk', he⟩
  cases hentry : entry k v with
  | none =>
    refine ⟨h.nodup, fun i a => (hold i a).trans ⟨?_, ?_⟩⟩
    · rintro ⟨k', v', -, hk', he⟩
      exact ⟨k', v', hk', he⟩
    · rintro ⟨k', v', hk', he⟩
      refine ⟨k', v', ?_, hk', he⟩
      rintro rfl
      rw [Table.get?_set_self] at hk'
      rw [← Option.some.inj hk', hentry] at he
      cases he
  | some p =>
    obtain ⟨i0, a0⟩ := p
    have hmem0 : a0 ∉ ix.listAt i0 := by
      intro hmem
      obtain ⟨k', v', hne, -, he⟩ := (hold i0 a0).mp hmem
      exact hne ((hkey.key he).trans (hkey.key hentry).symm)
    constructor
    · intro i
      simp only [Table.addTo]
      rw [Table.listAt_set]
      split
      · rw [List.nodup_append]
        exact ⟨h.nodup i0, List.nodup_singleton a0,
          fun a ha b hb heq => hmem0 (by rwa [← List.mem_singleton.mp hb, ← heq])⟩
      · exact h.nodup i
    · intro i a
      have hmem : a ∈ (ix.addTo (some (i0, a0))).listAt i ↔
          (i, a) = (i0, a0) ∨ a ∈ ix.listAt i := by
        simp only [Table.addTo]
        rw [Table.listAt_set]
        by_cases hi : i = i0
        · subst hi
          simp [or_comm]
        · simp [hi]
      rw [hmem, hold]
      constructor
      · rintro (heq | ⟨k', v', -, hk', he⟩)
        · exact ⟨k, v, Table.get?_set_self, hentry.trans (congrArg some heq.symm)⟩
        · exact ⟨k', v', hk', he⟩
      · rintro ⟨k', v', hk', he⟩
        rcases Table.of_get?_set hk' with ⟨rfl, rfl⟩ | ⟨hne, -⟩
        · exact Or.inl (Option.some.inj (he.symm.trans hentry))
        · exact Or.inr ⟨k', v', hne, hk', he⟩

/-- An index stays right when a row is taken out and off its list. -/
theorem Indexed.erase [DecidableEq α] (h : Indexed entry t ix) (hkey : Keyed entry keyOf)
    (hrow : t.get? k = some v) : Indexed entry (t.del k) (ix.removeFrom (entry k v)) := by
  have hmem : ∀ i a, a ∈ (ix.removeFrom (entry k v)).listAt i ↔
      entry k v ≠ some (i, a) ∧ a ∈ ix.listAt i := by
    intro i a
    cases hentry : entry k v with
    | none => simp [Table.removeFrom]
    | some p =>
      obtain ⟨i0, a0⟩ := p
      simp only [Table.removeFrom]
      rw [Table.listAt_set]
      rw [ne_eq, Option.some.injEq, Prod.mk.injEq]
      by_cases hi : i = i0
      · subst hi
        rw [if_pos rfl, List.mem_filter, decide_eq_true_iff, and_comm, and_iff_right rfl, ne_comm]
      · rw [if_neg hi, and_iff_right fun heq => hi heq.1.symm]
  constructor
  · intro i
    cases hentry : entry k v with
    | none => exact h.nodup i
    | some p =>
      obtain ⟨i0, a0⟩ := p
      simp only [Table.removeFrom]
      rw [Table.listAt_set]
      split
      · exact (h.nodup i0).filter _
      · exact h.nodup i
  · intro i a
    rw [hmem, h.mem]
    constructor
    · rintro ⟨hne, k', v', hk', he⟩
      refine ⟨k', v', ?_, he⟩
      rw [Table.get?_del, if_neg]
      · exact hk'
      · rintro rfl
        rw [hrow] at hk'
        exact hne (Option.some.inj hk' ▸ he)
    · rintro ⟨k', v', hk', he⟩
      obtain ⟨hne, hold⟩ := Table.of_get?_del hk'
      exact ⟨fun hentry => hne ((hkey.key he).trans (hkey.key hentry).symm), k', v', hold, he⟩

/-- A row that changes but stays where it is listed. -/
theorem Indexed.update (h : Indexed entry t ix) (hrow : t.get? k = some v)
    (hentry : entry k v' = entry k v) : Indexed entry (t.set k v') ix := by
  refine ⟨h.nodup, fun i a => (h.mem i a).trans ⟨?_, ?_⟩⟩
  · rintro ⟨k', w, hk', he⟩
    by_cases hk : k' = k
    · subst hk
      rw [hrow] at hk'
      exact ⟨k', v', Table.get?_set_self, by rw [hentry, Option.some.inj hk', he]⟩
    · exact ⟨k', w, by rwa [Table.get?_set_ne hk], he⟩
  · rintro ⟨k', w, hk', he⟩
    rcases Table.of_get?_set hk' with ⟨rfl, rfl⟩ | ⟨-, hold⟩
    · exact ⟨k', v, hrow, by rwa [← hentry]⟩
    · exact ⟨k', w, hold, he⟩

/-- What is listed is found under its own key. -/
theorem Indexed.found (h : Indexed entry t ix) (hkey : Keyed entry keyOf) {i : ι} {a : α}
    (ha : a ∈ ix.listAt i) : ∃ v, t.get? (keyOf i a) = some v ∧ entry (keyOf i a) v = some (i, a) := by
  obtain ⟨k, v, hk, he⟩ := (h.mem i a).mp ha
  obtain rfl := hkey.key he
  exact ⟨v, hk, he⟩

/-- What is looked up by ids and knows its id has the ids that were asked for, in their order. -/
theorem ids_sublist {row : α → Option ν} {idOf : ν → α} (hrow : ∀ a v, row a = some v → idOf v = a)
    (ids : List α) : ((ids.filterMap row).map idOf).Sublist ids := by
  induction ids with
  | nil => exact List.Sublist.slnil
  | cons a ids ih =>
    cases hv : row a with
    | none =>
      rw [List.filterMap_cons_none hv]
      exact ih.cons a
    | some v =>
      rw [List.filterMap_cons_some hv, List.map_cons, hrow a v hv]
      exact ih.cons_cons a

/-- **A lookup finds what a scan finds.** -/
theorem Indexed.rows_perm (h : Indexed entry t ix) (hkey : Keyed entry keyOf) (o : Order κ) (i : ι) :
    ((ix.listAt i).filterMap fun a => t.get? (keyOf i a)).Perm
      (((t.inOrder o).filter fun e => (entry e.1 e.2).map Prod.fst = some i).map Prod.snd) := by
  -- with their keys the rows are the same, and each is there once
  have hrows : ((ix.listAt i).filterMap fun a => (t.get? (keyOf i a)).map (Prod.mk (keyOf i a))).Perm
      ((t.inOrder o).filter fun e => (entry e.1 e.2).map Prod.fst = some i) := by
    rw [List.perm_ext_iff_of_nodup]
    · rintro ⟨k, v⟩
      rw [List.mem_filterMap, List.mem_filter, Table.mem_inOrder, decide_eq_true_iff]
      constructor
      · rintro ⟨a, ha, hv⟩
        obtain ⟨v', hrow, he⟩ := h.found hkey ha
        obtain ⟨w, hw, heq⟩ := Option.map_eq_some_iff.mp hv
        obtain ⟨rfl, rfl⟩ := Prod.mk.inj heq
        obtain rfl := Option.some.inj (hrow.symm.trans hw)
        exact ⟨hw, by rw [he]; rfl⟩
      · rintro ⟨hrow, he⟩
        obtain ⟨⟨i', a⟩, hentry, rfl⟩ := Option.map_eq_some_iff.mp he
        obtain rfl := hkey.key hentry
        exact ⟨a, (h.mem i' a).mpr ⟨_, v, hrow, hentry⟩, by rw [hrow]; rfl⟩
    · refine (h.nodup i).filterMap ?_
      intro a a' e he he'
      obtain ⟨v, -, rfl⟩ := Option.map_eq_some_iff.mp he
      obtain ⟨v', -, heq⟩ := Option.map_eq_some_iff.mp he'
      exact (hkey.inj (Prod.mk.inj heq).1).symm
    · exact (Table.nodup_inOrder o t).filter _
  have hforget : ∀ a, ((t.get? (keyOf i a)).map (Prod.mk (keyOf i a))).map Prod.snd =
      t.get? (keyOf i a) := by
    intro a
    cases t.get? (keyOf i a) <;> rfl
  have hmap := hrows.map Prod.snd
  rw [List.map_filterMap] at hmap
  rwa [List.filterMap_congr fun a _ => hforget a] at hmap

end Lib
