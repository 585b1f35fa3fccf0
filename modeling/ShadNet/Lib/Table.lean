import Mathlib.Data.List.AList
import Mathlib.Data.List.Sort

/-!
# Tables

Hash tables as association lists without repeated keys (`AList` of a constant family), with
the lookup laws of the operations:

* `get?_set`, `get?_del`, `get?_filterMap`; `of_get?_set` and `of_get?_del` say where an entry
  comes from.
* `get?_set_nested`, `get?_del_nested`: the same for a table of tables.
* `mem_inOrder`: an iteration visits the entries, in an order that is the table's own
  business (`Order`), and may begin with any of them (`inOrder_first`);
  `filterMap_iterate_congr`: or in an order that its keys alone decide.
* `size_set_of_none`, `size_set_of_some`, `size_del`: how many entries an operation leaves.
-/

namespace Lib

/-- A finite table from keys to values. -/
abbrev Table (κ ν : Type*) := AList fun _ : κ => ν

/-- The order a table is iterated in: any rearrangement of its keys. -/
structure Order (κ : Type*) where
  arrange : List κ → List κ
  perm : ∀ l, (arrange l).Perm l

/-- The order the keys are listed in. -/
def Order.listed {κ : Type*} : Order κ := ⟨id, fun l => List.Perm.refl l⟩

/-- An order that begins with `k`. -/
def Order.first {κ : Type*} [DecidableEq κ] (k : κ) : Order κ where
  arrange l := if k ∈ l then k :: l.erase k else l
  perm l := by
    by_cases h : k ∈ l
    · rw [if_pos h]
      exact (List.perm_cons_erase h).symm
    · rw [if_neg h]

namespace Table

variable {κ ν μ : Type*} [DecidableEq κ] {t : Table κ ν} {k k' : κ} {v v' : ν}

/-- The value under a key. -/
def get? (t : Table κ ν) (k : κ) : Option ν := AList.lookup k t

/-- A value is put under a key, in the place of what was there. -/
def set (t : Table κ ν) (k : κ) (v : ν) : Table κ ν := AList.insert k v t

/-- Takes the key out. -/
def del (t : Table κ ν) (k : κ) : Table κ ν := AList.erase k t

/-- Replaces the value of a key that is there. -/
def modify (t : Table κ ν) (k : κ) (f : ν → ν) : Table κ ν :=
  match t.get? k with
  | none => t
  | some v => t.set k (f v)

/-- The number of keys. -/
def size (t : Table κ ν) : ℕ := t.keys.length

/-- Rewrites every entry, and drops those for which `f` gives nothing. -/
def filterMap (f : κ → ν → Option μ) (t : Table κ ν) : Table κ μ where
  entries := t.entries.filterMap fun e => (f e.1 e.2).map (Sigma.mk e.1)
  nodupKeys := by
    have h := List.nodupKeys_iff_pairwise.mp t.nodupKeys
    rw [List.nodupKeys_iff_pairwise, List.pairwise_filterMap]
    -- an entry keeps its key
    refine h.imp ?_
    intro a b hab x hx y hy
    obtain ⟨_, -, rfl⟩ := Option.map_eq_some_iff.mp hx
    obtain ⟨_, -, rfl⟩ := Option.map_eq_some_iff.mp hy
    exact hab

/-- The entries in the order of an iteration. -/
def inOrder (o : Order κ) (t : Table κ ν) : List (κ × ν) :=
  (o.arrange t.keys).filterMap fun k => (t.get? k).map (Prod.mk k)

/-- The entries in an order that depends on the set of keys only. -/
def iterate [LinearOrder κ] (o : Order κ) (t : Table κ ν) : List (κ × ν) :=
  (o.arrange (t.keys.insertionSort (· ≤ ·))).filterMap fun k => (t.get? k).map (Prod.mk k)

@[simp] theorem get?_empty (k : κ) : (∅ : Table κ ν).get? k = none := rfl

theorem get?_eq_some_iff : t.get? k = some v ↔ Sigma.mk k v ∈ t.entries := AList.mem_lookup_iff

theorem get?_isSome : (t.get? k).isSome ↔ k ∈ t.keys := AList.lookup_isSome

theorem get?_eq_none : t.get? k = none ↔ k ∉ t.keys := AList.lookup_eq_none

@[simp] theorem get?_set_self : (t.set k v).get? k = some v := AList.lookup_insert t

theorem get?_set_ne (h : k' ≠ k) : (t.set k v).get? k' = t.get? k' := AList.lookup_insert_ne h

/-- One key has a new value, and the others keep theirs. -/
theorem get?_set : (t.set k v).get? k' = if k' = k then some v else t.get? k' := by
  by_cases h : k' = k
  · subst h; simp
  · rw [if_neg h, get?_set_ne h]

@[simp] theorem get?_del_self : (t.del k).get? k = none := AList.lookup_erase k t

theorem get?_del_ne (h : k' ≠ k) : (t.del k).get? k' = t.get? k' := AList.lookup_erase_ne h

/-- One key is gone, and the others keep their values. -/
theorem get?_del : (t.del k).get? k' = if k' = k then none else t.get? k' := by
  by_cases h : k' = k
  · subst h; simp
  · rw [if_neg h, get?_del_ne h]

/-- After an insertion an entry is the new one or an old one. -/
theorem of_get?_set (h : (t.set k v).get? k' = some v') :
    (k' = k ∧ v' = v) ∨ (k' ≠ k ∧ t.get? k' = some v') := by
  rw [get?_set] at h
  split at h
  · rename_i heq
    exact Or.inl ⟨heq, (Option.some.inj h).symm⟩
  · rename_i hne
    exact Or.inr ⟨hne, h⟩

/-- After a deletion it is an old one under another key. -/
theorem of_get?_del (h : (t.del k).get? k' = some v) : k' ≠ k ∧ t.get? k' = some v := by
  rw [get?_del] at h
  split at h
  · cases h
  · rename_i hne
    exact ⟨hne, h⟩

/-- There is nothing to change where there is no value. -/
theorem modify_of_none {f : ν → ν} (h : t.get? k = none) : t.modify k f = t := by
  unfold modify
  rw [h]

theorem modify_of_some {f : ν → ν} (h : t.get? k = some v) : t.modify k f = t.set k (f v) := by
  unfold modify
  rw [h]

/-- The value of one key is changed, if it has one. -/
theorem get?_modify {f : ν → ν} :
    (t.modify k f).get? k' = if k' = k then (t.get? k).map f else t.get? k' := by
  unfold modify
  cases h : t.get? k with
  | none =>
    by_cases hk : k' = k
    · subst hk; simp [h]
    · simp [hk]
  | some v => simp [get?_set]

/-- Each key has its own image, or is dropped. -/
theorem get?_filterMap (f : κ → ν → Option μ) :
    (t.filterMap f).get? k = (t.get? k).bind (f k) := by
  apply Option.ext
  intro m
  constructor
  · intro h
    obtain ⟨e, he, hm⟩ := List.mem_filterMap.mp (get?_eq_some_iff.mp h)
    obtain ⟨m', hm', heq⟩ := Option.map_eq_some_iff.mp hm
    cases e with
    | mk k0 v =>
      cases heq
      rw [get?_eq_some_iff.mpr he]
      exact hm'
  · intro h
    obtain ⟨v, hv, hm⟩ := Option.bind_eq_some_iff.mp h
    apply get?_eq_some_iff.mpr
    apply List.mem_filterMap.mpr
    exact ⟨⟨k, v⟩, get?_eq_some_iff.mp hv, by simp [hm]⟩

/-! ## Tables of tables -/

section nested

variable {κ' : Type*} [DecidableEq κ'] {tt : Table κ (Table κ' ν)} {j j' : κ'}

/-- A table put under `k`, which at `j` has `x` and is as the one before elsewhere. -/
theorem get?_set_table {t : Table κ' ν} {x : Option ν}
    (ht : ∀ j', t.get? j' = if j' = j then x else ((tt.get? k).getD ∅).get? j') :
    ((tt.set k t).get? k').bind (fun t => t.get? j') =
      if (k', j') = (k, j) then x else (tt.get? k').bind fun t => t.get? j' := by
  rw [get?_set]
  by_cases hk : k' = k
  · subst hk
    rw [if_pos rfl, Option.bind_some, ht]
    by_cases hj : j' = j
    · simp [hj]
    · rw [if_neg hj, if_neg (by simp [hj])]
      cases tt.get? k' <;> rfl
  · rw [if_neg hk, if_neg (by simp [hk])]

/-- An entry put into the table under `k`. -/
theorem get?_set_nested : ((tt.set k (((tt.get? k).getD ∅).set j v)).get? k').bind (fun t => t.get? j') =
    if (k', j') = (k, j) then some v else (tt.get? k').bind fun t => t.get? j' :=
  get?_set_table fun _ => get?_set

/-- A lookup in nested tables after one entry was taken out. -/
theorem get?_del_nested : ((tt.set k (((tt.get? k).getD ∅).del j)).get? k').bind (fun t => t.get? j') =
    if (k', j') = (k, j) then none else (tt.get? k').bind fun t => t.get? j' :=
  get?_set_table fun _ => get?_del

end nested

/-! ## Keys, iterations and sizes -/

/-- The keys are those that have values. -/
theorem mem_keys_iff : k ∈ t.keys ↔ ∃ v, t.get? k = some v := by
  rw [← get?_isSome, Option.isSome_iff_exists]

theorem mem_keys_set : k' ∈ (t.set k v).keys ↔ k' = k ∨ k' ∈ t.keys := AList.mem_insert t

theorem mem_keys_del : k' ∈ (t.del k).keys ↔ k' ≠ k ∧ k' ∈ t.keys := AList.mem_erase

/-- Entries that are put in one after the other are all there. -/
theorem mem_keys_foldl_set (l : List (κ × ν)) (t : Table κ ν) :
    k ∈ (l.foldl (fun t e => t.set e.1 e.2) t).keys ↔ k ∈ t.keys ∨ ∃ e ∈ l, e.1 = k := by
  induction l generalizing t with
  | nil => simp
  | cons e l ih =>
    rw [List.foldl_cons, ih, mem_keys_set, List.exists_mem_cons_iff]
    tauto

/-- After insertions, each under the key that `key` gives, an entry is an inserted or an old one. -/
theorem of_get?_foldl_set {key : ν → κ} {l : List ν} {t : Table κ ν}
    (h : (l.foldl (fun t v => t.set (key v) v) t).get? k = some v) : v ∈ l ∨ t.get? k = some v := by
  induction l generalizing t with
  | nil => exact Or.inr h
  | cons a l ih =>
    rcases ih h with hmem | hold
    · exact Or.inl (List.mem_cons_of_mem a hmem)
    · rcases of_get?_set hold with ⟨-, rfl⟩ | ⟨-, hold⟩
      · exact Or.inl List.mem_cons_self
      · exact Or.inr hold

/-- Where the insertions have different keys, an entry is one of them, or an old one under another key. -/
theorem get?_foldl_set_iff {α : Type*} {key : α → κ} {val : α → ν} {l : List α} {t : Table κ ν}
    (hnd : (l.map key).Nodup) :
    (l.foldl (fun t a => t.set (key a) (val a)) t).get? k = some v ↔
      (∃ a ∈ l, key a = k ∧ val a = v) ∨ (k ∉ l.map key ∧ t.get? k = some v) := by
  induction l generalizing t with
  | nil => simp
  | cons a l ih =>
    obtain ⟨ha, hnd⟩ := List.nodup_cons.mp hnd
    rw [List.foldl_cons, ih hnd, get?_set, List.map_cons, List.mem_cons, List.exists_mem_cons_iff]
    by_cases hk : k = key a
    · subst hk
      have hno : ¬ ∃ b ∈ l, key b = key a ∧ val b = v := by
        rintro ⟨b, hb, hba, -⟩
        exact ha (hba ▸ List.mem_map_of_mem hb)
      simp [hno, ha]
    · have hne : key a ≠ k := Ne.symm hk
      simp [hk, hne]

/-- Whatever the order, the entries are those of the table. -/
theorem mem_inOrder {o : Order κ} : (k, v) ∈ t.inOrder o ↔ t.get? k = some v := by
  unfold inOrder
  rw [List.mem_filterMap]
  constructor
  · rintro ⟨k0, -, h⟩
    obtain ⟨v0, hv, heq⟩ := Option.map_eq_some_iff.mp h
    cases heq
    exact hv
  · intro h
    refine ⟨k, (o.perm _).mem_iff.mpr (mem_keys_iff.mpr ⟨v, h⟩), by simp [h]⟩

/-- An iteration that begins with the entry of `k`. -/
theorem inOrder_first (h : t.get? k = some v) : ∃ l, t.inOrder (.first k) = (k, v) :: l := by
  have hmem : k ∈ t.keys := mem_keys_iff.mpr ⟨v, h⟩
  unfold inOrder
  simp only [Order.first]
  rw [if_pos hmem, List.filterMap_cons_some (by rw [h]; rfl)]
  exact ⟨_, rfl⟩

/-- No entry is enumerated twice. -/
theorem nodup_inOrder (o : Order κ) (t : Table κ ν) : (t.inOrder o).Nodup := by
  refine List.Nodup.filterMap ?_ ((o.perm _).nodup_iff.mpr t.keys_nodup)
  intro k k' e he he'
  obtain ⟨v, -, rfl⟩ := Option.map_eq_some_iff.mp he
  obtain ⟨v', -, heq⟩ := Option.map_eq_some_iff.mp he'
  exact (Prod.mk.inj heq).1.symm

/-- An iteration visits each key once. -/
theorem nodup_keys_inOrder (o : Order κ) (t : Table κ ν) : ((t.inOrder o).map Prod.fst).Nodup := by
  unfold inOrder
  rw [List.map_filterMap]
  refine List.Nodup.filterMap ?_ ((o.perm _).nodup_iff.mpr t.keys_nodup)
  intro k k' k0 hk hk'
  cases hv : t.get? k with
  | none => simp [hv] at hk
  | some v =>
    cases hv' : t.get? k' with
    | none => simp [hv'] at hk'
    | some v' =>
      simp only [hv, Option.map_some] at hk
      simp only [hv', Option.map_some] at hk'
      exact Option.some.inj (hk.trans hk'.symm)

/-- Two iterations differ in their order only. -/
theorem inOrder_perm (o o' : Order κ) (t : Table κ ν) : (t.inOrder o).Perm (t.inOrder o') :=
  List.Perm.filterMap _ ((o.perm _).trans (o'.perm _).symm)

theorem mem_iterate [LinearOrder κ] {o : Order κ} : (k, v) ∈ t.iterate o ↔ t.get? k = some v := by
  unfold iterate
  rw [List.mem_filterMap]
  constructor
  · rintro ⟨k0, -, h⟩
    obtain ⟨v0, hv, heq⟩ := Option.map_eq_some_iff.mp h
    cases heq
    exact hv
  · intro h
    have hmem : k ∈ t.keys.insertionSort (· ≤ ·) := by
      rw [List.mem_insertionSort]
      exact mem_keys_iff.mpr ⟨v, h⟩
    exact ⟨k, (o.perm _).mem_iff.mpr hmem, by simp [h]⟩

/-- Tables with the same keys are iterated alike. -/
theorem filterMap_iterate_congr [LinearOrder κ] {t' : Table κ ν} {μ : Type*} {f f' : κ × ν → Option μ}
    (o : Order κ) (hkeys : ∀ k, k ∈ t.keys ↔ k ∈ t'.keys)
    (h : ∀ k, (t.get? k).bind (fun v => f (k, v)) = (t'.get? k).bind fun v => f' (k, v)) :
    (t.iterate o).filterMap f = (t'.iterate o).filterMap f' := by
  have hperm : t.keys.Perm t'.keys :=
    (List.perm_ext_iff_of_nodup t.keys_nodup t'.keys_nodup).mpr hkeys
  have hsort : t.keys.insertionSort (· ≤ ·) = t'.keys.insertionSort (· ≤ ·) :=
    List.Perm.eq_of_pairwise' (List.pairwise_insertionSort _ _) (List.pairwise_insertionSort _ _)
      (((List.perm_insertionSort _ _).trans hperm).trans (List.perm_insertionSort _ _).symm)
  unfold iterate
  rw [List.filterMap_filterMap, List.filterMap_filterMap, hsort]
  refine List.filterMap_congr fun k _ => ?_
  rw [Option.bind_map, Option.bind_map]
  exact h k

/-- A new key makes the table one larger. -/
theorem size_set_of_none (h : t.get? k = none) : (t.set k v).size = t.size + 1 := by
  unfold size set
  rw [AList.keys_insert, List.erase_of_not_mem (get?_eq_none.mp h), List.length_cons]

/-- A key that is there does not make the table larger. -/
theorem size_set_of_some (h : t.get? k = some v') : (t.set k v).size = t.size := by
  have hk : k ∈ t.keys := mem_keys_iff.mpr ⟨v', h⟩
  have hpos := List.length_pos_of_mem hk
  unfold size set
  rw [AList.keys_insert, List.length_cons, List.length_erase_of_mem hk]
  omega

theorem size_modify {f : ν → ν} : (t.modify k f).size = t.size := by
  unfold modify
  cases h : t.get? k with
  | none => rfl
  | some v => exact size_set_of_some h

theorem del_of_none (h : t.get? k = none) : t.del k = t := by
  have hk : k ∉ t.keys := get?_eq_none.mp h
  exact AList.ext (List.kerase_of_notMem_keys hk)

theorem size_del_of_some (h : t.get? k = some v) : (t.del k).size = t.size - 1 := by
  unfold size del
  rw [AList.keys_erase, List.length_erase_of_mem (mem_keys_iff.mpr ⟨v, h⟩)]

/-- A key that goes makes the table one smaller. -/
theorem size_del : (t.del k).size = if (t.get? k).isSome then t.size - 1 else t.size := by
  cases h : t.get? k with
  | none => rw [del_of_none h]; rfl
  | some v => exact size_del_of_some h

theorem size_pos_of_some (h : t.get? k = some v) : 0 < t.size :=
  List.length_pos_of_mem (mem_keys_iff.mpr ⟨v, h⟩)

/-- A table that is not empty has an entry. -/
theorem exists_of_size_pos (h : 0 < t.size) : ∃ k v, t.get? k = some v := by
  obtain ⟨k, hk⟩ := List.exists_mem_of_length_pos h
  obtain ⟨v, hv⟩ := mem_keys_iff.mp hk
  exact ⟨k, v, hv⟩

end Table

end Lib
