import ShadNet.Lib.Table

/-!
# Tables that are kept by messages

Somebody cannot see a table and keeps one of his own, by what he is told of single keys: that a key is
there with a value, that a key he knows has another value, or that it is gone.

* `get?_foldl_hear`: what is known of a key after some messages.
* `foldl_apply_same`, `foldl_apply_fixed`: messages that all say the same, or nothing new.
* `Mirrors.hear_iff`: whether the two tables agree afterwards, key by key.
-/

namespace Lib

variable {κ ν : Type*}

/-- What is said of one key. -/
inductive Update (ν : Type*) where
  | put (v : ν)
  /-- of a key that is known -/
  | change (v : ν)
  | drop
deriving DecidableEq, Repr

/-- What is known of a key after an update. -/
def Update.apply : Update ν → Option ν → Option ν
  | .put v, _ => some v
  | .change v, old => old.map fun _ => v
  | .drop, _ => none

/-- Whoever hears the same twice knows no more than before. -/
theorem Update.apply_twice (u : Update ν) (old : Option ν) : u.apply (u.apply old) = u.apply old := by
  cases u <;> cases old <;> rfl

/-- Something that is said of a key. -/
structure Message (κ ν : Type*) where
  key : κ
  update : Update ν

variable [DecidableEq κ]

/-- The table of a listener after a message. -/
def Message.hear (t : Table κ ν) (m : Message κ ν) : Table κ ν :=
  match m.update with
  | .put v => t.set m.key v
  | .change v => t.modify m.key fun _ => v
  | .drop => t.del m.key

/-- What is said of a key. -/
def saidOf (k : κ) (l : List (Message κ ν)) : List (Update ν) :=
  (l.filter fun m => m.key = k).map Message.update

/-- A message is about one key. -/
theorem get?_hear (t : Table κ ν) (m : Message κ ν) (k : κ) :
    (m.hear t).get? k = if k = m.key then m.update.apply (t.get? k) else t.get? k := by
  unfold Message.hear
  cases m.update with
  | put v => exact Table.get?_set
  | change v =>
    rw [Table.get?_modify]
    split
    · rename_i heq
      rw [heq]
      rfl
    · rfl
  | drop => exact Table.get?_del

/-- What is known of a key depends on what is said of that key alone. -/
theorem get?_foldl_hear (l : List (Message κ ν)) (t : Table κ ν) (k : κ) :
    (l.foldl (fun t m => m.hear t) t).get? k =
      (saidOf k l).foldl (fun old u => u.apply old) (t.get? k) := by
  induction l generalizing t with
  | nil => rfl
  | cons m l ih =>
    rw [List.foldl_cons, ih, get?_hear]
    unfold saidOf
    by_cases hkey : m.key = k
    · rw [List.filter_cons_of_pos (by simpa using hkey), List.map_cons, List.foldl_cons, if_pos hkey.symm]
    · rw [List.filter_cons_of_neg (by simpa using hkey), if_neg fun h => hkey h.symm]

/-- Once is as good as many times. -/
theorem foldl_apply_same {u : Update ν} {l : List (Update ν)} (h : ∀ u' ∈ l, u' = u) (hne : l ≠ [])
    (old : Option ν) : l.foldl (fun old u => u.apply old) old = u.apply old := by
  induction l generalizing old with
  | nil => exact absurd rfl hne
  | cons u' l ih =>
    obtain rfl := h u' List.mem_cons_self
    rw [List.foldl_cons]
    by_cases hl : l = []
    · rw [hl]
      rfl
    · rw [ih (fun u hu => h u (List.mem_cons_of_mem _ hu)) hl, Update.apply_twice]

/-- Messages that say nothing new change nothing. -/
theorem foldl_apply_fixed {l : List (Update ν)} {old : Option ν} (h : ∀ u ∈ l, u.apply old = old) :
    l.foldl (fun old u => u.apply old) old = old := by
  induction l with
  | nil => rfl
  | cons u l ih =>
    rw [List.foldl_cons, h u List.mem_cons_self]
    exact ih fun u hu => h u (List.mem_cons_of_mem _ hu)

/-- A table that is known in all its entries. -/
def Mirrors (t : Table κ ν) (truth : κ → Option ν) : Prop := ∀ k, t.get? k = truth k

/-- **After some messages** the tables agree exactly when each key has been told of as it has changed. -/
theorem Mirrors.hear_iff {t : Table κ ν} {truth truth' : κ → Option ν} (h : Mirrors t truth)
    (l : List (Message κ ν)) : Mirrors (l.foldl (fun t m => m.hear t) t) truth' ↔
      ∀ k, (saidOf k l).foldl (fun old u => u.apply old) (truth k) = truth' k := by
  unfold Mirrors
  refine forall_congr' fun k => ?_
  rw [get?_foldl_hear, h k]

/-- Entries put in with values that depend on their keys alone. -/
theorem get?_foldl_set_of {α : Type*} (l : List α) {key : α → κ} {val : α → ν} (value : κ → ν)
    (hval : ∀ a ∈ l, val a = value (key a)) (t : Table κ ν) (k : κ) :
    (l.foldl (fun t a => t.set (key a) (val a)) t).get? k =
      if ∃ a ∈ l, key a = k then some (value k) else t.get? k := by
  induction l generalizing t with
  | nil => simp
  | cons a l ih =>
    rw [List.foldl_cons, ih fun b hb => hval b (List.mem_cons_of_mem _ hb), Table.get?_set,
      hval a List.mem_cons_self]
    by_cases hl : ∃ b ∈ l, key b = k
    · obtain ⟨b, hb, hkey⟩ := hl
      rw [if_pos ⟨b, hb, hkey⟩, if_pos ⟨b, List.mem_cons_of_mem _ hb, hkey⟩]
    · by_cases ha : k = key a
      · rw [if_neg hl, if_pos ha, if_pos ⟨a, List.mem_cons_self, ha.symm⟩, ha]
      · rw [if_neg hl, if_neg ha, if_neg]
        rintro ⟨b, hb, hkey⟩
        rcases List.mem_cons.mp hb with rfl | hb
        · exact ha hkey.symm
        · exact hl ⟨b, hb, hkey⟩

end Lib
