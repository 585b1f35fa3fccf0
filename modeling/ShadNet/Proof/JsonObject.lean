import Mathlib.Data.List.Induction
import ShadNet.Spec.SessionViews

/-!
# Members of JSON objects

* `JsonObject.mem_ofFields`: an object made of fields has those of them that are wanted.
* `JsonObject.value_ofFields`: under each key it has the last of these.
-/

namespace ShadNet

theorem JsonObject.value_cons (o : JsonObject) (key k : String) (v : Json) :
    JsonObject.value ((key, v) :: o) k = if k = key then some v else o.value k := by
  unfold JsonObject.value
  rw [List.lookup_cons]
  by_cases h : k = key
  · rw [if_pos h, beq_iff_eq.mpr h]
  · rw [if_neg h, beq_eq_false_iff_ne.mpr h]

/-- A member that was put in is read back, and no other has changed. -/
theorem JsonObject.value_insert (o : JsonObject) (key k : String) (v : Json) :
    (o.insert key v).value k = if k = key then some v else o.value k := by
  induction o with
  | nil => exact JsonObject.value_cons [] key k v
  | cons e o ih =>
    obtain ⟨l, u⟩ := e
    unfold JsonObject.insert
    by_cases hlt : key < l
    · rw [if_pos hlt, JsonObject.value_cons]
    · rw [if_neg hlt]
      by_cases heq : key = l
      · rw [if_pos heq, JsonObject.value_cons, JsonObject.value_cons, heq]
        by_cases hk : k = l <;> simp [hk]
      · rw [if_neg heq, JsonObject.value_cons, JsonObject.value_cons, ih]
        by_cases hk : k = key
        · simp [hk, heq]
        · simp [hk]

/-- A member is the one that was put in, or was there before. -/
theorem JsonObject.mem_insert {o : JsonObject} {key : String} {value : Json} {m : String × Json}
    (h : m ∈ o.insert key value) : m = (key, value) ∨ m ∈ o := by
  induction o with
  | nil => exact Or.inl (List.mem_singleton.mp h)
  | cons e o ih =>
    obtain ⟨k, w⟩ := e
    unfold JsonObject.insert at h
    split at h
    · exact List.mem_cons.mp h
    · split at h
      · exact (List.mem_cons.mp h).imp_right (List.mem_cons_of_mem _)
      · rcases List.mem_cons.mp h with rfl | hm
        · exact Or.inr List.mem_cons_self
        · exact (ih hm).imp_right (List.mem_cons_of_mem _)

/-- The members of an object are those of its fields that are wanted. -/
theorem JsonObject.mem_ofFields {fields : List (Bool × String × Json)} {m : String × Json}
    (h : m ∈ JsonObject.ofFields fields) : (true, m) ∈ fields := by
  induction fields using List.reverseRecOn with
  | nil => cases h
  | append_singleton l f ih =>
    unfold JsonObject.ofFields at h ih
    rw [List.foldl_append, List.foldl_cons, List.foldl_nil] at h
    obtain ⟨wanted, key, value⟩ := f
    cases wanted with
    | false => exact List.mem_append_left _ (ih h)
    | true =>
      rcases JsonObject.mem_insert h with rfl | hm
      · exact List.mem_append_right _ (List.mem_singleton.mpr rfl)
      · exact List.mem_append_left _ (ih hm)

/-- A field has the value that it was last given. -/
theorem JsonObject.value_ofFields (l : List (Bool × String × Json)) (k : String) :
    (JsonObject.ofFields l).value k =
      (l.reverse.find? fun f => f.1 && decide (f.2.1 = k)).map (·.2.2) := by
  induction l using List.reverseRecOn with
  | nil => rfl
  | append_singleton l f ih =>
    rw [List.reverse_append, List.reverse_singleton, List.singleton_append, List.find?_cons]
    unfold JsonObject.ofFields at ih ⊢
    rw [List.foldl_append, List.foldl_cons, List.foldl_nil]
    cases hf : f.1 with
    | false => simpa using ih
    | true =>
      rw [if_pos rfl, JsonObject.value_insert, ih]
      by_cases hk : f.2.1 = k
      · simp [hk]
      · simp [hk, Ne.symm hk]

end ShadNet
