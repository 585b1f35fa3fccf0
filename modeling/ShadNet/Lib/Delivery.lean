import Mathlib.Data.List.Nodup

/-!
# Deliveries

A list of names is gone through, and for each name that is found something is sent to an address.

* `sent_once`: where names have different addresses and none is repeated, an address gets one thing.
-/

namespace Lib

variable {ν α κ : Type*} [DecidableEq κ] {send : ν → Option α} {addr : α → κ} {l : List ν} {x : ν}
  {d : α}

/-- Where no other delivery has the address, nothing more arrives there. -/
theorem sent_nothing (h : ∀ y ∈ l, ∀ d', send y = some d' → addr d' ≠ addr d) :
    ((l.filterMap send).filter fun d' => addr d' = addr d) = [] := by
  rw [List.filter_eq_nil_iff]
  intro d' hd'
  obtain ⟨y, hy, hsend⟩ := List.mem_filterMap.mp hd'
  simpa using h y hy d' hsend

/-- **One delivery to each address.** -/
theorem sent_once (hl : l.Nodup) (hx : x ∈ l) (hsend : send x = some d)
    (haddr : ∀ y ∈ l, ∀ d', send y = some d' → addr d' = addr d → y = x) :
    ((l.filterMap send).filter fun d' => addr d' = addr d) = [d] := by
  induction l with
  | nil => cases hx
  | cons y l ih =>
    obtain ⟨hy, hl⟩ := List.nodup_cons.mp hl
    have hrest := fun z (hz : z ∈ l) => haddr z (List.mem_cons_of_mem _ hz)
    by_cases heq : y = x
    · -- this is the name, and it does not come again
      subst heq
      have hnone : ((l.filterMap send).filter fun d' => addr d' = addr d) = [] := by
        refine sent_nothing fun z hz d' hd' heq => hy ?_
        rwa [← hrest z hz d' hd' heq]
      rw [List.filterMap_cons_some hsend, List.filter_cons, if_pos (by simp), hnone]
    · have hx : x ∈ l := List.mem_of_ne_of_mem (Ne.symm heq) hx
      cases hd : send y with
      | none =>
        rw [List.filterMap_cons_none hd]
        exact ih hl hx hrest
      | some d' =>
        have hne : addr d' ≠ addr d := fun h => heq (haddr y List.mem_cons_self d' hd h)
        rw [List.filterMap_cons_some hd, List.filter_cons, if_neg (by simpa using hne)]
        exact ih hl hx hrest

end Lib
