import Mathlib
import ShadNet.Proof.SummonLifecycle

/-!
# Which record a claim is for

A claim that names a user should find that user's sign, if he has one that matches, and no
other's.

* `claimTarget_eq`: the record that a claim takes: the first of the session that it names, else
  the latest of the user's.
* `TargetOk`: the claim finds the named user and nobody else, in whatever order the records are
  gone through.
* `target_ok_iff`: it does exactly when nothing that he left behind, and nobody else under the
  session, stands before his sign.
-/

namespace ShadNet.SummonBroker

open Lib

variable {c : Config} {t : Records} {key : String} {r : Record} {request : JsonObject} {nowMs u : ℤ}
  {order : Order String}

/-- The record is of the user, and of the character if the request names one. -/
def namesUser (request : JsonObject) (u : ℤ) (r : Record) : Bool :=
  decide (integer r.advertisement "UserId" (-1) = u) &&
    (decide (request.value "TargetCharaId" = none) ||
      decide (request.value "TargetCharaId" = some .null) ||
      decide (r.advertisement.value "CharaId" = request.value "TargetCharaId"))

/-- The record is of the session that the request names. -/
def namesSession (request : JsonObject) (r : Record) : Bool :=
  decide (sessionIdOf request ≠ "") &&
    decide (sessionIdOf r.advertisement = sessionIdOf request)

/-- **The record a claim takes.** -/
theorem claimTarget_eq (hu : optionalInteger request "TargetUserId" = some u) :
    claimTarget order t request =
      ((t.inOrder order).find? fun e => namesSession request e.2).or
        (((t.inOrder order).filter fun e => namesUser request u e.2).argmax
          fun e => e.2.updatedAtMs) := by
  have hsession : (if sessionIdOf request = "" then none else (t.inOrder order).find? fun e =>
      decide (sessionIdOf e.2.advertisement = sessionIdOf request)) =
        (t.inOrder order).find? fun e => namesSession request e.2 := by
    by_cases hs : sessionIdOf request = ""
    · rw [if_pos hs, List.find?_eq_none.mpr (by simp [namesSession, hs])]
    · rw [if_neg hs]
      simp [namesSession, hs]
  simp only [claimTarget]
  rw [hsession, hu]
  cases (t.inOrder order).find? fun e => namesSession request e.2 with
  | some e => rfl
  | none =>
    simp only [List.argmax, Option.none_or]
    rw [List.foldl_filter]
    congr 1
    funext target e
    -- the source passes over a record that is not named
    by_cases huser : integer e.2.advertisement "UserId" (-1) = u
    · by_cases hchara : namesUser request u e.2 = true
      · have hno : ¬ (!(decide (request.value "TargetCharaId" = none) ||
            decide (request.value "TargetCharaId" = some .null)) &&
            decide (e.2.advertisement.value "CharaId" ≠ request.value "TargetCharaId")) = true := by
          simp only [namesUser, huser, decide_true, Bool.true_and] at hchara
          simp only [Bool.and_eq_true, Bool.not_eq_true', decide_eq_true_eq, not_and_or]
          grind
        rw [if_neg (not_not.mpr huser), if_neg hno, if_pos hchara]
        cases target <;> rfl
      · have hyes : (!(decide (request.value "TargetCharaId" = none) ||
            decide (request.value "TargetCharaId" = some .null)) &&
            decide (e.2.advertisement.value "CharaId" ≠ request.value "TargetCharaId")) = true := by
          simp only [namesUser, huser, decide_true, Bool.true_and] at hchara
          grind
        rw [if_neg (not_not.mpr huser), if_pos hyes, if_neg hchara]
    · rw [if_pos huser, if_neg (by simp [namesUser, huser])]

/-- What the claim answers about the record that it takes. -/
theorem claim_answer (order : Order String) (t : Records) (request : JsonObject)
    (rawRequest : List UInt8) (nowMs : ℤ) (hostPlacement : List UInt8) :
    (claim c order t request rawRequest nowMs hostPlacement).2 =
      match claimTarget order (purgeExpired c nowMs t) request with
      | none => ⟨.notFound, "", -1⟩
      | some (_, r) =>
        if r.state = .consumed then ⟨.notFound, "", -1⟩
        else ⟨claimStatus c r request, sessionIdOf r.advertisement,
          integer r.advertisement "UserId" (-1)⟩ := by
  simp only [claim]
  cases claimTarget order (purgeExpired c nowMs t) request with
  | none => rfl
  | some e =>
    simp only
    split
    · rfl
    · split
      · rfl
      · rfl

theorem claimStatus_found : claimStatus c r request ≠ .notFound := by
  unfold claimStatus
  split
  · split
    · exact fun h => nomatch h
    · simp only
      split
      · exact fun h => nomatch h
      · exact fun h => nomatch h
  · exact fun h => nomatch h

/-! ## Signs that stand in the way -/

/-- There is such a record that has not expired. -/
def There (c : Config) (t : Records) (nowMs : ℤ) (r : Record) : Prop :=
  ∃ key, t.get? key = some r ∧ expired c nowMs r = false

/-- The user has a sign that the claim may be for. -/
def HasSign (c : Config) (t : Records) (request : JsonObject) (nowMs u : ℤ) : Prop :=
  ∃ r, There c t nowMs r ∧ r.state ≠ .consumed ∧ namesUser request u r = true

/-- **A claim on `u` meets `u`**, in whatever order the records are gone through. -/
structure TargetOk (c : Config) (t : Records) (request : JsonObject) (nowMs u : ℤ) : Prop where
  found : HasSign c t request nowMs u → ∀ order rawRequest hostPlacement,
    (claim c order t request rawRequest nowMs hostPlacement).2.status ≠ .notFound
  his : ∀ order rawRequest hostPlacement,
    (claim c order t request rawRequest nowMs hostPlacement).2.status ≠ .notFound →
    (claim c order t request rawRequest nowMs hostPlacement).2.targetUserId = u

/-- **Nothing stands before the sign of `u`.** -/
structure Unshadowed (c : Config) (t : Records) (request : JsonObject) (nowMs u : ℤ) : Prop where
  /-- Under the session that the request names only `u` has a sign that is not consumed, -/
  alone : ∀ r, There c t nowMs r → namesSession request r = true → r.state ≠ .consumed →
    integer r.advertisement "UserId" (-1) = u
  /-- and a consumed one lies there only if `u` has no sign. -/
  clean : ∀ r, There c t nowMs r → namesSession request r = true → r.state = .consumed →
    ¬ HasSign c t request nowMs u
  /-- If nothing lies there, none of his consumed signs is the latest. -/
  latest : (∀ r, There c t nowMs r → namesSession request r = false) →
    HasSign c t request nowMs u → ∀ r, There c t nowMs r → r.state = .consumed →
    namesUser request u r = true →
    ∃ r', There c t nowMs r' ∧ namesUser request u r' = true ∧ r.updatedAtMs < r'.updatedAtMs

/-- An entry of the iteration is a record that has not expired. -/
theorem There.of_mem {e : String × Record} (h : e ∈ (purgeExpired c nowMs t).inOrder order) :
    There c t nowMs e.2 :=
  ⟨e.1, purgeExpired_get?.mp (Table.mem_inOrder.mp h)⟩

theorem There.mem (h : There c t nowMs r) (order : Order String) :
    ∃ key, (key, r) ∈ (purgeExpired c nowMs t).inOrder order := by
  obtain ⟨key, hr, hex⟩ := h
  exact ⟨key, Table.mem_inOrder.mpr (purgeExpired_get?.mpr ⟨hr, hex⟩)⟩

/-- A record that is there comes first in some order of the hash. -/
theorem There.first (h : There c t nowMs r) :
    ∃ order key l, (purgeExpired c nowMs t).inOrder order = (key, r) :: l := by
  obtain ⟨key, hr, hex⟩ := h
  obtain ⟨l, hl⟩ := Table.inOrder_first (purgeExpired_get?.mpr ⟨hr, hex⟩)
  exact ⟨.first key, key, l, hl⟩

theorem answer_consumed {rawRequest hostPlacement : List UInt8}
    (h : ∀ key r, claimTarget order (purgeExpired c nowMs t) request = some (key, r) →
      r.state = .consumed) :
    (claim c order t request rawRequest nowMs hostPlacement).2.status = .notFound := by
  rw [claim_answer]
  cases ht : claimTarget order (purgeExpired c nowMs t) request with
  | none => rfl
  | some e => exact congrArg ClaimResult.status (if_pos (h e.1 e.2 ht))

theorem answer_live (rawRequest hostPlacement : List UInt8)
    (h : claimTarget order (purgeExpired c nowMs t) request = some (key, r))
    (hs : r.state ≠ .consumed) :
    (claim c order t request rawRequest nowMs hostPlacement).2.status ≠ .notFound ∧
      (claim c order t request rawRequest nowMs hostPlacement).2.targetUserId =
        integer r.advertisement "UserId" (-1) := by
  rw [claim_answer, h]
  simp only
  rw [if_neg hs]
  exact ⟨claimStatus_found, rfl⟩

/-- A claim that meets `u` in every order finds nothing in the way. -/
theorem TargetOk.unshadowed (hu : optionalInteger request "TargetUserId" = some u)
    (h : TargetOk c t request nowMs u) : Unshadowed c t request nowMs u := by
  -- a record of the session that comes first is the one that is taken
  have hfirst : ∀ r, There c t nowMs r → namesSession request r = true → ∃ order key,
      claimTarget order (purgeExpired c nowMs t) request = some (key, r) := by
    intro r hr hs
    obtain ⟨order, key, l, hl⟩ := hr.first
    refine ⟨order, key, ?_⟩
    have hfind : ((key, r) :: l).find? (fun e => namesSession request e.2) = some (key, r) :=
      List.find?_cons_of_pos hs
    rw [claimTarget_eq hu, hl, hfind, Option.some_or]
  refine ⟨?_, ?_, ?_⟩
  · intro r hr hs hlive
    obtain ⟨order, key, ht⟩ := hfirst r hr hs
    obtain ⟨hfound, huser⟩ := answer_live [] [] ht hlive
    rw [← huser]
    exact h.his order [] [] hfound
  · intro r hr hs hconsumed hsign
    obtain ⟨order, key, ht⟩ := hfirst r hr hs
    refine h.found hsign order [] [] (answer_consumed fun key' r' ht' => ?_)
    rw [ht] at ht'
    obtain ⟨-, rfl⟩ := Prod.mk.inj (Option.some.inj ht')
    exact hconsumed
  · intro hnone hsign r hr hconsumed hname
    by_contra hno
    -- no sign of his is later, so this one is taken where it comes first
    obtain ⟨order, key, l, hl⟩ := hr.first
    have hfind : ((purgeExpired c nowMs t).inOrder order).find?
        (fun e => namesSession request e.2) = none := by
      rw [List.find?_eq_none]
      intro e he
      simp [hnone e.2 (There.of_mem he)]
    have ht : claimTarget order (purgeExpired c nowMs t) request = some (key, r) := by
      rw [claimTarget_eq hu, hfind, Option.none_or]
      have hfilter : ((key, r) :: l).filter (fun e => namesUser request u e.2) =
          (key, r) :: l.filter fun e => namesUser request u e.2 := List.filter_cons_of_pos hname
      rw [hl, hfilter, List.argmax_cons]
      cases hmax : (l.filter fun e => namesUser request u e.2).argmax
          fun e => e.2.updatedAtMs with
      | none => rfl
      | some e =>
        have hmem := List.mem_filter.mp (List.argmax_mem hmax)
        have hin : e ∈ (purgeExpired c nowMs t).inOrder order := by
          rw [hl]
          exact List.mem_cons_of_mem _ hmem.1
        have hthere : There c t nowMs e.2 := There.of_mem hin
        have hle : ¬ r.updatedAtMs < e.2.updatedAtMs :=
          fun hlt => hno ⟨e.2, hthere, hmem.2, hlt⟩
        exact if_neg hle
    refine h.found hsign order [] [] (answer_consumed fun key' r' ht' => ?_)
    rw [ht] at ht'
    obtain ⟨-, rfl⟩ := Prod.mk.inj (Option.some.inj ht')
    exact hconsumed

/-- **What a claim takes**: a record of the session that it names, or, if there is none, the latest
of the user's records. -/
theorem claimTarget_taken (hu : optionalInteger request "TargetUserId" = some u)
    (ht : claimTarget order (purgeExpired c nowMs t) request = some (key, r)) :
    There c t nowMs r ∧ (namesSession request r = true ∨
      ((∀ r', There c t nowMs r' → namesSession request r' = false) ∧
        namesUser request u r = true ∧
        ∀ r', There c t nowMs r' → namesUser request u r' = true →
          r'.updatedAtMs ≤ r.updatedAtMs)) := by
  rw [claimTarget_eq hu] at ht
  cases hfind : ((purgeExpired c nowMs t).inOrder order).find?
      (fun e => namesSession request e.2) with
  | some e =>
    rw [hfind, Option.some_or] at ht
    obtain rfl := Option.some.inj ht
    have hs := List.find?_some hfind
    exact ⟨There.of_mem (List.mem_of_find?_eq_some hfind), Or.inl hs⟩
  | none =>
    rw [hfind, Option.none_or] at ht
    have hmem := List.mem_filter.mp (List.argmax_mem ht)
    refine ⟨There.of_mem hmem.1, Or.inr ⟨fun r' hr' => ?_, hmem.2, fun r' hr' hname => ?_⟩⟩
    · obtain ⟨key', hin⟩ := hr'.mem order
      simpa using List.find?_eq_none.mp hfind _ hin
    · obtain ⟨key', hin⟩ := hr'.mem order
      have hmem' : (key', r') ∈ ((purgeExpired c nowMs t).inOrder order).filter fun e =>
          namesUser request u e.2 := List.mem_filter.mpr ⟨hin, hname⟩
      have hle := List.le_of_mem_argmax hmem' ht
      exact hle

/-- A sign of the user is among what the claim chooses from. -/
theorem HasSign.claimTarget_ne_none (hu : optionalInteger request "TargetUserId" = some u)
    (hsign : HasSign c t request nowMs u) (order : Order String) :
    claimTarget order (purgeExpired c nowMs t) request ≠ none := by
  intro ht
  obtain ⟨r, hr, -, hname⟩ := hsign
  obtain ⟨key, hin⟩ := hr.mem order
  rw [claimTarget_eq hu] at ht
  cases hfind : ((purgeExpired c nowMs t).inOrder order).find?
      (fun e => namesSession request e.2) with
  | some e =>
    rw [hfind, Option.some_or] at ht
    cases ht
  | none =>
    rw [hfind, Option.none_or] at ht
    have hempty := List.argmax_eq_none.mp ht
    have hmem : (key, r) ∈ ((purgeExpired c nowMs t).inOrder order).filter fun e =>
        namesUser request u e.2 := List.mem_filter.mpr ⟨hin, hname⟩
    rw [hempty] at hmem
    cases hmem

/-- What is taken is his, and it is consumed only if he has no sign. -/
theorem Unshadowed.taken (hu : optionalInteger request "TargetUserId" = some u)
    (h : Unshadowed c t request nowMs u)
    (ht : claimTarget order (purgeExpired c nowMs t) request = some (key, r)) :
    (r.state ≠ .consumed → integer r.advertisement "UserId" (-1) = u) ∧
      (r.state = .consumed → ¬ HasSign c t request nowMs u) := by
  obtain ⟨hthere, hs | ⟨hnone, hname, hlatest⟩⟩ := claimTarget_taken hu ht
  · exact ⟨h.alone r hthere hs, h.clean r hthere hs⟩
  · refine ⟨fun _ => ?_, fun hconsumed hsign => ?_⟩
    · simp only [namesUser, Bool.and_eq_true, decide_eq_true_eq] at hname
      exact hname.1
    · obtain ⟨r', hr', hname', hlt⟩ := h.latest hnone hsign r hthere hconsumed hname
      have hle := hlatest r' hr' hname'
      omega

/-- With nothing in the way it meets him. -/
theorem Unshadowed.target (hu : optionalInteger request "TargetUserId" = some u)
    (h : Unshadowed c t request nowMs u) : TargetOk c t request nowMs u := by
  refine ⟨?_, ?_⟩
  · intro hsign order rawRequest hostPlacement
    obtain ⟨e, ht⟩ := Option.ne_none_iff_exists'.mp (hsign.claimTarget_ne_none hu order)
    have hlive : e.2.state ≠ .consumed := fun hconsumed => (h.taken hu ht).2 hconsumed hsign
    exact (answer_live _ _ ht hlive).1
  · intro order rawRequest hostPlacement hfound
    cases ht : claimTarget order (purgeExpired c nowMs t) request with
    | none => exact absurd (answer_consumed fun key r h' => by rw [ht] at h'; cases h') hfound
    | some e =>
      by_cases hs : e.2.state = .consumed
      · refine absurd (answer_consumed fun key r h' => ?_) hfound
        rw [ht] at h'
        obtain rfl := Option.some.inj h'
        exact hs
      · rw [(answer_live _ _ ht hs).2]
        exact (h.taken hu ht).1 hs

/-- **A claim on a user meets him** exactly when nothing stands before his sign. -/
theorem target_ok_iff (c : Config) (t : Records) (nowMs : ℤ)
    (hu : optionalInteger request "TargetUserId" = some u) :
    TargetOk c t request nowMs u ↔ Unshadowed c t request nowMs u :=
  ⟨TargetOk.unshadowed hu, Unshadowed.target hu⟩

/-- A sign of the first user under a session. -/
def signAs (session : String) : JsonObject := [("SessionId", .str session), ("UserId", .num 1)]

/-- The second user claims from the first. -/
def claimsFirst : JsonObject := [("TargetUserId", .num 1), ("UserId", .num 2)]

/-- The first user takes a sign back and shows another one, after a third user has shown his. -/
def renewed : Records :=
  [.advertise (signAs "old") [] 0, .consume .listed (signAs "old") 1,
    .advertise [("SessionId", .str "third"), ("UserId", .num 3)] [] 2,
    .advertise (signAs "new") [] 3].foldl
      (applyOp (.ofOptions {}) fun raw _ _ _ => raw) ∅

/-- The sign that he took back is older than his new one, which is met. -/
theorem renewed_sign_met : TargetOk (.ofOptions {}) renewed claimsFirst 4 1 := by
  have hnew : There (.ofOptions {}) renewed 4
      ⟨.advertised, signAs "new", [], [], [], [], -1, 3⟩ := ⟨"new:1", by rfl, by decide +kernel⟩
  have hold : ∀ r, There (.ofOptions {}) renewed 4 r → r.state = .consumed → r.updatedAtMs < 3 := by
    rintro r ⟨key, hr, -⟩ hs
    have hall : ∀ e ∈ renewed.inOrder .listed, e.2.state = .consumed → e.2.updatedAtMs < 3 := by
      decide +kernel
    exact hall (key, r) (Table.mem_inOrder.mpr hr) hs
  refine (target_ok_iff _ _ _ (by decide)).mpr ⟨?_, ?_, ?_⟩
  · intro r hr hs
    cases hs
  · intro r hr hs
    cases hs
  · intro _ _ r hr hs _
    exact ⟨_, hnew, by decide +kernel, hold r hr hs⟩

/-- The first user advertises twice and takes the first sign back. -/
def tookBack : Records :=
  [.advertise (signAs "old") [] 0, .advertise (signAs "new") [] 1,
    .consume .listed (signAs "old") 2].foldl
      (applyOp (.ofOptions {}) fun raw _ _ _ => raw) ∅

/-- The sign that was taken back was updated last, so his other sign is not found. -/
theorem taken_back_shadows : ¬ TargetOk (.ofOptions {}) tookBack claimsFirst 3 1 := by
  intro h
  have hthere : There (.ofOptions {}) tookBack 3
      ⟨.advertised, signAs "new", [], [], [], [], -1, 1⟩ := ⟨"new:1", by rfl, by decide +kernel⟩
  have hfound := h.found ⟨_, hthere, by decide, by decide +kernel⟩ .listed [] []
  exact hfound (by decide +kernel)

end ShadNet.SummonBroker
