import ShadNet.Proof.Account
import ShadNet.Proof.InvitationPush
import ShadNet.Spec.Presence

/-!
# An account by its online ID

* `ResolvedTo`: the three places that take an online ID or an account id all make the account of it.
* `isSelf_valid`: a name that may be registered is none of the names for the caller that are no account's.
* `resolved_iff`: an online ID leads to its account everywhere exactly if it does not read as a number
  that is another account's id, nor as a name or the id of the caller.
-/

namespace ShadNet

open Lib

variable {db : Database} {r : UserRequest} {auth : AuthResult} {a : UserRecord}

/-- `ResolveTarget`, an entry of `to` and the key of a presence, each given the account's online ID. -/
structure ResolvedTo (r : UserRequest) (auth : AuthResult) (a : UserRecord) : Prop where
  target : resolveTarget r.toRequest auth a.username = some a.userId
  entry : (inviteRecipients r.toWebRequest (inviteBody [a.username])).map (·.1) = [a.userId]
  presence : presenceTarget r auth a.username = a.userId

theorem eqNoCase_length {qt : Qt} {s t : String} (h : qt.eqNoCase s t = true) :
    s.toList.length = t.toList.length := by
  have hmap := congrArg List.length (of_decide_eq_true h)
  rwa [List.length_map, List.length_map] at hmap

/-- A valid name is too long to be `me`. -/
theorem eqNoCase_me {qt : Qt} {name : String} (h : isValidNpid qt name = true) :
    qt.eqNoCase name "me" = false := by
  by_contra hme
  have hlen := eqNoCase_length (Bool.eq_true_of_not_eq_false hme)
  unfold isValidNpid at h
  simp only [decide_eq_true_eq] at h
  have htwo : "me".toList.length = 2 := rfl
  omega

/-- A valid name means the caller if it is his own, or spells his id. -/
theorem isSelf_valid {qt : Qt} {name : String} (h : isValidNpid qt name = true) :
    isSelf qt auth name = true ↔
      qt.eqNoCase name auth.npid = true ∨ name = toString auth.userId := by
  unfold isSelf
  rw [eqNoCase_me h, Bool.false_or, Bool.or_eq_true, decide_eq_true_eq]

/-! ## The places -/

/-- `ResolveTarget` tries the caller's name, a number and a name. -/
theorem resolveTarget_name (hvalid : isValidNpid r.qt a.username = true)
    (hname : r.getUserId a.username = some a.userId) (auth : AuthResult) :
    resolveTarget r.toRequest auth a.username =
      if r.qt.eqNoCase a.username auth.npid = true then some auth.userId
      else some ((toLongLong? a.username).getD a.userId) := by
  unfold resolveTarget
  rw [eqNoCase_me hvalid, Bool.false_or]
  refine if_congr Iff.rfl rfl ?_
  cases toLongLong? a.username with
  | none => exact hname
  | some v => rfl

/-- An entry of `to` is a number other than 0, or a name. -/
theorem inviteRecipients_name (hname : r.getUserId a.username = some a.userId) :
    (inviteRecipients r.toWebRequest (inviteBody [a.username])).map (·.1) =
      [if toLongLong? a.username = some 0 then a.userId
        else (toLongLong? a.username).getD a.userId] := by
  have hone : inviteIds r.toWebRequest (inviteBody [a.username]) =
      (resolveEntry r.toWebRequest a.username).toList := by
    have hentries : stringArray ((inviteBody [a.username]).value "to") = [a.username] := rfl
    rw [inviteIds_eq, hentries]
    cases hres : resolveEntry r.toWebRequest a.username with
    | none => simp [hres]
    | some uid => simp [hres]
  refine hone.trans ?_
  cases hnum : toLongLong? a.username with
  | none =>
    rw [resolveEntry_name (Or.inl hnum), hname]
    rfl
  | some v =>
    by_cases hv : v = 0
    · subst hv
      rw [resolveEntry_name (Or.inr hnum), hname]
      rfl
    · rw [resolveEntry_id hnum hv, if_neg fun h => hv (Option.some.inj h)]
      rfl

/-- The key of a presence may be the caller's id, too. -/
theorem presenceTarget_name (hname : r.getUserId a.username = some a.userId) (auth : AuthResult) :
    presenceTarget r auth a.username = if isSelf r.qt auth a.username = true then auth.userId
      else (toLongLong? a.username).getD a.userId := by
  unfold presenceTarget
  refine if_congr Iff.rfl rfl ?_
  cases toLongLong? a.username with
  | none => rw [hname]; rfl
  | some v => rfl

/-- A number that can only be the id does not matter. -/
theorem getD_of_forall {o : Option ℤ} {u : ℤ} (h : ∀ v, o = some v → v = u) : o.getD u = u := by
  cases o with
  | none => rfl
  | some v => exact h v rfl

/-- **An online ID leads to its account** in all three places exactly if it does not name the caller when
the account is another one, and is no number but the account's id. A 0 that is the caller's own name is
found as a name everywhere. -/
theorem resolved_iff (hunique : db.UniqueNames) (hon : r.toWebRequest.On db) (ha : a ∈ db.accounts)
    (hvalid : isValidNpid r.qt a.username = true) (auth : AuthResult) :
    ResolvedTo r auth a ↔ (isSelf r.qt auth a.username = true → a.userId = auth.userId) ∧
      ∀ v, toLongLong? a.username = some v →
        v = a.userId ∨ (v = 0 ∧ r.qt.eqNoCase a.username auth.npid = true) := by
  have hname : r.getUserId a.username = some a.userId := by
    have hfind : getUserId db a.username = some a.userId := by
      unfold getUserId
      rw [hunique.findUser ha]
      rfl
    rw [hon.byName, hfind]
  have htarget := resolveTarget_name hvalid hname auth
  have hentry := inviteRecipients_name hname
  have hpresence := presenceTarget_name hname auth
  constructor
  · rintro ⟨ht, he, hp⟩
    rw [htarget] at ht
    rw [hentry, List.cons.injEq] at he
    rw [hpresence] at hp
    refine ⟨fun hself => ?_, fun v hv => ?_⟩
    · rw [if_pos hself] at hp
      exact hp.symm
    · rw [hv, Option.getD_some] at ht
      by_cases hcase : r.qt.eqNoCase a.username auth.npid = true
      · by_cases hzero : v = 0
        · exact Or.inr ⟨hzero, hcase⟩
        · rw [hv, if_neg fun h => hzero (Option.some.inj h)] at he
          exact Or.inl he.1
      · rw [if_neg hcase] at ht
        exact Or.inl (Option.some.inj ht)
  · rintro ⟨hself, hnum⟩
    refine ⟨?_, ?_, ?_⟩
    · rw [htarget]
      split
      · rename_i hcase
        rw [hself ((isSelf_valid hvalid).mpr (Or.inl hcase))]
      · rename_i hcase
        rw [getD_of_forall fun v hv => (hnum v hv).resolve_right fun hz => hcase hz.2]
    · rw [hentry]
      split
      · rfl
      · rename_i hzero
        rw [getD_of_forall fun v hv => (hnum v hv).resolve_right fun hz => hzero (hz.1 ▸ hv)]
    · rw [hpresence]
      split
      · rename_i hs
        exact (hself hs).symm
      · rename_i hs
        exact getD_of_forall fun v hv =>
          (hnum v hv).resolve_right fun hz => hs ((isSelf_valid hvalid).mpr (Or.inl hz.2))

/-- A request that finds the accounts of the database. -/
def keyRequest (db : Database) : UserRequest where
  toWebRequest := { inviteRequest [] with getUserId := getUserId db, getUsername := getUsername db }
  getAvatarUrl _ := none

theorem bob_resolved : ResolvedTo (keyRequest aliceAndBob) ⟨1, "alice"⟩ (plainUser 2 "bob") := by
  refine (resolved_iff aliceAndBob_uniqueNames ⟨rfl, rfl⟩ (by simp [aliceAndBob])
    (by decide +kernel) _).mpr ?_
  refine ⟨fun hself => absurd hself (by decide +kernel), fun v hv => ?_⟩
  have hnone : toLongLong? (plainUser 2 "bob").username = none := by decide +kernel
  rw [hnone] at hv
  cases hv

/-- Alice, and a user whose name is a number. -/
def aliceAndDigits : Database := ⟨[plainUser 1 "alice", plainUser 3 "12345"], 3, ∅⟩

/-- A name of digits only may be registered, and leads to the id that it spells. -/
theorem digits_not_resolved : ¬ ∀ (db : Database) (r : UserRequest) (auth : AuthResult) (a : UserRecord),
    db.UniqueNames → r.toWebRequest.On db → a ∈ db.accounts → isValidNpid r.qt a.username = true →
      ResolvedTo r auth a := by
  intro h
  have hunique : aliceAndDigits.UniqueNames := by
    unfold Database.UniqueNames aliceAndDigits
    simp [plainUser, noCase]
  have hres := h aliceAndDigits (keyRequest _) ⟨1, "alice"⟩ (plainUser 3 "12345") hunique ⟨rfl, rfl⟩
    (by simp [aliceAndDigits]) (by decide +kernel)
  have htarget : resolveTarget (keyRequest aliceAndDigits).toRequest ⟨1, "alice"⟩
      (plainUser 3 "12345").username = some 12345 := by decide +kernel
  have heq := htarget.symm.trans hres.target
  exact absurd (Option.some.inj heq) (by decide)

end ShadNet
