import ShadNet.Lib.Alter
import ShadNet.Proof.GoingOffline

/-!
# Leaving a session

* `Session.without`: the rule by which a session loses a user.
* `leaveSessionAtIndex_alters`, `handleSessionLeave_alters`: both ways of leaving one session follow it.
* `purgeLoop_sessions`, `purgeLoop_events`: so does the purge of a user, in every session and whatever
  the order of the iteration; it is `purgeUserFromSessions`.
* `leaving_agrees`: the three agree, and a purge is leaving one session after the other.
-/

namespace ShadNet

open Lib

variable {t : Sessions} {id : String} {s s' : Session} {u i : ℤ}

/-- **The rule.** The user's membership goes and the others keep their order. The session ends when it
is bound to an owner who leaves, or when nobody is left; an owner is followed by the earliest of the
remaining members. -/
def Session.without (u : ℤ) (s : Session) : Option Session :=
  if ∀ m ∈ s.members, m.userId ≠ u then some s
  else if s.sessionType = "owner-bind" ∧ s.ownerUserId = u then none
  else match s.members.filter fun m => m.userId ≠ u with
    | [] => none
    | first :: rest =>
      if s.ownerUserId = u then
        some { s with
          members := first :: rest, ownerUserId := first.userId, ownerNpid := first.npid }
      else some { s with members := first :: rest }

/-- What the leave of a member relies on. -/
structure LeaveOk (t : Sessions) : Prop where
  users : ∀ id s, t.get? id = some s → (s.members.map (·.userId)).Nodup
  place : ∀ id id' u i, Holds t id u i → Holds t id' u i → id = id'
  owner : ∀ id s, t.get? id = some s → ∃ m ∈ s.members, m.userId = s.ownerUserId
  /-- ids begin with `001-` -/
  key : ∀ id s, t.get? id = some s → id ≠ ""

theorem StoreOk.leaveOk (h : StoreOk t) : LeaveOk t where
  users id s hs := (h.session id s hs).1.users
  place := h.place
  owner id s hs := by
    obtain ⟨m, hm, hmu, -⟩ := (h.session id s hs).1.owner
    exact ⟨m, hm, hmu⟩
  key id s hs := (h.session id s hs).2

/-! ## The rule -/

theorem without_of_not_mem (h : ∀ m ∈ s.members, m.userId ≠ u) : s.without u = some s := if_pos h

/-- What is left has old members only, and not the user. -/
theorem without_members (h : s.without u = some s') :
    s'.members.Sublist s.members ∧ ∀ m ∈ s'.members, m.userId ≠ u := by
  unfold Session.without at h
  split at h
  · rename_i hno
    obtain rfl := Option.some.inj h
    exact ⟨List.Sublist.refl _, hno⟩
  split at h
  · cases h
  have hsub : (s.members.filter fun m => m.userId ≠ u).Sublist s.members := List.filter_sublist
  have hne : ∀ m ∈ s.members.filter (fun m => m.userId ≠ u), m.userId ≠ u := fun m hm => by
    simpa using List.of_mem_filter hm
  split at h
  · cases h
  · rename_i first rest hf
    rw [hf] at hsub hne
    split at h <;>
    · obtain rfl := Option.some.inj h
      exact ⟨hsub, hne⟩

/-- Members other than `u` stay when `u` is taken out. -/
theorem mem_without {m : SessionMember} (h : s.without u = some s') (hm : m ∈ s.members)
    (hne : m.userId ≠ u) : m ∈ s'.members := by
  unfold Session.without at h
  split at h
  · obtain rfl := Option.some.inj h
    exact hm
  split at h
  · cases h
  split at h
  · cases h
  · rename_i first rest hf
    have hkept : m ∈ first :: rest := by
      rw [← hf, List.mem_filter]
      exact ⟨hm, by simpa using hne⟩
    split at h <;>
    · obtain rfl := Option.some.inj h
      exact hkept

/-- A user who has left has nothing more to leave. -/
theorem without_twice (s s' : Session) (h : s.without u = some s') : s'.without u = some s' :=
  without_of_not_mem (without_members h).2

theorem without_owner (h : s.without u = some s')
    (howner : ∃ m ∈ s.members, m.userId = s.ownerUserId) :
    ∃ m ∈ s'.members, m.userId = s'.ownerUserId := by
  have hw := h
  unfold Session.without at h
  split at h
  · obtain rfl := Option.some.inj h
    exact howner
  split at h
  · cases h
  split at h
  · cases h
  · rename_i first rest hf
    split at h
    · obtain rfl := Option.some.inj h
      exact ⟨first, List.mem_cons_self, rfl⟩
    · -- an owner other than the user is still there
      rename_i hne
      obtain rfl := Option.some.inj h
      obtain ⟨m, hm, hmu⟩ := howner
      exact ⟨m, mem_without hw hm (hmu ▸ hne), hmu⟩

/-- Of a user who occurs once, erasing the first entry leaves the entries of the others. -/
theorem eraseP_eq_filter {l : List SessionMember} (h : (l.map (·.userId)).Nodup)
    {p : SessionMember → Bool} (hp : ∀ m, p m → m.userId = u) {m0 : SessionMember} (hm0 : m0 ∈ l)
    (hpm : p m0) : l.eraseP p = l.filter fun m => m.userId ≠ u := by
  have hne := userId_ne_of_mem_eraseP h hp hm0 hpm
  obtain ⟨a, l1, l2, -, hpa, rfl, he⟩ := List.exists_of_eraseP hm0 hpm
  rw [he] at hne ⊢
  have hkeep : (l1 ++ l2).filter (fun m => m.userId ≠ u) = l1 ++ l2 :=
    List.filter_eq_self.mpr fun m hm => by simpa using hne m hm
  rw [List.filter_append] at hkeep
  rw [List.filter_append, List.filter_cons, if_neg (by simp [hp a hpa]), hkeep]

/-- `RemoveMemberApplyOwner` and what its callers make of the answer are the rule. -/
theorem removeMemberApplyOwner_without (h : (s.members.map (·.userId)).Nodup) (u : ℤ) :
    (match removeMemberApplyOwner s u with
      | none => some s
      | some (s', shouldDelete) => if shouldDelete then none else some s') = s.without u := by
  unfold removeMemberApplyOwner
  by_cases hmem : ∀ m ∈ s.members, m.userId ≠ u
  · have hany : ¬ s.members.any (fun m => decide (m.userId = u)) = true := by simpa using hmem
    rw [if_neg hany, without_of_not_mem hmem]
  · have hany : s.members.any (fun m => decide (m.userId = u)) = true := by simpa using hmem
    obtain ⟨m0, hm0, hmu⟩ := List.any_eq_true.mp hany
    have herase := eraseP_eq_filter h (fun m hm => of_decide_eq_true hm) hm0 hmu
    unfold Session.without
    rw [if_pos hany, if_neg hmem, herase]
    cases s.members.filter fun m => m.userId ≠ u with
    | nil => simp
    | cons first rest =>
      by_cases hbind : s.sessionType = "owner-bind" ∧ s.ownerUserId = u
      · simp [hbind]
      · by_cases howner : s.ownerUserId = u
        · have htype : s.sessionType ≠ "owner-bind" := fun ht => hbind ⟨ht, howner⟩
          simp [howner, htype]
        · simp [howner]

/-! ## One session -/

/-- A session after somebody left one is an old one, or what is left of it. -/
theorem of_get?_alters {t' : Sessions} (halt : Alters (Session.without u) t id t') {id' : String}
    (hs' : t'.get? id' = some s') : ∃ s, t.get? id' = some s ∧ s'.members.Sublist s.members ∧
      ((∃ m ∈ s.members, m.userId = s.ownerUserId) → ∃ m ∈ s'.members, m.userId = s'.ownerUserId) := by
  rw [halt id'] at hs'
  split at hs'
  · rename_i hid
    obtain ⟨s, hs, hw⟩ := Option.bind_eq_some_iff.mp hs'
    exact ⟨s, hid ▸ hs, (without_members hw).1, without_owner hw⟩
  · exact ⟨s', hs', List.Sublist.refl _, fun ho => ho⟩

theorem holds_of_alters {t' : Sessions} (halt : Alters (Session.without u) t id t') {id' : String}
    {u' i' : ℤ} (hheld : Holds t' id' u' i') : Holds t id' u' i' := by
  obtain ⟨s', hs', m, hm, hmu⟩ := hheld
  obtain ⟨s, hs, hsub, -⟩ := of_get?_alters halt hs'
  exact ⟨s, hs, m, hsub.subset hm, hmu⟩

/-- Leaving by the rule keeps what leaving relies on. -/
theorem LeaveOk.alters (h : LeaveOk t) {t' : Sessions} (halt : Alters (Session.without u) t id t') :
    LeaveOk t' := by
  constructor
  · intro id' s' hs'
    obtain ⟨s, hs, hsub, -⟩ := of_get?_alters halt hs'
    exact (h.users id' s hs).sublist (hsub.map _)
  · intro a b u' i' ha hb
    exact h.place a b u' i' (holds_of_alters halt ha) (holds_of_alters halt hb)
  · intro id' s' hs'
    obtain ⟨s, hs, -, howner⟩ := of_get?_alters halt hs'
    exact howner (h.owner id' s hs)
  · intro id' s' hs'
    obtain ⟨s, hs, -⟩ := of_get?_alters halt hs'
    exact h.key id' s hs

/-- Where nobody has the place, nothing happens. -/
theorem leaveSessionAtIndex_unheld (o : Order String) (hno : ∀ id, ¬ Holds t id u i) :
    leaveSessionAtIndex o t u i = t := by
  simp only [leaveSessionAtIndex]
  cases hf : (t.inOrder o).find? fun e => decide (e.1 ≠ "") &&
      e.2.members.any fun m => decide (m.userId = u ∧ m.index = i) with
  | none => rfl
  | some e =>
    have hget : t.get? e.1 = some e.2 := Table.mem_inOrder.mp (List.mem_of_find?_eq_some hf)
    have hany := List.find?_some hf
    simp only [Bool.and_eq_true, List.any_eq_true, decide_eq_true_eq] at hany
    exact absurd ⟨e.2, hget, hany.2⟩ (hno e.1)

/-- **Leaving at an index** the session that holds it. -/
theorem leaveSessionAtIndex_alters (o : Order String) (h : LeaveOk t) (hheld : Holds t id u i) :
    Alters (Session.without u) t id (leaveSessionAtIndex o t u i) := by
  obtain ⟨s, hs, m, hm, hmu, hmi⟩ := hheld
  have hmem : ¬ ∀ m ∈ s.members, m.userId ≠ u := fun hno => hno m hm hmu
  simp only [leaveSessionAtIndex]
  cases hf : (t.inOrder o).find? fun e => decide (e.1 ≠ "") &&
      e.2.members.any fun m => decide (m.userId = u ∧ m.index = i) with
  | none =>
    have hnot := List.find?_eq_none.mp hf (id, s) (Table.mem_inOrder.mpr hs)
    simp only [Bool.and_eq_true, decide_eq_true_eq, List.any_eq_true, not_and, not_exists] at hnot
    exact absurd hmi (hnot (h.key id s hs) m hm hmu)
  | some e =>
    obtain ⟨id', s'⟩ := e
    have hs' : t.get? id' = some s' := Table.mem_inOrder.mp (List.mem_of_find?_eq_some hf)
    have hany := List.find?_some hf
    simp only [Bool.and_eq_true, List.any_eq_true, decide_eq_true_eq] at hany
    obtain ⟨-, m', hm', hmu', hmi'⟩ := hany
    -- the session that is found is the one
    obtain rfl : id' = id := h.place id' id u i ⟨s', hs', m', hm', hmu', hmi'⟩
      ⟨s, hs, m, hm, hmu, hmi⟩
    obtain rfl := Option.some.inj (hs.symm.trans hs')
    have herase := eraseP_eq_filter (h.users id' s hs)
      (p := fun m => decide (m.userId = u ∧ m.index = i)) (fun m hm => (of_decide_eq_true hm).1) hm
      (decide_eq_true ⟨hmu, hmi⟩)
    simp only [herase]
    cases hrest : s.members.filter fun m => m.userId ≠ u with
    | nil =>
      refine Alters.del hs ?_
      unfold Session.without
      rw [if_neg hmem, hrest]
      simp
    | cons first rest =>
      simp only
      by_cases hbind : s.sessionType = "owner-bind" ∧ s.ownerUserId = u
      · rw [if_pos hbind]
        refine Alters.del hs ?_
        unfold Session.without
        rw [if_neg hmem, if_pos hbind]
      · rw [if_neg hbind]
        by_cases howner : s.ownerUserId = u
        · rw [if_pos howner]
          refine Alters.set hs ?_
          unfold Session.without
          rw [if_neg hmem, if_neg hbind, hrest]
          simp only [if_pos howner]
        · rw [if_neg howner]
          refine Alters.set hs ?_
          unfold Session.without
          rw [if_neg hmem, if_neg hbind, hrest]
          simp only [if_neg howner]

/-- The caller of a request may take `u` out of the session: himself, or as its owner. -/
def MayRemove (t : Sessions) (id : String) (auth : AuthResult) (u : ℤ) : Prop :=
  ∀ s, t.get? id = some s → u = auth.userId ∨ s.ownerUserId = auth.userId

/-- A caller who may not changes nothing. -/
theorem handleSessionLeave_refused {r : Request} {auth : AuthResult} {key : String}
    (hauth : r.auth = .ok auth) (htarget : resolveTarget r auth key = some u)
    (hmay : ¬ MayRemove t id auth u) : (handleSessionLeave r id key t).sessions = t := by
  unfold MayRemove at hmay
  push Not at hmay
  obtain ⟨s, hs, hne⟩ := hmay
  unfold handleSessionLeave
  simp only [hauth, htarget, hs, if_pos hne]
  rfl

/-- **A leave by request** alters the one session, by taking the user out. -/
theorem handleSessionLeave_alters (h : LeaveOk t) {r : Request} {auth : AuthResult} {key : String}
    (hauth : r.auth = .ok auth) (htarget : resolveTarget r auth key = some u)
    (hmay : MayRemove t id auth u) :
    Alters (Session.without u) t id (handleSessionLeave r id key t).sessions := by
  unfold handleSessionLeave
  simp only [hauth, htarget]
  cases hs : t.get? id with
  | none => exact Alters.refl (by rw [hs]; rfl)
  | some s =>
    have hnot : ¬ (u ≠ auth.userId ∧ s.ownerUserId ≠ auth.userId) := by
      rintro ⟨hne, hne'⟩
      rcases hmay s hs with heq | heq
      · exact hne heq
      · exact hne' heq
    simp only [if_neg hnot]
    have hrule := removeMemberApplyOwner_without (h.users id s hs) u
    cases hr : removeMemberApplyOwner s u with
    | none =>
      rw [hr] at hrule
      exact Alters.refl (by rw [hs, Option.bind_some, ← hrule])
    | some p =>
      obtain ⟨s', shouldDelete⟩ := p
      rw [hr] at hrule
      cases shouldDelete with
      | true => exact Alters.del hs hrule.symm
      | false => exact Alters.set hs hrule.symm

/-- A leave request changes nothing, or takes somebody out of the session. -/
theorem handleSessionLeave_rule (hok : LeaveOk t) (r : Request) (id key : String) :
    (handleSessionLeave r id key t).sessions = t ∨
      ∃ auth u, r.auth = .ok auth ∧ resolveTarget r auth key = some u ∧ MayRemove t id auth u ∧
        Alters (Session.without u) t id (handleSessionLeave r id key t).sessions := by
  cases hauth : r.auth with
  | error e =>
    refine Or.inl ?_
    unfold handleSessionLeave
    simp only [hauth]
    rfl
  | ok auth =>
    cases htarget : resolveTarget r auth key with
    | none =>
      refine Or.inl ?_
      unfold handleSessionLeave
      simp only [hauth, htarget]
      rfl
    | some u =>
      by_cases hmay : MayRemove t id auth u
      · exact Or.inr ⟨auth, u, rfl, htarget, hmay,
          handleSessionLeave_alters hok hauth htarget hmay⟩
      · exact Or.inl (handleSessionLeave_refused hauth htarget hmay)

/-! ## The purge -/

/-- The session as the loop leaves it in the table. -/
def Session.edited (u : ℤ) (s : Session) : Session :=
  ((removeMemberApplyOwner s u).map (·.1)).getD s

/-- Whether the loop marks the session for removal. -/
def Session.ends (u : ℤ) (s : Session) : Bool := ((removeMemberApplyOwner s u).map (·.2)).getD false

/-- The event that the loop collects at an entry. -/
def leftEvent (u : ℤ) (e : String × Session) : Option (String × List ℤ) :=
  (removeMemberApplyOwner e.2 u).bind fun p =>
    if e.2.sendNotificationFlag ∧ p.1.members.map (·.userId) ≠ [] then
      some (e.1, p.1.members.map (·.userId))
    else none

/-- The name of the user that an entry gives away. -/
def leaverIn (u : ℤ) (e : String × Session) : Option String :=
  (e.2.members.find? fun m => m.userId = u).bind fun m => if m.npid = "" then none else some m.npid

/-- The loop has gone through the entries `es`. -/
structure Visited (u : ℤ) (es : List (String × Session)) (l l' : PurgeLoop) : Prop where
  sessions : ∀ id, l'.sessions.get? id =
    if id ∈ es.map Prod.fst then (l.sessions.get? id).map (Session.edited u) else l.sessions.get? id
  leaverNpid : l'.leaverNpid =
    if l.leaverNpid = "" then (es.findSome? (leaverIn u)).getD "" else l.leaverNpid
  events : l'.events = l.events ++ es.filterMap (leftEvent u)
  toRemove : l'.toRemove = l.toRemove ++ (es.filter fun e => e.2.ends u).map Prod.fst

theorem Visited.nil (u : ℤ) (l : PurgeLoop) : Visited u [] l l := by
  constructor
  · simp
  · by_cases hnpid : l.leaverNpid = ""
    · simp [hnpid]
    · simp [hnpid]
  · simp
  · simp

/-- A round of the purge has visited its session. -/
theorem visit_visited {l : PurgeLoop} (hs : l.sessions.get? id = some s) :
    Visited u [(id, s)] l (l.visit u id) := by
  have hleaver : (([(id, s)] : List (String × Session)).findSome? (leaverIn u)).getD "" =
      ((s.members.find? fun m => m.userId = u).map (·.npid)).getD "" := by
    unfold leaverIn
    rw [List.findSome?_cons, List.findSome?_nil]
    simp only
    cases s.members.find? fun m => m.userId = u with
    | none => simp
    | some m => by_cases hm : m.npid = "" <;> simp [hm]
  unfold PurgeLoop.visit
  simp only [hs]
  cases hr : removeMemberApplyOwner s u with
  | none =>
    refine ⟨fun id' => ?_, by simp only [hleaver], by simp [leftEvent, hr],
      by simp [Session.ends, hr]⟩
    by_cases hid : id' = id
    · simp [hid, hs, Session.edited, hr]
    · simp [hid]
  | some p =>
    obtain ⟨s', shouldDelete⟩ := p
    refine ⟨fun id' => ?_, by simp only [hleaver], ?_, ?_⟩
    · rw [Table.get?_set]
      by_cases hid : id' = id
      · simp [hid, hs, Session.edited, hr]
      · simp [hid]
    · simp only [List.filterMap_cons, List.filterMap_nil, leftEvent, hr, Option.bind_some]
      by_cases hsend : s.sendNotificationFlag = true ∧ s'.members.map (·.userId) ≠ []
      · simp only [if_pos hsend]
      · simp only [if_neg hsend, List.append_nil]
    · cases shouldDelete <;> simp [Session.ends, hr]

/-- A round, and then the rest, at which its key does not come again. -/
theorem Visited.cons {e : String × Session} {es : List (String × Session)} {l l1 l2 : PurgeLoop}
    (h1 : Visited u [e] l l1) (h2 : Visited u es l1 l2) (hfresh : e.1 ∉ es.map Prod.fst) :
    Visited u (e :: es) l l2 := by
  constructor
  · intro id
    rw [h2.sessions id, h1.sessions id]
    by_cases hid : id = e.1
    · subst hid
      simp [hfresh]
    · simp only [List.map_cons, List.map_nil, List.mem_cons, List.not_mem_nil, hid, false_or, if_false]
  · rw [h2.leaverNpid, h1.leaverNpid, List.findSome?_cons, List.findSome?_cons]
    by_cases hnpid : l.leaverNpid = ""
    · cases hl : leaverIn u e with
      | none => simp [hnpid]
      | some npid =>
        have hne : npid ≠ "" := by
          obtain ⟨m, -, hm⟩ := Option.bind_eq_some_iff.mp hl
          split at hm
          · cases hm
          · rename_i hm'
            exact Option.some.inj hm ▸ hm'
        simp [hnpid, hne]
    · simp [hnpid]
  · rw [h2.events, h1.events, List.append_assoc, ← List.filterMap_append]
    rfl
  · rw [h2.toRemove, h1.toRemove, List.append_assoc, ← List.map_append, ← List.filter_append]
    rfl

/-- **The whole loop**, over entries of the table whose keys differ. -/
theorem visit_all {es : List (String × Session)} {l : PurgeLoop} (hnd : (es.map Prod.fst).Nodup)
    (hes : ∀ e ∈ es, l.sessions.get? e.1 = some e.2) :
    Visited u es l ((es.map Prod.fst).foldl (PurgeLoop.visit u) l) := by
  induction es generalizing l with
  | nil => exact Visited.nil u l
  | cons e es ih =>
    rw [List.map_cons, List.nodup_cons] at hnd
    have hone : Visited u [e] l (l.visit u e.1) := visit_visited (hes e List.mem_cons_self)
    rw [List.map_cons, List.foldl_cons]
    refine hone.cons (ih hnd.2 fun e' he' => ?_) hnd.1
    -- the round has left the other entries alone
    have hne : e'.1 ≠ e.1 := fun h => hnd.1 (h ▸ List.mem_map_of_mem he')
    rw [hone.sessions]
    simp only [List.map_cons, List.map_nil, List.mem_singleton, if_neg hne]
    exact hes e' (List.mem_cons_of_mem e he')

/-- An iteration goes through the loop. -/
theorem purgeLoop_visited (o : Order String) (u : ℤ) (t : Sessions) :
    Visited u (t.inOrder o) { sessions := t }
      (((t.inOrder o).map (·.1)).foldl (PurgeLoop.visit u) { sessions := t }) := by
  refine visit_all (Table.nodup_keys_inOrder o t) fun e he => ?_
  exact Table.mem_inOrder.mp he

/-- What the loop and the removals behind it leave, is what each session comes to by itself. -/
theorem purgeLoop_sessions (o : Order String) (u : ℤ) (t : Sessions) (id : String) :
    (purgeLoop o u t).1.get? id = (purgeUserFromSessions o u t).1.get? id := by
  have hv := purgeLoop_visited o u t
  have hmem : id ∈ (t.inOrder o).map Prod.fst ↔ ∃ s, t.get? id = some s := by
    simp only [List.mem_map, Prod.exists, Table.mem_inOrder, exists_and_right, exists_eq_right]
  have hrm : id ∈ ((t.inOrder o).filter fun e => e.2.ends u).map Prod.fst ↔
      ∃ s, t.get? id = some s ∧ s.ends u = true := by
    simp only [List.mem_map, List.mem_filter, Prod.exists, Table.mem_inOrder, exists_and_right,
      exists_eq_right]
  unfold purgeLoop purgeUserFromSessions
  simp only
  rw [get?_foldl_del, hv.toRemove, hv.sessions, Table.get?_filterMap, List.nil_append]
  simp only [hrm]
  cases hs : t.get? id with
  | none => simp
  | some s =>
    rw [if_pos (hmem.mpr ⟨s, hs⟩)]
    simp only [Option.some.injEq, exists_eq_left', Option.map_some, Option.bind_some, Session.ends,
      Session.edited]
    cases removeMemberApplyOwner s u with
    | none => simp
    | some p => simp

theorem purgeLoop_events (o : Order String) (u : ℤ) (t : Sessions) :
    (purgeLoop o u t).2 = (purgeUserFromSessions o u t).2 := by
  have hv := purgeLoop_visited o u t
  unfold purgeLoop purgeUserFromSessions
  simp only
  rw [hv.events, hv.leaverNpid, List.nil_append, if_pos rfl, List.map_filterMap]
  refine List.filterMap_congr fun e _ => ?_
  simp only [leftEvent]
  cases removeMemberApplyOwner e.2 u with
  | none => rfl
  | some p =>
    have hnonempty : p.1.members.map (·.userId) ≠ [] ↔ p.1.members ≠ [] := by simp
    simp only [Option.bind_some, hnonempty]
    by_cases hsend : e.2.sendNotificationFlag = true ∧ p.1.members ≠ []
    · rw [if_pos hsend, if_pos hsend]
      rfl
    · rw [if_neg hsend, if_neg hsend]
      rfl

/-- **The purge** is the rule in every session. -/
theorem purgeLoop_without (h : LeaveOk t) (o : Order String) (u : ℤ) (id : String) :
    (purgeLoop o u t).1.get? id = (t.get? id).bind (Session.without u) := by
  rw [purgeLoop_sessions]
  unfold purgeUserFromSessions
  rw [Table.get?_filterMap]
  cases hs : t.get? id with
  | none => rfl
  | some s =>
    rw [Option.bind_some, Option.bind_some]
    exact removeMemberApplyOwner_without (h.users id s hs) u

/-! ## Agreement -/

/-- `DELETE /v1/sessions/<id>/members/<memberKey>`. -/
structure LeaveRequest where
  r : Request
  id : String
  memberKey : String

/-- The caller `u` leaves himself. -/
def LeaveRequest.By (q : LeaveRequest) (u : ℤ) : Prop :=
  ∃ auth, q.r.auth = .ok auth ∧ auth.userId = u ∧ resolveTarget q.r auth q.memberKey = some u

/-- **The ways of leaving agree with the rule**, and with each other. -/
structure LeavingAgrees (t : Sessions) (u : ℤ) : Prop where
  atIndex : ∀ o id i, Holds t id u i → Alters (Session.without u) t id (leaveSessionAtIndex o t u i)
  byRequest : ∀ r auth id key, r.auth = .ok auth → resolveTarget r auth key = some u →
    MayRemove t id auth u → Alters (Session.without u) t id (handleSessionLeave r id key t).sessions
  purge : ∀ o id, (purgeLoop o u t).1.get? id = (t.get? id).bind (Session.without u)
  /-- a purge is leaving at the user's indices one after the other -/
  indexByIndex : ∀ o (o' : String × ℤ → Order String) (places : List (String × ℤ)),
    (∀ p, p ∈ places ↔ Holds t p.1 u p.2) → ∀ id,
    (places.foldl (fun t p => leaveSessionAtIndex (o' p) t u p.2) t).get? id =
      (purgeLoop o u t).1.get? id
  /-- and leaving by one request after the other -/
  requestByRequest : ∀ o (qs : List LeaveRequest), (∀ q ∈ qs, q.By u) →
    (∀ id, id ∈ qs.map (·.id) ↔ Within t id u) → ∀ id,
    (qs.foldl (fun t q => (handleSessionLeave q.r q.id q.memberKey t).sessions) t).get? id =
      (purgeLoop o u t).1.get? id
  others : ∀ id s, t.get? id = some s → (∀ m ∈ s.members, m.userId ≠ u) →
    (∀ o i, (leaveSessionAtIndex o t u i).get? id = some s) ∧
    (∀ r auth id' key, r.auth = .ok auth → resolveTarget r auth key = some u →
      (handleSessionLeave r id' key t).sessions.get? id = some s) ∧
    ∀ o, (purgeLoop o u t).1.get? id = some s

theorem bind_without_of_not_within (h : ¬ Within t id u) :
    (t.get? id).bind (Session.without u) = t.get? id := by
  cases hs : t.get? id with
  | none => rfl
  | some s => exact without_of_not_mem fun m hm hmu => h ⟨s, hs, m, hm, hmu⟩

theorem Alters.others {t' : Sessions} (halt : Alters (Session.without u) t id t') {id' : String}
    (hs : t.get? id' = some s) (hno : ∀ m ∈ s.members, m.userId ≠ u) : t'.get? id' = some s := by
  rw [halt id']
  split
  · rename_i hid
    rw [← hid, hs, Option.bind_some, without_of_not_mem hno]
  · exact hs

/-- A user is in a session at one index. -/
theorem LeaveOk.index_unique (h : LeaveOk t) {i' : ℤ} (hi : Holds t id u i) (hi' : Holds t id u i') :
    i = i' := by
  obtain ⟨s, hs, m, hm, hmu, rfl⟩ := hi
  obtain ⟨s', hs', m', hm', hmu', rfl⟩ := hi'
  obtain rfl := Option.some.inj (hs.symm.trans hs')
  rw [List.inj_on_of_nodup_map (h.users id s hs) hm hm' (hmu.trans hmu'.symm)]

/-- Leaving at one of the user's indices, when some may have been left already. -/
theorem leaveSessionAtIndex_again (h : LeaveOk t) {t' : Sessions} (h' : LeaveOk t')
    (hold : ∀ id i, Holds t' id u i → Holds t id u i) (hheld : Holds t id u i) (o : Order String) :
    Alters (Session.without u) t' id (leaveSessionAtIndex o t' u i) := by
  by_cases hstill : Holds t' id u i
  · exact leaveSessionAtIndex_alters o h' hstill
  · have hno : ∀ id', ¬ Holds t' id' u i := by
      intro id' hheld'
      have heq := h.place id' id u i (hold id' i hheld') hheld
      exact hstill (heq ▸ hheld')
    have hout : ¬ Within t' id u := by
      rintro ⟨s, hs, m, hm, hmu⟩
      have hthere : Holds t' id u m.index := ⟨s, hs, m, hm, hmu, rfl⟩
      have hi := h.index_unique (hold id _ hthere) hheld
      exact hstill (hi ▸ hthere)
    rw [leaveSessionAtIndex_unheld o hno]
    exact Alters.refl (bind_without_of_not_within hout)

/-- **Three ways of leaving, one rule.** -/
theorem leaving_agrees (h : LeaveOk t) (u : ℤ) : LeavingAgrees t u where
  atIndex o id i hheld := leaveSessionAtIndex_alters o h hheld
  byRequest r auth id key hauth htarget hmay := handleSessionLeave_alters h hauth htarget hmay
  purge o id := purgeLoop_without h o u id
  indexByIndex := by
    intro o o' places hplaces id
    have hstep : ∀ t', (LeaveOk t' ∧ ∀ id i, Holds t' id u i → Holds t id u i) → ∀ p ∈ places,
        Alters (Session.without u) t' p.1 (leaveSessionAtIndex (o' p) t' u p.2) ∧
          LeaveOk (leaveSessionAtIndex (o' p) t' u p.2) ∧
          ∀ id i, Holds (leaveSessionAtIndex (o' p) t' u p.2) id u i → Holds t id u i := by
      rintro t' ⟨hok, hold⟩ p hp
      have halt := leaveSessionAtIndex_again h hok hold ((hplaces p).mp hp) (o' p)
      exact ⟨halt, hok.alters halt, fun id i hi => hold id i (holds_of_alters halt hi)⟩
    rw [get?_foldl_alters without_twice hstep ⟨h, fun _ _ hi => hi⟩, purgeLoop_without h]
    split
    · rfl
    · rename_i hnot
      refine (bind_without_of_not_within ?_).symm
      rintro ⟨s, hs, m, hm, hmu⟩
      have hp : (id, m.index) ∈ places := (hplaces _).mpr ⟨s, hs, m, hm, hmu, rfl⟩
      exact hnot (List.mem_map_of_mem (f := Prod.fst) hp)
  requestByRequest := by
    intro o qs hqs hids id
    have hstep : ∀ t', LeaveOk t' → ∀ q ∈ qs,
        Alters (Session.without u) t' q.id (handleSessionLeave q.r q.id q.memberKey t').sessions ∧
          LeaveOk (handleSessionLeave q.r q.id q.memberKey t').sessions := by
      intro t' hok q hq
      obtain ⟨auth, hauth, hu, htarget⟩ := hqs q hq
      have hmay : MayRemove t' q.id auth u := fun s _ => Or.inl hu.symm
      have halt := handleSessionLeave_alters hok hauth htarget hmay
      exact ⟨halt, hok.alters halt⟩
    rw [get?_foldl_alters without_twice hstep h, purgeLoop_without h]
    split
    · rfl
    · rename_i hnot
      exact (bind_without_of_not_within fun hin => hnot ((hids id).mpr hin)).symm
  others := by
    intro id s hs hno
    refine ⟨fun o i => ?_, fun r auth id' key hauth htarget => ?_, fun o => ?_⟩
    · by_cases hheld : ∃ id', Holds t id' u i
      · obtain ⟨id', hheld⟩ := hheld
        exact Alters.others (leaveSessionAtIndex_alters o h hheld) hs hno
      · rw [leaveSessionAtIndex_unheld o fun id' hi => hheld ⟨id', hi⟩]
        exact hs
    · by_cases hmay : MayRemove t id' auth u
      · exact Alters.others (handleSessionLeave_alters h hauth htarget hmay) hs hno
      · rw [handleSessionLeave_refused hauth htarget hmay]
        exact hs
    · rw [purgeLoop_without h, hs, Option.bind_some, without_of_not_mem hno]

/-- A session of two, owned by the first. -/
def duo : Session :=
  { (default : Session) with
    sessionId := "001-duo", ownerUserId := 1, ownerNpid := "alice"
    sessionType := "owner-migration"
    members := [⟨1, "alice", "PS4", 0, 0, 0⟩, ⟨2, "bob", "PS4", 0, 0, 0⟩] }

theorem duo_leaveOk : LeaveOk ((∅ : Sessions).set "001-duo" duo) := by
  have hok : SessionOk "001-duo" duo :=
    ⟨rfl, by simp [duo], by decide, _, List.mem_cons_self, rfl, rfl⟩
  refine (storeOk_empty.set hok (by decide) ?_).leaveOk
  rintro m - id' ⟨s, hs, -⟩
  cases hs

/-- The owner is purged, and the other member takes his place. -/
theorem duo_purged :
    ((purgeLoop .listed 1 ((∅ : Sessions).set "001-duo" duo)).1.get? "001-duo").map (·.ownerNpid) =
      some "bob" := by
  rw [(leaving_agrees duo_leaveOk 1).purge .listed "001-duo"]
  decide +kernel

end ShadNet
