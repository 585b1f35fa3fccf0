import ShadNet.Lib.Delivery
import ShadNet.Proof.SessionBounds

/-!
# Who is told that a member has left

* `LeftBehind`: a user stops being a member of a session that notifies and goes on.
* `Told`: the event goes out once for the session, with each remaining member once.
* `told_iff`: the members are told when the user leaves, is removed or disconnects, and never when he is
  moved out by a join or a create of his.
-/

namespace ShadNet

open Lib

variable {t : Sessions} {op : SessionOp} {id : String} {s s' : Session} {u : ℤ} {r : Request}

/-- The type of a Session Left event. -/
def removeToMember : String := "np:service:session:game:remove:to:member"

/-- By the operation `u` stops being a member of the session, which notifies and goes on as `s'`. -/
structure LeftBehind (t : Sessions) (op : SessionOp) (id : String) (s s' : Session) (u : ℤ) : Prop where
  before : t.get? id = some s
  notifies : s.sendNotificationFlag = true
  member : ∃ m ∈ s.members, m.userId = u
  after : (op.apply t).get? id = some s'
  gone : ∀ m ∈ s'.members, m.userId ≠ u

/-- The Session Left events of an operation for a session. -/
def leftEvents (t : Sessions) (op : SessionOp) (id : String) : List SessionInvitationEvent :=
  (op.events t).filter fun e => e.dataType = removeToMember ∧ e.sessionId = id

/-- **One event**, of `u`, to each remaining member. -/
def Told (t : Sessions) (op : SessionOp) (id : String) (s' : Session) (u : ℤ) : Prop :=
  ∃ e, leftEvents t op id = [e] ∧ e.fromUserId = u ∧
    ∀ m ∈ s'.members, e.toUserIds.count m.userId = 1

/-- The user leaves by a request or by his disconnect. -/
def SessionOp.Announces : SessionOp → Prop
  | .leave .. | .purge .. => True
  | _ => False

/-! ## Leaving and removing -/

/-- Of two users who leave, only the one is missing. -/
theorem eq_of_without {v : ℤ} (hw : s.without v = some s') (hmem : ∃ m ∈ s.members, m.userId = u)
    (hgone : ∀ m ∈ s'.members, m.userId ≠ u) : u = v := by
  by_contra hne
  obtain ⟨m, hm, hmu⟩ := hmem
  exact hgone m (mem_without hw hm (hmu ▸ hne)) hmu

theorem removeMemberApplyOwner_of_without (h : (s.members.map (·.userId)).Nodup)
    (hmem : ∃ m ∈ s.members, m.userId = u) (hw : s.without u = some s') :
    removeMemberApplyOwner s u = some (s', false) := by
  have hrule := removeMemberApplyOwner_without h u
  rw [hw] at hrule
  cases hr : removeMemberApplyOwner s u with
  | none =>
    obtain ⟨m, hm, hmu⟩ := hmem
    exact absurd hmu (removeMemberApplyOwner_eq_none hr m hm)
  | some p =>
    obtain ⟨s1, shouldDelete⟩ := p
    rw [hr] at hrule
    cases shouldDelete with
    | true => cases hrule
    | false =>
      obtain rfl := Option.some.inj hrule
      rfl

/-- A leave tells everybody who was a member. -/
theorem handleSessionLeave_told (hok : StoreOk t) {key : String} {sid : String}
    (h : LeftBehind t (.leave r sid key) id s s' u) : Told t (.leave r sid key) id s' u := by
  obtain ⟨hs, hflag, hmem, hs', hgone⟩ := h
  have hnot : (handleSessionLeave r sid key t).sessions ≠ t := by
    intro he
    simp only [SessionOp.apply, he, hs] at hs'
    obtain rfl := Option.some.inj hs'
    obtain ⟨m, hm, hmu⟩ := hmem
    exact hgone m hm hmu
  rcases handleSessionLeave_rule hok.leaveOk r sid key with he | ⟨auth, v, hauth, htarget, hmay, halt⟩
  · exact absurd he hnot
  have hafter := halt id
  simp only [SessionOp.apply] at hs'
  rw [hs'] at hafter
  by_cases hid : id = sid
  · subst hid
    rw [if_pos rfl, hs, Option.bind_some] at hafter
    obtain rfl := eq_of_without hafter.symm hmem hgone
    have husers := (hok.session id s hs).1.users
    have hremove := removeMemberApplyOwner_of_without husers hmem hafter.symm
    have hnot : ¬ (u ≠ auth.userId ∧ s.ownerUserId ≠ auth.userId) := by
      rintro ⟨hne, hne'⟩
      exact (hmay s hs).elim hne hne'
    have hevents : (handleSessionLeave r id key t).events =
        [⟨removeToMember, u, memberNpid s.members u, s.members.map (·.userId), id⟩] := by
      unfold handleSessionLeave
      simp only [hauth, htarget, hs, if_neg hnot, hremove, hflag, if_true]
      rfl
    refine ⟨⟨removeToMember, u, memberNpid s.members u, s.members.map (·.userId), id⟩, ?_, rfl,
      fun m hm => ?_⟩
    · unfold leftEvents
      simp only [SessionOp.events, hevents]
      rw [List.filter_cons, if_pos (by simp), List.filter_nil]
    · have hold := (without_members hafter.symm).1.subset hm
      exact List.count_eq_one_of_mem husers (List.mem_map_of_mem hold)
  · -- another session is as it was
    rw [if_neg hid, hs] at hafter
    obtain rfl := Option.some.inj hafter
    obtain ⟨m, hm, hmu⟩ := hmem
    exact absurd hmu (hgone m hm)

/-! ## Disconnecting -/

/-- What the purge sends for an entry. -/
def purgeSend (u : ℤ) (leaverNpid : String) (e : String × Session) : Option SessionInvitationEvent :=
  match removeMemberApplyOwner e.2 u with
  | none => none
  | some (sn', _) =>
    if e.2.sendNotificationFlag ∧ sn'.members ≠ [] then
      some ⟨removeToMember, u, leaverNpid, sn'.members.map (·.userId), e.1⟩
    else none

theorem purge_events (o : Order String) (u : ℤ) (t : Sessions) :
    ∃ npid, (purgeUserFromSessions o u t).2 = (t.inOrder o).filterMap (purgeSend u npid) := ⟨_, rfl⟩

theorem purgeSend_session {npid : String} {e : String × Session} {d : SessionInvitationEvent}
    (h : purgeSend u npid e = some d) : d.sessionId = e.1 ∧ d.dataType = removeToMember := by
  unfold purgeSend at h
  split at h
  · cases h
  · split at h
    · obtain rfl := Option.some.inj h
      exact ⟨rfl, rfl⟩
    · cases h

/-- A purge tells those who remain. -/
theorem purge_told (hok : StoreOk t) {o : Order String} {v : ℤ}
    (h : LeftBehind t (.purge o v) id s s' u) : Told t (.purge o v) id s' u := by
  obtain ⟨hs, hflag, hmem, hs', hgone⟩ := h
  have hinhabited := ((apply_storeOk hok (.purge o v)).session id s' hs').1.inhabited
  have husers' := ((apply_storeOk hok (.purge o v)).session id s' hs').1.users
  simp only [SessionOp.apply] at hs'
  rw [← purgeLoop_sessions, purgeLoop_without hok.leaveOk, hs, Option.bind_some] at hs'
  obtain rfl := eq_of_without hs' hmem hgone
  have hremove := removeMemberApplyOwner_of_without (hok.session id s hs).1.users hmem hs'
  obtain ⟨npid, hevents⟩ := purge_events o u t
  have hsend : purgeSend u npid (id, s) =
      some ⟨removeToMember, u, npid, s'.members.map (·.userId), id⟩ := by
    unfold purgeSend
    simp only [hremove, if_pos (And.intro hflag hinhabited)]
  have haddr : ∀ e ∈ t.inOrder o, ∀ d, purgeSend u npid e = some d → d.sessionId = id →
      e = (id, s) := by
    rintro ⟨id', s0⟩ he d hd hsid
    obtain rfl : id' = id := (purgeSend_session hd).1.symm.trans hsid
    obtain rfl := Option.some.inj (hs.symm.trans (Table.mem_inOrder.mp he))
    rfl
  have honce : (((t.inOrder o).filterMap (purgeSend u npid)).filter fun d => d.sessionId = id) =
      [⟨removeToMember, u, npid, s'.members.map (·.userId), id⟩] :=
    sent_once (Table.nodup_inOrder o t) (Table.mem_inOrder.mpr hs) hsend haddr
  refine ⟨⟨removeToMember, u, npid, s'.members.map (·.userId), id⟩, ?_, rfl,
    fun m hm => List.count_eq_one_of_mem husers' (List.mem_map_of_mem hm)⟩
  refine Eq.trans ?_ honce
  unfold leftEvents
  simp only [SessionOp.events, hevents]
  -- all that a purge sends is of this type
  refine List.filter_congr fun d hd => ?_
  obtain ⟨e, -, hd⟩ := List.mem_filterMap.mp hd
  simp [(purgeSend_session hd).2]

/-! ## Moving out -/

/-- Where all events tell of a user who has joined, none tells that one has left. -/
theorem leftEvents_eq_nil
    (h : ∀ e ∈ op.events t, e.dataType = "np:service:session:game:join:to:member") :
    leftEvents t op id = [] := by
  unfold leftEvents
  rw [List.filter_eq_nil_iff]
  intro e he
  simp [h e he, removeToMember]

theorem create_leftEvents (parts : Option (List MultipartPart)) :
    leftEvents t (.create r parts) id = [] := by
  refine leftEvents_eq_nil fun e he => ?_
  simp only [SessionOp.events, handleSessionCreate] at he
  repeat' split at he
  all_goals first
    | exact absurd he List.not_mem_nil
    | (rw [List.mem_singleton] at he; rw [he])

theorem join_leftEvents (sid : String) (indexItem priorityItem : Option String) :
    leftEvents t (.join r sid indexItem priorityItem) id = [] := by
  refine leftEvents_eq_nil fun e he => ?_
  simp only [SessionOp.events, handleSessionJoin] at he
  repeat' split at he
  all_goals first
    | exact absurd he List.not_mem_nil
    | (rw [List.mem_singleton] at he; rw [he])

theorem not_told_of_nil (h : leftEvents t op id = []) : ¬ Told t op id s' u := by
  rintro ⟨e, he, -⟩
  rw [h] at he
  cases he

/-- An update keeps the members, and a delete keeps other sessions. -/
theorem update_not_leftBehind {sid : String} {body : List UInt8} :
    ¬ LeftBehind t (.update r sid body) id s s' u := by
  rintro ⟨hs, -, ⟨m, hm, hmu⟩, hs', hgone⟩
  have hmembers : s'.members = s.members := by
    simp only [SessionOp.apply] at hs'
    rcases handleSessionUpdate_accepts r sid body t with he | ⟨auth, obj, s0, hacc⟩
    · rw [he, hs] at hs'
      rw [Option.some.inj hs']
    · rw [hacc.stores] at hs'
      rcases Table.of_get?_set hs' with ⟨rfl, rfl⟩ | ⟨-, hold⟩
      · obtain rfl := Option.some.inj (hs.symm.trans hacc.session)
        have hplace := updatedSession_place s obj
        simp only [Session.place, Prod.mk.injEq] at hplace
        exact hplace.2.1
      · rw [Option.some.inj (hs.symm.trans hold)]
  exact hgone m (hmembers ▸ hm) hmu

theorem delete_not_leftBehind {sid : String} : ¬ LeftBehind t (.delete r sid) id s s' u := by
  rintro ⟨hs, -, ⟨m, hm, hmu⟩, hs', hgone⟩
  have hsame : t.get? id = some s' := by
    simp only [SessionOp.apply, handleSessionDelete] at hs'
    repeat' split at hs'
    all_goals first
      | exact hs'
      | exact (Table.of_get?_del hs').2
  obtain rfl := Option.some.inj (hs.symm.trans hsame)
  exact hgone m hm hmu

/-- **Those who remain are told** of a leave, a removal and a disconnect, and of nothing else that takes
a user out of the session. -/
theorem told_iff (ops : List SessionOp) (n : ℕ) (op : SessionOp) (id : String) (s s' : Session) (u : ℤ)
    (h : LeftBehind (sessionsAfter ops n) op id s s' u) :
    Told (sessionsAfter ops n) op id s' u ↔ op.Announces := by
  have hok : StoreOk (sessionsAfter ops n) :=
    runAt_inv storeOk_empty (fun _ op h => apply_storeOk h op) ops n
  cases op with
  | create r parts => exact iff_of_false (not_told_of_nil (create_leftEvents parts)) not_false
  | join r sid indexItem priorityItem =>
    exact iff_of_false (not_told_of_nil (join_leftEvents sid indexItem priorityItem)) not_false
  | leave r sid key => exact iff_of_true (handleSessionLeave_told hok h) trivial
  | update r sid body => exact absurd h update_not_leftBehind
  | delete r sid => exact absurd h delete_not_leftBehind
  | purge o v => exact iff_of_true (purge_told hok h) trivial

theorem leftBehind_of (t : Sessions) (op : SessionOp) (id : String) (u : ℤ) (us us' : List ℤ)
    (hbefore : (t.get? id).map (fun s => (s.sendNotificationFlag, s.members.map (·.userId))) =
      some (true, us))
    (hafter : ((op.apply t).get? id).map (fun s => s.members.map (·.userId)) = some us')
    (hu : u ∈ us) (hu' : u ∉ us') : ∃ s s', LeftBehind t op id s s' u := by
  obtain ⟨s, hs, hs1⟩ := Option.map_eq_some_iff.mp hbefore
  obtain ⟨s', hs', rfl⟩ := Option.map_eq_some_iff.mp hafter
  obtain ⟨hflag, rfl⟩ := Prod.mk.inj hs1
  exact ⟨s, s', hs, hflag, List.mem_map.mp hu, hs', fun m hm hmu => hu' (hmu ▸ List.mem_map_of_mem hm)⟩

/-- A request of a user of the console. -/
def requestBy (user : AuthResult) (uuid : String) (obj : JsonObject) : Request :=
  { bodyRequest obj with auth := .ok user, clients := fun _ => some "PS4", uuid }

/-- A create of a session that notifies. -/
def createNotifying (user : AuthResult) (uuid : String) : SessionOp :=
  .create (requestBy user uuid [("availablePlatforms", .arr [.str "PS4"]),
    ("sendNotificationFlag", .bool true), ("sessionMaxUser", .num 4),
    ("sessionType", .str "owner-migration")]) (some [⟨[], toUtf8 "session-request", []⟩])

/-- Two users in a session that notifies. -/
def twoInSession : List SessionOp :=
  [createNotifying ⟨1, "alice"⟩ "1", .join (requestBy ⟨2, "bob"⟩ "" []) "001-1" none none]

/-- Who leaves by request is told of to the member who remains. -/
theorem leave_is_told : ∃ s s', LeftBehind (sessionsAfter twoInSession 2)
      (.leave (requestBy ⟨2, "bob"⟩ "" []) "001-1" "me") "001-1" s s' 2 ∧
    Told (sessionsAfter twoInSession 2) (.leave (requestBy ⟨2, "bob"⟩ "" []) "001-1" "me") "001-1"
      s' 2 := by
  obtain ⟨s, s', h⟩ := leftBehind_of (sessionsAfter twoInSession 2)
    (.leave (requestBy ⟨2, "bob"⟩ "" []) "001-1" "me") "001-1" 2 [1, 2] [1]
    (by decide +kernel) (by decide +kernel) (by decide) (by decide)
  exact ⟨s, s', h, (told_iff twoInSession 2 _ _ s s' 2 h).mpr trivial⟩

/-- Who creates another session at the same index leaves the first without a word. -/
theorem move_is_not_told : ¬ ∀ ops n op id s s' u, LeftBehind (sessionsAfter ops n) op id s s' u →
    Told (sessionsAfter ops n) op id s' u := by
  intro hall
  obtain ⟨s, s', h⟩ := leftBehind_of (sessionsAfter twoInSession 2)
    (createNotifying ⟨2, "bob"⟩ "2") "001-1" 2 [1, 2] [1]
    (by decide +kernel) (by decide +kernel) (by decide) (by decide)
  exact not_told_of_nil (create_leftEvents _) (hall twoInSession 2 _ _ s s' 2 h)

end ShadNet
