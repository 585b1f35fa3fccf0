import ShadNet.Proof.SessionLeave

/-!
# The bounds of a session

* `Session.Bounded`: what a create and a join check of a session.
* `Session.Bounded.without`, `handleSessionJoin_bounded`: leaving and joining keep it.
* `AcceptsCreate`, `AcceptsUpdate`: the request passes the checks of its handler, which are silent on
  the index of a create and on the maximum of an update.
* `sessions_bounded_iff`: the bounds hold along a run exactly if no accepted create and no accepted
  update passes over them.
-/

namespace ShadNet

open Lib

variable {t t' : Sessions} {id : String} {s s' : Session} {u i : ℤ} {r : Request}

/-- What is checked when a session is created or joined. -/
structure Session.Bounded (s : Session) : Prop where
  maxUser : 1 ≤ s.sessionMaxUser
  room : (s.members.length : ℤ) ≤ min s.sessionMaxUser 256
  platforms : s.availablePlatforms ≠ []
  index : ∀ m ∈ s.members, 0 ≤ m.index ∧ m.index ≤ 63

/-- Every session keeps its bounds. -/
def StoreBounded (t : Sessions) : Prop := ∀ id s, t.get? id = some s → s.Bounded

theorem StoreBounded.set (h : StoreBounded t) (hs : s.Bounded) : StoreBounded (t.set id s) := by
  intro id' s' hs'
  rcases Table.of_get?_set hs' with ⟨-, rfl⟩ | ⟨-, hold⟩
  · exact hs
  · exact h id' s' hold

/-- A store is as good as the session that is stored last. -/
theorem StoreBounded.set_iff (h : StoreBounded t) : StoreBounded (t.set id s) ↔ s.Bounded :=
  ⟨fun hb => hb id s Table.get?_set_self, fun hs => h.set hs⟩

theorem StoreBounded.del (h : StoreBounded t) (id : String) : StoreBounded (t.del id) :=
  fun id' s' hs' => h id' s' (Table.of_get?_del hs').2

/-! ## Leaving -/

/-- Leaving has no say in the size of a session and its platforms. -/
theorem without_terms (h : s.without u = some s') :
    s'.sessionMaxUser = s.sessionMaxUser ∧ s'.availablePlatforms = s.availablePlatforms := by
  unfold Session.without at h
  split at h
  · obtain rfl := Option.some.inj h
    exact ⟨rfl, rfl⟩
  split at h
  · cases h
  split at h
  · cases h
  · split at h <;>
    · obtain rfl := Option.some.inj h
      exact ⟨rfl, rfl⟩

theorem Session.Bounded.without (h : s.Bounded) (hw : s.without u = some s') : s'.Bounded := by
  obtain ⟨hmax, hplat⟩ := without_terms hw
  obtain ⟨hsub, -⟩ := without_members hw
  have hlen := hsub.length_le
  have hroom := h.room
  refine ⟨hmax ▸ h.maxUser, ?_, hplat ▸ h.platforms, fun m hm => h.index m (hsub.subset hm)⟩
  rw [hmax]
  omega

theorem StoreBounded.alters (h : StoreBounded t) (halt : Alters (Session.without u) t id t') :
    StoreBounded t' := by
  intro id' s' hs'
  rw [halt id'] at hs'
  split at hs'
  · obtain ⟨s, hs, hw⟩ := Option.bind_eq_some_iff.mp hs'
    exact (h id s hs).without hw
  · exact h id' s' hs'

theorem leaveSessionAtIndex_bounded (hok : LeaveOk t) (h : StoreBounded t) (o : Order String)
    (u i : ℤ) : StoreBounded (leaveSessionAtIndex o t u i) := by
  by_cases hheld : ∃ id, Holds t id u i
  · obtain ⟨id, hheld⟩ := hheld
    exact h.alters (leaveSessionAtIndex_alters o hok hheld)
  · rw [leaveSessionAtIndex_unheld o fun id hi => hheld ⟨id, hi⟩]
    exact h

theorem purge_bounded (hok : LeaveOk t) (h : StoreBounded t) (o : Order String) (u : ℤ) :
    StoreBounded (purgeUserFromSessions o u t).1 := by
  intro id s' hs'
  rw [← purgeLoop_sessions, purgeLoop_without hok] at hs'
  obtain ⟨s, hs, hw⟩ := Option.bind_eq_some_iff.mp hs'
  exact (h id s hs).without hw

theorem handleSessionLeave_bounded (hok : LeaveOk t) (h : StoreBounded t) (r : Request)
    (id key : String) : StoreBounded (handleSessionLeave r id key t).sessions := by
  rcases handleSessionLeave_rule hok r id key with he | ⟨auth, u, -, -, -, halt⟩
  · rw [he]
    exact h
  · exact h.alters halt

theorem handleSessionDelete_bounded (h : StoreBounded t) (r : Request) (id : String) :
    StoreBounded (handleSessionDelete r id t).sessions := by
  simp only [handleSessionDelete]
  split
  · exact h
  split
  · exact h
  split
  · exact h
  · exact h.del id

/-! ## Joining -/

/-- **A join** finds room for one more, and an index of the range. -/
theorem handleSessionJoin_bounded (hok : StoreOk t) (h : StoreBounded t) (r : Request) (id : String)
    (indexItem priorityItem : Option String) :
    StoreBounded (handleSessionJoin r id indexItem priorityItem t).sessions := by
  rcases handleSessionJoin_cases r id indexItem priorityItem t with
    he | ⟨auth, s, -, hs, ⟨priority, he⟩ | ⟨hno, -, hroom, i, platform, priority, hindex, he⟩⟩
  · rw [he]
    exact h
  · rw [he]
    have hb := h id s hs
    have hplaces := renew_places (l := s.members) (f := fun m => if m.userId = auth.userId
      then some { m with priority, joinedAt := r.now } else none) (by
        intro m m' hm
        split at hm
        · exact Option.some.inj hm ▸ ⟨rfl, rfl, rfl⟩
        · cases hm)
    refine h.set ⟨hb.maxUser, ?_, hb.platforms, fun m hm => ?_⟩
    · have hlen := congrArg List.length hplaces
      rw [List.length_map, List.length_map] at hlen
      simp only [hlen]
      exact hb.room
    · obtain ⟨-, hold⟩ := (hok.session id s hs).1.renew hplaces
      obtain ⟨m0, hm0, -, hi⟩ := hold m hm
      exact hi ▸ hb.index m0 hm0
  · have hkeep := leaveSessionAtIndex_get? r.order hok hs hno i
    have hb := h id s hs
    have hmax := hb.maxUser
    rw [he]
    simp only [hkeep, Option.getD_some]
    refine (leaveSessionAtIndex_bounded hok.leaveOk h _ _ _).set
      ⟨hmax, ?_, hb.platforms, fun m hm => ?_⟩
    · unfold maxUsers at hroom
      rw [List.length_append, List.length_singleton]
      push_cast
      split at hroom <;> omega
    · rcases List.mem_append.mp hm with hm | hm
      · exact hb.index m hm
      · rw [List.mem_singleton.mp hm]
        exact hindex

/-! ## Creating -/

/-- The create by `auth` passes its checks with the object `obj`. -/
structure AcceptsCreate (r : Request) (parts : Option (List MultipartPart)) (auth : AuthResult)
    (obj : JsonObject) : Prop where
  caller : r.auth = .ok auth
  body : ∃ ps json, parts = some ps ∧ partData ps "session-request" = some json ∧
    r.fromJson json = some (.obj obj) ∧
    ¬ (kImageMax < ((partData ps "session-image").getD []).length ∨
      kDataMax < ((partData ps "session-data").getD []).length ∨
      kChangeableMax < ((partData ps "changeable-session-data").getD []).length)
  fields : ¬ (((obj.value "sessionType").toString ≠ "owner-bind" ∧
      (obj.value "sessionType").toString ≠ "owner-migration") ∨
    (obj.value "sessionMaxUser").toInt 0 ≤ 0 ∨ stringArray (obj.value "availablePlatforms") = [])
  online : ∃ platform ∈ stringArray (obj.value "availablePlatforms"),
    r.clients auth.userId = some platform

/-- What a create of `obj` stores, as far as the bounds go. -/
structure CreatedFrom (obj : JsonObject) (s : Session) : Prop where
  maxUser : s.sessionMaxUser = (obj.value "sessionMaxUser").toInt 0
  platforms : s.availablePlatforms = stringArray (obj.value "availablePlatforms")
  member : ∃ m, s.members = [m] ∧ m.index = (obj.value "index").toInt 0

theorem AcceptsCreate.stores {parts : Option (List MultipartPart)} {auth : AuthResult}
    {obj : JsonObject} (h : AcceptsCreate r parts auth obj) (t : Sessions) :
    ∃ i s, CreatedFrom obj s ∧ (handleSessionCreate r parts t).sessions =
      (leaveSessionAtIndex r.order t auth.userId i).set ("001-" ++ r.uuid) s := by
  obtain ⟨ps, json, rfl, hjson, hobj, hsizes⟩ := h.body
  obtain ⟨platform, hmem, hclient⟩ := h.online
  have hplatform : ¬ platform ∉ stringArray (obj.value "availablePlatforms") := not_not_intro hmem
  unfold handleSessionCreate
  simp only [h.caller, hjson, if_neg hsizes, hobj, if_neg h.fields, hclient, if_neg hplatform]
  exact ⟨_, _, ⟨rfl, rfl, _, rfl, rfl⟩, rfl⟩

theorem handleSessionCreate_accepts (r : Request) (parts : Option (List MultipartPart))
    (t : Sessions) : (handleSessionCreate r parts t).sessions = t ∨
      ∃ auth obj, AcceptsCreate r parts auth obj := by
  simp only [handleSessionCreate]
  -- the exits in the order of the source
  split
  · exact Or.inl rfl
  rename_i auth hauth
  split
  · exact Or.inl rfl
  split
  · exact Or.inl rfl
  rename_i ps _ json hjson
  split
  · exact Or.inl rfl
  rename_i hsizes
  split
  · rename_i obj hobj
    split
    · exact Or.inl rfl
    rename_i hfields
    split
    · exact Or.inl rfl
    rename_i platform hclient
    split
    · exact Or.inl rfl
    rename_i hmem
    exact Or.inr ⟨auth, obj, hauth, ⟨ps, json, rfl, hjson, hobj, hsizes⟩, hfields, platform,
      not_not.mp hmem, hclient⟩
  · exact Or.inl rfl

/-- An accepted create is within the bounds if its index is. -/
theorem CreatedFrom.bounded_iff {parts : Option (List MultipartPart)} {auth : AuthResult}
    {obj : JsonObject} (hs : CreatedFrom obj s) (h : AcceptsCreate r parts auth obj) :
    s.Bounded ↔ 0 ≤ (obj.value "index").toInt 0 ∧ (obj.value "index").toInt 0 ≤ 63 := by
  obtain ⟨m, hm, hindex⟩ := hs.member
  have hfields := h.fields
  push Not at hfields
  obtain ⟨-, hmax, hplat⟩ := hfields
  constructor
  · intro hb
    have hi := hb.index m (by rw [hm]; exact List.mem_singleton_self m)
    rwa [hindex] at hi
  · intro hi
    refine ⟨?_, ?_, hs.platforms ▸ hplat, fun m' hm' => ?_⟩
    · rw [hs.maxUser]
      omega
    · rw [hs.maxUser, hm, List.length_singleton]
      omega
    · rw [hm, List.mem_singleton] at hm'
      rw [hm', hindex]
      exact hi

/-- **A create** looks at the maximum and the platforms, and not at the index. -/
theorem handleSessionCreate_bounded_iff (hok : LeaveOk t) (h : StoreBounded t) (r : Request)
    (parts : Option (List MultipartPart)) :
    StoreBounded (handleSessionCreate r parts t).sessions ↔ ∀ auth obj, AcceptsCreate r parts auth obj →
      0 ≤ (obj.value "index").toInt 0 ∧ (obj.value "index").toInt 0 ≤ 63 := by
  have hleft := fun u i => leaveSessionAtIndex_bounded hok h r.order u i
  constructor
  · intro hb auth obj hacc
    obtain ⟨i, s, hs, he⟩ := hacc.stores t
    rw [he, (hleft _ _).set_iff] at hb
    exact (hs.bounded_iff hacc).mp hb
  · intro hin
    rcases handleSessionCreate_accepts r parts t with he | ⟨auth, obj, hacc⟩
    · rw [he]
      exact h
    · obtain ⟨i, s, hs, he⟩ := hacc.stores t
      rw [he, (hleft _ _).set_iff]
      exact (hs.bounded_iff hacc).mpr (hin auth obj hacc)

/-! ## Updating -/

/-- The update by `auth` passes its checks: `obj` is to change the session `s`. -/
structure AcceptsUpdate (r : Request) (id : String) (body : List UInt8) (t : Sessions)
    (auth : AuthResult) (obj : JsonObject) (s : Session) : Prop where
  caller : r.auth = .ok auth
  body : r.fromJson body = some (.obj obj)
  session : t.get? id = some s
  permitted : sessionPermissionError s auth.userId = 0

theorem AcceptsUpdate.stores {body : List UInt8} {auth : AuthResult} {obj : JsonObject}
    (h : AcceptsUpdate r id body t auth obj s) :
    (handleSessionUpdate r id body t).sessions = t.set id (updatedSession s obj) := by
  have hperm : ¬ sessionPermissionError s auth.userId ≠ 0 := not_not_intro h.permitted
  unfold handleSessionUpdate
  simp only [h.caller, h.body, h.session, if_neg hperm]

theorem handleSessionUpdate_accepts (r : Request) (id : String) (body : List UInt8) (t : Sessions) :
    (handleSessionUpdate r id body t).sessions = t ∨
      ∃ auth obj s, AcceptsUpdate r id body t auth obj s := by
  simp only [handleSessionUpdate]
  split
  · exact Or.inl rfl
  rename_i auth hauth
  split
  · rename_i obj hobj
    split
    · exact Or.inl rfl
    rename_i s hs
    split
    · exact Or.inl rfl
    rename_i hperm
    exact Or.inr ⟨auth, obj, s, hauth, hobj, hs, not_not.mp hperm⟩
  · exact Or.inl rfl

theorem changeIf_field {α : Type*} (g : Session → α) (c : Bool) (f : Session → Session) (s : Session) :
    g (s.changeIf c f) = if c then g (f s) else g s := by
  unfold Session.changeIf
  split <;> rfl

/-- The maximum is the object's if it has one, and is not looked at. -/
theorem updatedSession_maxUser (s : Session) (obj : JsonObject) :
    (updatedSession s obj).sessionMaxUser = if obj.contains "sessionMaxUser"
      then (obj.value "sessionMaxUser").toInt 0 else s.sessionMaxUser := by
  simp only [updatedSession, changeIf_field Session.sessionMaxUser, ite_self]

/-- An empty list of platforms is not taken. -/
theorem updatedSession_platforms (h : s.availablePlatforms ≠ []) (obj : JsonObject) :
    (updatedSession s obj).availablePlatforms ≠ [] := by
  simp only [updatedSession, changeIf_field Session.availablePlatforms, ite_self]
  split
  · rename_i hc
    simp only [Bool.and_eq_true, decide_eq_true_eq] at hc
    exact hc.2
  · exact h

/-- A new maximum has to leave room for the members. -/
theorem updatedSession_bounded_iff (h : s.Bounded) (hne : s.members ≠ []) (obj : JsonObject) :
    (updatedSession s obj).Bounded ↔ (obj.contains "sessionMaxUser" = true →
      s.members.length ≤ (obj.value "sessionMaxUser").toInt 0) := by
  have hmembers : (updatedSession s obj).members = s.members := by
    have hplace := updatedSession_place s obj
    simp only [Session.place, Prod.mk.injEq] at hplace
    exact hplace.2.1
  have hpos := List.length_pos_iff.mpr hne
  have hmax := updatedSession_maxUser s obj
  have hroom := h.room
  constructor
  · intro hb hc
    have hnew := hb.room
    rw [hmembers, hmax, if_pos hc] at hnew
    omega
  · intro hnew
    refine ⟨?_, ?_, updatedSession_platforms h.platforms obj, hmembers ▸ h.index⟩
    · rw [hmax]
      split
      · rename_i hc
        have hle := hnew hc
        omega
      · exact h.maxUser
    · rw [hmax, hmembers]
      split
      · rename_i hc
        have hle := hnew hc
        omega
      · exact hroom

/-- **An update** does not look at the maximum. -/
theorem handleSessionUpdate_bounded_iff (hok : StoreOk t) (h : StoreBounded t) (r : Request) (id : String)
    (body : List UInt8) :
    StoreBounded (handleSessionUpdate r id body t).sessions ↔ ∀ auth obj s,
      AcceptsUpdate r id body t auth obj s → obj.contains "sessionMaxUser" = true →
        s.members.length ≤ (obj.value "sessionMaxUser").toInt 0 := by
  have hiff : ∀ {auth obj s}, AcceptsUpdate r id body t auth obj s →
      (StoreBounded (handleSessionUpdate r id body t).sessions ↔
        (obj.contains "sessionMaxUser" = true →
          s.members.length ≤ (obj.value "sessionMaxUser").toInt 0)) := by
    intro auth obj s hacc
    have hs := hacc.session
    rw [hacc.stores, h.set_iff]
    exact updatedSession_bounded_iff (h id s hs) (hok.session id s hs).1.inhabited obj
  constructor
  · intro hb auth obj s hacc
    exact (hiff hacc).mp hb
  · intro hin
    rcases handleSessionUpdate_accepts r id body t with he | ⟨auth, obj, s, hacc⟩
    · rw [he]
      exact h
    · exact (hiff hacc).mpr (hin auth obj s hacc)

/-! ## Runs -/

/-- A create that is accepted has an index of the range, and an update that is accepted leaves room for
the members if it sets the maximum. -/
def SessionOp.InBounds (t : Sessions) : SessionOp → Prop
  | .create r parts => ∀ auth obj, AcceptsCreate r parts auth obj →
    0 ≤ (obj.value "index").toInt 0 ∧ (obj.value "index").toInt 0 ≤ 63
  | .update r id body => ∀ auth obj s, AcceptsUpdate r id body t auth obj s →
    obj.contains "sessionMaxUser" = true →
      s.members.length ≤ (obj.value "sessionMaxUser").toInt 0
  | _ => True

/-- **An operation** keeps the bounds if and only if it is in bounds itself. -/
theorem apply_bounded (hok : StoreOk t) (h : StoreBounded t) (op : SessionOp) :
    StoreBounded (op.apply t) ↔ op.InBounds t := by
  cases op with
  | create r parts => exact handleSessionCreate_bounded_iff hok.leaveOk h r parts
  | join r id indexItem priorityItem =>
    exact iff_of_true (handleSessionJoin_bounded hok h r id indexItem priorityItem) trivial
  | leave r id key => exact iff_of_true (handleSessionLeave_bounded hok.leaveOk h r id key) trivial
  | update r id body => exact handleSessionUpdate_bounded_iff hok h r id body
  | delete r id => exact iff_of_true (handleSessionDelete_bounded h r id) trivial
  | purge o u => exact iff_of_true (purge_bounded hok.leaveOk h o u) trivial

/-- **The bounds along a run** hold exactly if every create and every update keeps to them. -/
theorem sessions_bounded_iff (ops : List SessionOp) :
    (∀ n, StoreBounded (sessionsAfter ops n)) ↔
      ∀ n (hn : n < ops.length), ops[n].InBounds (sessionsAfter ops n) := by
  refine runAt_iff_guard storeOk_empty (fun t op hok => apply_storeOk hok op)
    (fun _ _ hs => nomatch hs) ?_ ?_
  · intro t op hok h hin
    exact (apply_bounded hok h op).mpr hin
  · intro t op hok h hout hb
    exact hout ((apply_bounded hok h op).mp hb)

/-- A session for four is created, and then updated to be for none. -/
def maxUserZero : List SessionOp :=
  [.create { bodyRequest [("sessionType", .str "owner-bind"), ("sessionMaxUser", .num 4),
      ("availablePlatforms", .arr [.str "PS4"])] with clients := fun _ => some "PS4" }
      (some [⟨[], toUtf8 "session-request", []⟩]),
    .update (bodyRequest [("sessionMaxUser", .num 0)]) "001-1" []]

theorem max_user_zero : ¬ ∀ ops n, StoreBounded (sessionsAfter ops n) := by
  intro h
  have hmax : ((sessionsAfter maxUserZero 2).get? "001-1").map (·.sessionMaxUser) = some 0 := by
    decide +kernel
  obtain ⟨s, hs, hzero⟩ := Option.map_eq_some_iff.mp hmax
  have hb := (h maxUserZero 2 "001-1" s hs).maxUser
  omega

end ShadNet
