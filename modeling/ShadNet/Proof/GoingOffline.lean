import ShadNet.Proof.WebSession
import ShadNet.Spec.GoingOffline

/-!
# Who is in a session when he has gone offline

* `handleSessionCreate_creates`: what a create does with a table does not depend on the table.
* `apply_within`: an operation makes nobody a member but the user who enters by it.
* `sessions_left`: a user whose requests insert before his disconnect purges, or after his next
  login, is in no session once he is offline; a request that inserts in between puts him in one,
  where he stays.
-/

namespace ShadNet

open Lib

variable {t t' : Sessions} {id : String} {s s' : Session} {u : ℤ} {user : AuthResult} {r : Request}

/-- `u` is in the session `id`. -/
def Within (t : Sessions) (id : String) (u : ℤ) : Prop :=
  ∃ s, t.get? id = some s ∧ ∃ m ∈ s.members, m.userId = u

/-- `u` is in some session. -/
def Member (t : Sessions) (u : ℤ) : Prop := ∃ id, Within t id u

/-! ## Creates -/

/-- What a create by `user` does with a table, the same with every table: it is refused, or frees an
index and stores a session of one member. -/
def Creates (user : AuthResult) (r : Request) (f : Sessions → Outcome) : Prop :=
  (∃ e : Response, e.status ≠ .ok ∧ ∀ t, f t = .refused t e) ∨
  ∃ i s response events, response.status = .ok ∧ s.members.map (·.userId) = [user.userId] ∧
    ∀ t, f t = ⟨(leaveSessionAtIndex r.order t user.userId i).set ("001-" ++ r.uuid) s, response,
      events⟩

theorem Creates.refused {e : Response} (he : e.status ≠ .ok) :
    Creates user r (fun t => .refused t e) := Or.inl ⟨e, he, fun _ => rfl⟩

theorem Creates.ite {c : Prop} [Decidable c] {f g : Sessions → Outcome} (hf : Creates user r f)
    (hg : Creates user r g) : Creates user r (fun t => if c then f t else g t) := by
  by_cases h : c
  · simpa only [if_pos h] using hf
  · simpa only [if_neg h] using hg

/-- **A create** is refused in any state, or puts its user in in any. -/
theorem handleSessionCreate_creates (hauth : r.auth = .ok user)
    (parts : Option (List MultipartPart)) : Creates user r (handleSessionCreate r parts) := by
  unfold handleSessionCreate
  simp only [hauth]
  -- the exits in the order of the source
  cases parts with
  | none => exact .refused nofun
  | some parts =>
  simp only
  cases partData parts "session-request" with
  | none => exact .refused nofun
  | some jsonPart =>
  refine .ite (.refused nofun) ?_
  cases r.fromJson jsonPart with
  | none => exact .refused nofun
  | some json =>
  cases json with
  | obj obj =>
    refine .ite (.refused nofun) ?_
    cases r.clients user.userId with
    | none => exact .refused nofun
    | some platform =>
    refine .ite (.refused nofun) ?_
    exact Or.inr ⟨_, _, _, _, rfl, rfl, fun _ => rfl⟩
  | null | bool | num | str | arr => exact .refused nofun

/-- A create that passes its checks inserts, whatever the table is; one that does not changes none. -/
theorem passesCreate_iff (hauth : r.auth = .ok user) (parts : Option (List MultipartPart)) :
    if passesCreate r parts then
      ∃ i s, s.members.map (·.userId) = [user.userId] ∧ ∀ t,
        (handleSessionCreate r parts t).sessions =
          (leaveSessionAtIndex r.order t user.userId i).set ("001-" ++ r.uuid) s
    else ∀ t, (handleSessionCreate r parts t).sessions = t := by
  unfold passesCreate
  rcases handleSessionCreate_creates hauth parts with
    ⟨e, he, hall⟩ | ⟨i, s, response, events, hok, hm, hall⟩
  · rw [if_neg (by rw [hall, decide_eq_true_eq]; exact he)]
    intro t
    rw [hall]
    rfl
  · rw [if_pos (by rw [hall, decide_eq_true_eq]; exact hok)]
    exact ⟨i, s, hm, fun t => by rw [hall]⟩

/-! ## Members before and after -/

theorem Within.mono (h : ∀ s', t'.get? id = some s' → ∃ s, t.get? id = some s ∧
    ∀ m ∈ s'.members, m ∈ s.members) (hm : Within t' id u) : Within t id u := by
  obtain ⟨s', hs', m, hm, hmu⟩ := hm
  obtain ⟨s, hs, hsub⟩ := h s' hs'
  exact ⟨s, hs, m, hsub m hm, hmu⟩

theorem Within.del {id0 : String} (hm : Within (t.del id0) id u) : Within t id u :=
  hm.mono fun _ hs' => ⟨_, (Table.of_get?_del hs').2, fun _ hm => hm⟩

/-- Who is in a session after one has been stored: its members, and in the others whoever was. -/
theorem Within.of_set {id0 : String} (hm : Within (t.set id0 s) id u) :
    (id = id0 ∧ ∃ m ∈ s.members, m.userId = u) ∨ Within t id u := by
  obtain ⟨s', hs', hm⟩ := hm
  rcases Table.of_get?_set hs' with ⟨hid, rfl⟩ | ⟨-, hold⟩
  · exact Or.inl ⟨hid, hm⟩
  · exact Or.inr ⟨s', hold, hm⟩

/-- A session stored in the place of one that had its users. -/
theorem Within.of_replace {id0 : String} (hget : t.get? id0 = some s)
    (hsub : (∃ m ∈ s'.members, m.userId = u) → ∃ m ∈ s.members, m.userId = u)
    (hm : Within (t.set id0 s') id u) : Within t id u := by
  rcases hm.of_set with ⟨rfl, hnew⟩ | hold
  · exact ⟨s, hget, hsub hnew⟩
  · exact hold

/-- Whoever is a member after somebody has left was one before. -/
theorem Within.of_leave (h : StoreOk t) (o : Order String) (v i : ℤ)
    (hm : Within (leaveSessionAtIndex o t v i) id u) : Within t id u := by
  rcases leaveSessionAtIndex_cases o h v i with ⟨-, he⟩ | ⟨id0, s, hget, -, he | ⟨s', he, -, hs'⟩⟩
  · rwa [he] at hm
  · rw [he] at hm
    exact hm.del
  · rw [he] at hm
    refine hm.of_replace hget fun ⟨m, hm, hmu⟩ => ?_
    rw [hs'] at hm
    exact ⟨m, List.mem_of_mem_eraseP hm, hmu⟩

/-- Renewing an entry keeps the users. -/
theorem renew_users (l : List SessionMember) (v priority now : ℤ) :
    (l.replaceF fun m => if m.userId = v then some { m with priority, joinedAt := now } else none).map
      (·.userId) = l.map (·.userId) := by
  have hplaces := renew_places (l := l) (f := fun m => if m.userId = v
    then some { m with priority, joinedAt := now } else none) (by
      intro m m' hm
      split at hm
      · exact Option.some.inj hm ▸ ⟨rfl, rfl, rfl⟩
      · cases hm)
  have := congrArg (List.map Prod.fst) hplaces
  rwa [List.map_map, List.map_map] at this

theorem exists_userId_iff {l l' : List SessionMember} (h : l.map (·.userId) = l'.map (·.userId)) :
    (∃ m ∈ l, m.userId = u) ↔ ∃ m ∈ l', m.userId = u := by
  rw [← List.mem_map, ← List.mem_map, h]

/-- A create lets in nobody but its caller. -/
theorem handleSessionCreate_within (h : StoreOk t) {parts : Option (List MultipartPart)}
    (hm : Within (handleSessionCreate r parts t).sessions id u) :
    Within t id u ∨ ∃ auth, r.auth = .ok auth ∧ auth.userId = u := by
  rcases handleSessionCreate_cases r parts t with
    he | ⟨auth, i, s, platform, priority, hauth, he, -, -, -, hs⟩
  · rw [he] at hm
    exact Or.inl hm
  · rw [he] at hm
    rcases hm.of_set with ⟨-, m, hm, hmu⟩ | hold
    · rw [hs, List.mem_singleton] at hm
      exact Or.inr ⟨auth, hauth, by rw [← hmu, hm]⟩
    · exact Or.inl (hold.of_leave h)

/-- A join puts nobody into a session except the caller. -/
theorem handleSessionJoin_within (h : StoreOk t) {sessionId : String}
    {indexItem priorityItem : Option String}
    (hm : Within (handleSessionJoin r sessionId indexItem priorityItem t).sessions id u) :
    Within t id u ∨ ∃ auth, r.auth = .ok auth ∧ auth.userId = u := by
  rcases handleSessionJoin_cases r sessionId indexItem priorityItem t with
    he | ⟨auth, s, hauth, hs, ⟨priority, he⟩ | ⟨hno, -, -, i, platform, priority, -, he⟩⟩
  · rw [he] at hm
    exact Or.inl hm
  · rw [he] at hm
    exact Or.inl (hm.of_replace hs (exists_userId_iff (renew_users _ _ _ _)).mp)
  · rw [he] at hm
    simp only [leaveSessionAtIndex_get? r.order h hs hno i, Option.getD_some] at hm
    rcases hm.of_set with ⟨rfl, m, hm, hmu⟩ | hold
    · rcases List.mem_append.mp hm with hm | hm
      · exact Or.inl ⟨s, hs, m, hm, hmu⟩
      · rw [List.mem_singleton] at hm
        exact Or.inr ⟨auth, hauth, by rw [← hmu, hm]⟩
    · exact Or.inl (hold.of_leave h)

/-- Nobody comes in by a leave. -/
theorem handleSessionLeave_within (h : StoreOk t) {sessionId memberKey : String}
    (hm : Within (handleSessionLeave r sessionId memberKey t).sessions id u) : Within t id u := by
  simp only [handleSessionLeave] at hm
  split at hm
  · exact hm
  split at hm
  · exact hm
  split at hm
  · exact hm
  rename_i sn hsn
  split at hm
  · exact hm
  split at hm
  · exact hm
  rename_i sn' shouldDelete hr
  cases shouldDelete with
  | true => exact hm.del
  | false =>
    obtain ⟨-, hsub, -⟩ := removeMemberApplyOwner_ok (h.session _ sn hsn).1 hr rfl
    refine hm.of_replace hsn ?_
    rintro ⟨m, hm, hmu⟩
    exact ⟨m, hsub m hm, hmu⟩

/-- An update puts nobody into a session. -/
theorem handleSessionUpdate_within {sessionId : String} {body : List UInt8}
    (hm : Within (handleSessionUpdate r sessionId body t).sessions id u) : Within t id u := by
  simp only [handleSessionUpdate] at hm
  split at hm
  · exact hm
  split at hm
  · rename_i obj _
    split at hm
    · exact hm
    rename_i s hs
    split at hm
    · exact hm
    have hplace := updatedSession_place s obj
    simp only [Session.place, Prod.mk.injEq] at hplace
    refine hm.of_replace hs fun hnew => ?_
    rwa [hplace.2.1] at hnew
  · exact hm

/-- A deletion puts nobody into a session. -/
theorem handleSessionDelete_within {sessionId : String}
    (hm : Within (handleSessionDelete r sessionId t).sessions id u) : Within t id u := by
  simp only [handleSessionDelete] at hm
  split at hm
  · exact hm
  split at hm
  · exact hm
  split at hm
  · exact hm
  · exact hm.del

theorem enteringUser_create (parts : Option (List MultipartPart))
    (h : ∃ auth, r.auth = .ok auth ∧ auth.userId = u) :
    (SessionOp.create r parts).enteringUser = some u := by
  obtain ⟨auth, hauth, rfl⟩ := h
  simp only [SessionOp.enteringUser, hauth]

theorem enteringUser_join (sessionId : String) (indexItem priorityItem : Option String)
    (h : ∃ auth, r.auth = .ok auth ∧ auth.userId = u) :
    (SessionOp.join r sessionId indexItem priorityItem).enteringUser = some u := by
  obtain ⟨auth, hauth, rfl⟩ := h
  simp only [SessionOp.enteringUser, hauth]

/-- **An operation makes nobody a member of a session but the user who enters by it.** -/
theorem apply_within (h : StoreOk t) {op : SessionOp} (hm : Within (op.apply t) id u) :
    Within t id u ∨ op.enteringUser = some u := by
  cases op with
  | create r parts => exact (handleSessionCreate_within h hm).imp_right (enteringUser_create parts)
  | join r sessionId indexItem priorityItem =>
    exact (handleSessionJoin_within h hm).imp_right (enteringUser_join sessionId indexItem priorityItem)
  | leave r sessionId memberKey => exact Or.inl (handleSessionLeave_within h hm)
  | update r sessionId body => exact Or.inl (handleSessionUpdate_within hm)
  | delete r sessionId => exact Or.inl (handleSessionDelete_within hm)
  | purge o v =>
    refine Or.inl (hm.mono fun s' hs' => ?_)
    obtain ⟨s, hs, -, hsub, -⟩ := of_get?_purge h hs'
    exact ⟨s, hs, hsub⟩

/-- Nobody who is purged stays. -/
theorem not_member_purge (h : StoreOk t) (o : Order String) :
    ¬ Member (purgeUserFromSessions o u t).1 u := by
  rintro ⟨id, s', hs', m, hm, hmu⟩
  obtain ⟨s, -, -, -, hne⟩ := of_get?_purge h hs'
  exact hne m hm hmu

/-! ## The user's own requests -/

/-- The request of `user` that waits for `sessionsLock`. -/
def Passed (user : AuthResult) : SessionOp → Prop
  | .create r parts => r.auth = .ok user ∧ passesCreate r parts = true
  | .join r _ indexItem _ => r.auth = .ok user ∧ passesJoin user r indexItem = true
  | _ => False

/-- The session that a join asks for takes new members; a create asks for none. -/
def SessionOp.Open (t : Sessions) : SessionOp → Prop
  | .join _ sessionId _ _ =>
    ∃ s, t.get? sessionId = some s ∧ s.sessionLockFlag = false ∧ s.members.length < maxUsers s
  | _ => True

variable {op : SessionOp}

/-- A create that has passed its check makes its user a member. -/
theorem create_member (hauth : r.auth = .ok user) {parts : Option (List MultipartPart)}
    (hpass : passesCreate r parts = true) :
    Member (handleSessionCreate r parts t).sessions user.userId := by
  have hcreate := passesCreate_iff hauth parts
  rw [if_pos hpass] at hcreate
  obtain ⟨i, s, hs, hall⟩ := hcreate
  obtain ⟨m, hm, hmu⟩ := List.mem_map.mp (hs ▸ List.mem_singleton_self user.userId)
  rw [hall]
  exact ⟨_, s, Table.get?_set_self, m, hm, hmu⟩

/-- A user who is in a session is in one after his join. -/
theorem join_keeps (hauth : r.auth = .ok user) {sessionId : String}
    {indexItem priorityItem : Option String} (hm : Member t user.userId) :
    Member (handleSessionJoin r sessionId indexItem priorityItem t).sessions user.userId := by
  rcases handleSessionJoin_cases r sessionId indexItem priorityItem t with
    he | ⟨auth, s, hauth', hs, ⟨priority, he⟩ | ⟨-, -, -, i, platform, priority, -, he⟩⟩
  · rwa [he]
  · rw [he]
    obtain ⟨id, s0, hs0, hmem⟩ := hm
    by_cases hid : id = sessionId
    · -- the session whose entries are renewed
      rw [hid, hs] at hs0
      obtain rfl := Option.some.inj hs0
      exact ⟨sessionId, _, Table.get?_set_self, (exists_userId_iff (renew_users _ _ _ _)).mpr hmem⟩
    · exact ⟨id, s0, by rwa [Table.get?_set_ne hid], hmem⟩
  · rw [hauth] at hauth'
    obtain rfl := Except.ok.inj hauth'
    rw [he]
    exact ⟨_, _, Table.get?_set_self, _, List.mem_append_right _ (List.mem_singleton_self _), rfl⟩

/-- A join that gets to an open session leaves the user in one. -/
theorem join_open (hauth : r.auth = .ok user) {sessionId : String}
    {indexItem priorityItem : Option String} (hpass : passesJoin user r indexItem = true)
    (hopen : (SessionOp.join r sessionId indexItem priorityItem).Open t) :
    Member (handleSessionJoin r sessionId indexItem priorityItem t).sessions user.userId := by
  by_cases hm : Member t user.userId
  · exact join_keeps hauth hm
  obtain ⟨s, hs, hlock, hroom⟩ := hopen
  unfold passesJoin at hpass
  simp only [Bool.and_eq_true, decide_eq_true_eq] at hpass
  obtain ⟨platform, hplatform⟩ := Option.isSome_iff_exists.mp hpass.2
  have hno : s.members.find? (fun m => decide (m.userId = user.userId)) = none := by
    rw [List.find?_eq_none]
    intro m hmem hmu
    exact hm ⟨sessionId, s, hs, m, hmem, of_decide_eq_true hmu⟩
  simp only [handleSessionJoin, hauth, hplatform, hs, hno, hlock]
  rw [if_neg (by omega), if_neg (by simp), if_neg (by omega)]
  exact ⟨_, _, Table.get?_set_self, _, List.mem_append_right _ (List.mem_singleton_self _), rfl⟩

/-- One that gets to no open session makes him no member. -/
theorem join_closed {sessionId : String}
    {indexItem priorityItem : Option String}
    (hclosed : ¬ (SessionOp.join r sessionId indexItem priorityItem).Open t)
    (hm : Member (handleSessionJoin r sessionId indexItem priorityItem t).sessions user.userId) :
    Member t user.userId := by
  rcases handleSessionJoin_cases r sessionId indexItem priorityItem t with
    he | ⟨auth, s, -, hs, ⟨priority, he⟩ | ⟨-, hlock, hroom, -⟩⟩
  · rwa [he] at hm
  · rw [he] at hm
    obtain ⟨id, hm⟩ := hm
    exact ⟨id, hm.of_replace hs (exists_userId_iff (renew_users _ _ _ _)).mp⟩
  · exact absurd ⟨s, hs, hlock, hroom⟩ hclosed

/-- An operation that has passed its check makes its user a member, if the session takes him. -/
theorem Passed.member_of_open (h : Passed user op) (hopen : op.Open t) :
    Member (op.apply t) user.userId := by
  cases op with
  | create r parts => exact create_member h.1 h.2
  | join r sessionId indexItem priorityItem => exact join_open h.1 h.2 hopen
  | leave | update | delete | purge => exact h.elim

/-- An operation of a member leaves him one. -/
theorem Passed.keeps (h : Passed user op) (hm : Member t user.userId) :
    Member (op.apply t) user.userId := by
  cases op with
  | create r parts => exact create_member h.1 h.2
  | join r sessionId indexItem priorityItem => exact join_keeps h.1 hm
  | leave | update | delete | purge => exact h.elim

theorem Passed.of_closed (h : Passed user op) (hclosed : ¬ op.Open t)
    (hm : Member (op.apply t) user.userId) : Member t user.userId := by
  cases op with
  | create r parts => exact absurd trivial hclosed
  | join r sessionId indexItem priorityItem => exact join_closed hclosed hm
  | leave | update | delete | purge => exact h.elim

/-! ## Steps -/

variable {st : UserSessions} {e : UserEvent}

/-- The table is well formed, and the user's requests wait for nothing but their insertion. -/
structure Waits (user : AuthResult) (st : UserSessions) : Prop where
  store : StoreOk st.sessions
  passed : ∀ op ∈ st.waiting, Passed user op

/-- Between the purge and his next login the user is in no session. -/
def Out (user : AuthResult) (st : UserSessions) : Prop :=
  st.online = none ∨ st.purged = true → ¬ Member st.sessions user.userId

/-- A request inserts while the user is online and his disconnect has not purged yet, or the session
it asks for does not take him. -/
def InTime (st : UserSessions) : UserEvent → Prop
  | .insert i => (st.online ≠ none ∧ st.purged = false) ∨
      ∀ op, st.waiting[i]? = some op → ¬ op.Open st.sessions
  | _ => True

/-- He is in a session that no disconnect will purge any more. -/
def Stays (user : AuthResult) (st : UserSessions) : Prop :=
  Waits user st ∧ Member st.sessions user.userId ∧ (st.online = none ∨ st.purged = true)

/-- A step of the user's requests or of his disconnect. -/
def UserEvent.Own : UserEvent → Prop
  | .login _ | .others _ => False
  | _ => True

theorem Waits.check (h : Waits user st) {c : Bool} (hop : c = true → Passed user op) :
    Waits user (if c then { st with waiting := st.waiting ++ [op] } else st) := by
  split
  · rename_i hc
    refine ⟨h.store, fun op' hop' => ?_⟩
    rcases List.mem_append.mp hop' with hold | hnew
    · exact h.passed op' hold
    · rw [List.mem_singleton.mp hnew]
      exact hop hc
  · exact h

/-- What waits has passed its check. -/
theorem step_waits (h : Waits user st) (e : UserEvent) : Waits user (st.step user e) := by
  cases e with
  | login platform =>
    simp only [UserSessions.step]
    split
    · exact ⟨h.store, h.passed⟩
    · exact h
  | checkCreate r parts => exact h.check fun hc => ⟨rfl, hc⟩
  | checkJoin r sessionId indexItem priorityItem => exact h.check fun hc => ⟨rfl, hc⟩
  | insert i =>
    simp only [UserSessions.step]
    split
    · exact h
    · exact ⟨apply_storeOk h.store _, fun op hop => h.passed op (List.mem_of_mem_eraseIdx hop)⟩
  | purge order =>
    simp only [UserSessions.step]
    split
    · exact ⟨purgeUserFromSessions_storeOk h.store order _, h.passed⟩
    · exact h
  | remove =>
    simp only [UserSessions.step]
    split
    · exact ⟨h.store, h.passed⟩
    · exact h
  | others op =>
    simp only [UserSessions.step]
    split
    · exact h
    · exact ⟨apply_storeOk h.store _, h.passed⟩

/-- A step in time leaves the user out of the sessions if he was. -/
theorem step_out (h : Waits user st) (hout : Out user st) (he : InTime st e) :
    Out user (st.step user e) := by
  cases e with
  | login platform =>
    simp only [UserSessions.step]
    split
    · intro hgone
      simp at hgone
    · exact hout
  | checkCreate r parts =>
    simp only [UserSessions.step]
    split
    · exact hout
    · exact hout
  | checkJoin r sessionId indexItem priorityItem =>
    simp only [UserSessions.step]
    split
    · exact hout
    · exact hout
  | insert i =>
    simp only [UserSessions.step]
    split
    · exact hout
    · rename_i op hop
      intro hgone hm
      rcases he with ⟨honline, hpurged⟩ | hclosed
      · -- he is neither offline nor purged
        rcases hgone with hgone | hgone
        · exact honline hgone
        · rw [hpurged] at hgone
          cases hgone
      · have hpassed := h.passed op (List.mem_of_getElem? hop)
        exact hout hgone (hpassed.of_closed (hclosed op hop) hm)
  | purge order =>
    simp only [UserSessions.step]
    split
    · exact fun _ => not_member_purge h.store order
    · exact hout
  | remove =>
    simp only [UserSessions.step]
    split
    · rename_i hpurged
      exact fun _ => hout (Or.inr hpurged)
    · exact hout
  | others op =>
    simp only [UserSessions.step]
    split
    · exact hout
    · rename_i hother
      intro hgone hm
      obtain ⟨id, hm⟩ := hm
      rcases apply_within h.store hm with hold | henter
      · exact hout hgone ⟨id, hold⟩
      · exact hother henter

/-- One out of time puts him into a session. -/
theorem step_late (h : Waits user st) (he : ¬ InTime st e) :
    Stays user (st.step user e) := by
  cases e with
  | insert i =>
    simp only [InTime, not_or, not_and, not_forall, not_not] at he
    obtain ⟨hgone, op, hop, hopen⟩ := he
    refine ⟨step_waits h _, ?_⟩
    simp only [UserSessions.step, hop]
    refine ⟨(h.passed op (List.mem_of_getElem? hop)).member_of_open hopen, ?_⟩
    by_cases honline : st.online = none
    · exact Or.inl honline
    · exact Or.inr (by simpa using hgone honline)
  | _ => exact absurd trivial he

/-- From then on he stays in one, as long as the steps are his own and he does not log in. -/
theorem step_stays (h : Stays user st) (he : e.Own) : Stays user (st.step user e) := by
  refine ⟨step_waits h.1 e, ?_⟩
  obtain ⟨h, hm, hgone⟩ := h
  cases e with
  | login => exact he.elim
  | others => exact he.elim
  | checkCreate r parts =>
    simp only [UserSessions.step]
    split
    · exact ⟨hm, hgone⟩
    · exact ⟨hm, hgone⟩
  | checkJoin r sessionId indexItem priorityItem =>
    simp only [UserSessions.step]
    split
    · exact ⟨hm, hgone⟩
    · exact ⟨hm, hgone⟩
  | insert i =>
    simp only [UserSessions.step]
    split
    · exact ⟨hm, hgone⟩
    · rename_i op hop
      exact ⟨(h.passed op (List.mem_of_getElem? hop)).keeps hm, hgone⟩
  | purge order =>
    -- a disconnect purges once
    have hno : (st.online.isSome && !st.purged) = false := by
      rcases hgone with hgone | hgone
      · rw [hgone]; rfl
      · rw [hgone, Bool.not_true, Bool.and_false]
    simp only [UserSessions.step, hno]
    exact ⟨hm, hgone⟩
  | remove =>
    simp only [UserSessions.step]
    split
    · exact ⟨hm, Or.inl rfl⟩
    · exact ⟨hm, hgone⟩

/-! ## Runs -/

/-- Both have finished: he is offline and no request of his waits. -/
def Finished (st : UserSessions) : Prop := st.online = none ∧ st.waiting = []

/-- **Leaving by going offline.** If every request of the user inserts in time, then he is in no
session once his disconnect and his requests have finished. If one inserts out of time, he is in
one afterwards, and for as long as only his own steps follow. -/
theorem sessions_left (user : AuthResult) (es : List UserEvent) :
    ((∀ n (hn : n < es.length), InTime (userSessionsAfter user es n) es[n]) →
      ∀ n, Finished (userSessionsAfter user es n) →
        ¬ Member (userSessionsAfter user es n).sessions user.userId) ∧
    ∀ n (hn : n < es.length), ¬ InTime (userSessionsAfter user es n) es[n] →
      (∀ e ∈ es.drop (n + 1), e.Own) →
        Member (userSessionsAfter user es es.length).sessions user.userId := by
  have hempty : Waits user ⟨none, false, [], ∅⟩ := ⟨storeOk_empty, fun _ hop => nomatch hop⟩
  have hwaits : ∀ n, Waits user (userSessionsAfter user es n) := fun n =>
    runAt_inv hempty (fun _ e h => step_waits h e) es n
  constructor
  · intro hin n hfinished
    have hout : Out user ⟨none, false, [], ∅⟩ := fun _ ⟨_, _, hs, _⟩ => nomatch hs
    exact (runAt_guard (P := fun st => Waits user st ∧ Out user st) ⟨hempty, hout⟩
      (fun st e h he => ⟨step_waits h.1 e, step_out h.1 h.2 he⟩) hin n).2 (Or.inl hfinished.1)
  · intro n hn hlate hown
    have hstays : Stays user (userSessionsAfter user es (n + 1)) := by
      rw [userSessionsAfter, runAt_succ _ hn]
      exact step_late (hwaits n) hlate
    refine (runAt_from hstays (fun _ _ => step_stays) (fun m hm hnm => hown _ ?_) hn).2.1
    rw [List.mem_drop_iff_getElem]
    exact ⟨m - (n + 1), by omega, by simp only [Nat.add_sub_cancel' hnm]⟩

/-- A request whose body decodes to `obj`. -/
def bodyRequest (obj : JsonObject) : Request where
  qt := .ascii
  auth := .ok ⟨0, ""⟩
  clients _ := none
  getUserId _ := none
  fromJson _ := some (.obj obj)
  uuid := "1"
  now := 0
  order := .listed

/-- A create that finds the user online and inserts after he has gone. -/
def lateCreate : List UserEvent :=
  [.login "PS4",
    .checkCreate (bodyRequest [("sessionType", .str "owner-bind"), ("sessionMaxUser", .num 4),
      ("availablePlatforms", .arr [.str "PS4"])]) (some [⟨[], toUtf8 "session-request", []⟩]),
    .purge .listed, .remove, .insert 0]

/-- Both have finished, and the user is in the session he has created. -/
theorem late_create_member : ¬ ∀ user es n, Finished (userSessionsAfter user es n) →
    ¬ Member (userSessionsAfter user es n).sessions user.userId := by
  intro h
  have hoffline : (userSessionsAfter ⟨2, "bob"⟩ lateCreate 5).online = none := by decide +kernel
  have hwaiting : (userSessionsAfter ⟨2, "bob"⟩ lateCreate 5).waiting.length = 0 := by
    decide +kernel
  have hmembers : ((userSessionsAfter ⟨2, "bob"⟩ lateCreate 5).sessions.get? "001-1").map
      (fun s => s.members.map (·.userId)) = some [2] := by decide +kernel
  obtain ⟨s, hs, hms⟩ := Option.map_eq_some_iff.mp hmembers
  obtain ⟨m, hm, hmu⟩ := List.mem_map.mp (hms ▸ List.mem_singleton_self 2)
  exact h ⟨2, "bob"⟩ lateCreate 5 ⟨hoffline, List.length_eq_zero_iff.mp hwaiting⟩
    ⟨"001-1", s, hs, m, hm, hmu⟩

end ShadNet
