import ShadNet.Proof.Disconnect
import ShadNet.Proof.Online
import ShadNet.Proof.RoomTasks

/-!
# What members know of each other

A member starts with the ids in the reply to its `CreateRoom` or `JoinRoom`, and applies the events
that it is sent (`RoomEntry.view`).

* `step_view`: a view agrees with the room but for what the member is still owed.
* `room_events_ok`: so it is right whenever nothing is to be told, and every joiner is announced with
  his data, in all runs in which nobody comes or goes while something is still to be told of his id.
* `stranger_announced`: a member who is kicked before he is announced is announced as member 0.
-/

namespace ShadNet

open Lib

/-! ## Members and what they know -/

/-- A reply to `CreateRoom` or `JoinRoom`: the member, and the ids of all members. -/
structure RoomEntry where
  conn : ConnId
  key : RoomKey
  npid : String
  memberIds : List ℕ
deriving DecidableEq

/-- The room of a reply to `CreateRoom` or `JoinRoom`, and what it tells of it. -/
def Reply.entry : Reply → Option (ℕ × CreateJoinRoomResponse)
  | .matching (.createRoom roomId _ _ _ _ _ _ _ details) => some (roomId, details)
  | .matching (.joinRoom roomId _ _ _ _ details) => some (roomId, details)
  | _ => none

/-- Whoever comes into a room in this step, and how. -/
def RoomServer.entry (sv : Services) (w : RoomServer) : RoomAction → Option RoomEntry
  | .begin (.request c cmd env) => (w.idle c).bind fun session =>
      let r := dispatchCommand sv env c ⟨w.server.db, w.server.shared, session⟩ cmd
      (r.2.2.bind Reply.entry).map fun e =>
        ⟨c, (session.matching.matchingKey, e.1), session.info.npid, e.2.members.map (·.memberId)⟩
  | _ => none

namespace RoomEntry

variable (x : RoomEntry)

/-- What is sent tells the member this of its room. -/
def newsFor (s : SentEvent) : Option (News ℕ) :=
  if s.conn = x.conn ∧ s.event.roomId = x.key.2 then s.event.news else none

/-- The ids of the reply, brought up to date by the events that the member was sent. -/
def view (sent : List SentEvent) : List ℕ :=
  (sent.filterMap x.newsFor).foldl News.apply x.memberIds

/-- The member is in the room, and its connection is in a matching context and gets what is sent to
the user. -/
def Active (w : RoomServer) : Prop :=
  ((w.server.shared.matching.rooms.get? x.key).any fun room =>
    (room.findByNpid .listed x.npid).isSome) = true ∧
  ((w.server.shared.matchingClient x.npid).any fun client =>
    client.1 = x.conn ∧ client.2 ≠ 0) = true

instance (w : RoomServer) : Decidable (x.Active w) := instDecidableAnd

end RoomEntry

/-- **What the members of rooms know along a run.** Whoever stays in a room, in a context, knows the
ids of its members whenever nothing of the room is to be told; and whoever is announced is the member
whom the announcer has put there. -/
structure RoomEventsOk (sv : Services) (db : Database) (titleGroups : Table String String)
    (actions : List RoomAction) : Prop where
  views : ∀ n (hn : n < actions.length) m x,
    let w (k : ℕ) := roomServerAfter sv db titleGroups actions k
    (w n).entry sv actions[n] = some x → n < m → (∀ k, n < k → k ≤ m → x.Active (w k)) →
    (w m).Settled x.key.2 → ∀ mid, mid ∈ x.view ((w m).sent.drop (w n).sent.length) ↔
      mid ∈ (w m).server.shared.matching.memberIds x.key
  announced : ∀ n, ∀ s ∈ (roomServerAfter sv db titleGroups actions n).sent,
    s.event.Announces s.joined

/-! ## Views -/

variable {sv : Services} {w w' : RoomServer} {c d : ConnId} {a : RoomAction} {task : RoomTask}
  {joined : Option (ℕ × RoomMember)} {mid : ℕ} {x : RoomEntry} {start : ℕ}

theorem RoomEntry.Active.spec (h : x.Active w) :
    ∃ room ctxId, w.server.shared.matching.rooms.get? x.key = some room ∧ room.Has x.npid ∧
      ctxId ≠ 0 ∧ w.server.shared.matchingClient x.npid = some (x.conn, ctxId) := by
  obtain ⟨room, hget, hfound⟩ := (Option.any_eq_true _ _).mp h.1
  obtain ⟨⟨conn, ctxId⟩, hclient, hsend⟩ := (Option.any_eq_true _ _).mp h.2
  simp only [decide_eq_true_eq] at hsend
  obtain ⟨rfl, hctx⟩ := hsend
  exact ⟨room, ctxId, hget, findByNpid_isSome.mp hfound, hctx, hclient⟩

/-- A task that leads to an event for the member about somebody's id. -/
def RoomTask.Owes (x : RoomEntry) (mid : ℕ) (task : RoomTask) : Prop :=
  (∃ present, task.news = some (x.key.2, ⟨mid, present⟩)) ∧
  match task with
  | .announce _ _ npid => npid ≠ x.npid
  | .notifyRoomMembers _ _ excludeNpid => excludeNpid ≠ x.npid
  | .send c _ => c = x.conn
  | _ => False

/-- The ids of which the member is still to be told. -/
def RoomEntry.owed (x : RoomEntry) (w : RoomServer) : Set ℕ :=
  {mid | ∃ c, ∃ task ∈ w.tasksOf c, task.Owes x mid}

/-- A change is owed to whoever is to be told of it. -/
theorem RoomChange.owes {ch : RoomChange} (hkey : ch.key = x.key) (hnpid : ch.excludeNpid ≠ x.npid) :
    ∃ task ∈ ch.tasks, task.Owes x ch.memberId := by
  cases ch with
  | joined key member =>
    subst hkey
    exact ⟨_, List.mem_singleton_self _, ⟨true, rfl⟩, hnpid⟩
  | left key memberId npid =>
    subst hkey
    exact ⟨_, List.mem_singleton_self _, ⟨false, rfl⟩, hnpid⟩
  | kicked key memberId npid =>
    subst hkey
    exact ⟨_, List.mem_cons_of_mem _ (List.mem_singleton_self _), ⟨false, rfl⟩, hnpid⟩

/-- **What a task owes** is still owed after a step of it, unless it was sent. -/
theorem RoomTask.Owes.rest (h : task.Owes x mid) (hact : x.Active w)
    (hok : TaskOk w.server.shared.matching joined task)
    (hall : AllRooms MembersOk w.server.shared.matching) (order : Order ℕ)
    (hsend : ∀ c e, task ≠ .send c e) :
    ∃ task' ∈ task.rest w.server.shared order, task'.Owes x mid := by
  obtain ⟨room, ctxId, hroom, ⟨mid', p, hp, hnpid⟩, hctx, hclient⟩ := hact.spec
  cases task with
  | announce key memberId npid =>
    obtain ⟨⟨present, hnews⟩, hne⟩ := h
    obtain ⟨hsole, hmember⟩ := hok
    obtain ⟨hkey, hmid⟩ := Prod.mk.inj (Option.some.inj hnews)
    obtain ⟨rfl, rfl⟩ := News.mk.inj hmid
    obtain rfl := hsole.sole x.key room hroom hkey.symm
    -- the joiner is found under the id
    obtain ⟨member, kept, -, hkept, -⟩ := hmember room hroom
    refine ⟨_, List.mem_singleton_self _, ⟨true, ?_⟩, hne⟩
    simp only [RoomTask.news, roomMemberEvent, NotifyRoomEvent.news, hroom, Option.bind_some,
      Room.findById, hkept, Option.getD_some, buildRoomMemberData, Option.map_some,
      (hall _ _ hroom).stored _ _ hkept]
  | notifyRoomMembers matchingKey e excludeNpid =>
    obtain ⟨⟨present, hnews⟩, hne⟩ := h
    obtain ⟨hsole, -, -⟩ := hok
    obtain ⟨n, hn, heq⟩ := Option.map_eq_some_iff.mp hnews
    obtain ⟨hkey, rfl⟩ := Prod.mk.inj heq
    have hxkey : x.key = (matchingKey, e.roomId) := hsole.sole x.key room hroom hkey.symm
    -- the member is one of the recipients
    refine ⟨.send x.conn { e with ctxId }, ?_, ⟨present, hnews⟩, rfl⟩
    simp only [RoomTask.rest, ← hxkey, hroom]
    refine List.mem_filterMap.mpr ⟨(mid', p), Table.mem_inOrder.mpr hp, ?_⟩
    rw [if_neg (by rw [hnpid]; exact hne.symm), hnpid, hclient, Option.bind_some]
    exact sendTask_eq_some.mpr ⟨hctx, rfl⟩
  | send c e => exact absurd rfl (hsend c e)
  | sendMatchingNotification e npid => exact h.2.elim
  | cleanup env session => exact h.2.elim

/-- A message is news for an entry if it comes on its connection and is about its room. -/
theorem RoomEntry.newsFor_eq_some {s : SentEvent} {n : News ℕ} : x.newsFor s = some n ↔
    s.conn = x.conn ∧ s.event.roomId = x.key.2 ∧ s.event.news = some n := by
  unfold RoomEntry.newsFor
  split <;> simp_all

/-- What the member makes of one more event. -/
theorem RoomEntry.view_append (x : RoomEntry) (l : List SentEvent) (s : SentEvent) :
    x.view (l ++ [s]) = match x.newsFor s with
      | none => x.view l
      | some n => n.apply (x.view l) := by
  unfold RoomEntry.view
  rw [List.filterMap_append, List.foldl_append]
  cases h : x.newsFor s with
  | none => rw [List.filterMap_cons_none h]; rfl
  | some n => rw [List.filterMap_cons_some h]; rfl

/-- The member knows the room but for what it is owed. `start` is how much had been sent when it
entered. -/
structure ViewOk (x : RoomEntry) (start : ℕ) (w : RoomServer) : Prop where
  sent : start ≤ w.sent.length
  inStep : InStep {mid | mid ∈ w.server.shared.matching.memberIds x.key}
    (x.view (w.sent.drop start)) (x.owed w)

theorem Resumes.mem_tasksOf {tasks rest : List RoomTask} {task' : RoomTask}
    (h : Resumes w w' c task tasks rest) (htask : w.tasksOf c = task :: tasks)
    (hmem : task' ∈ w.tasksOf d) : (d = c ∧ task' = task) ∨ task' ∈ w'.tasksOf d := by
  by_cases hd : d = c
  · subst hd
    rw [htask] at hmem
    rcases List.mem_cons.mp hmem with rfl | hmem
    · exact Or.inl ⟨rfl, rfl⟩
    · right
      rw [h.tasksOf, if_pos rfl]
      exact List.mem_append_right _ hmem
  · right
    rw [h.tasksOf, if_neg hd]
    exact hmem

/-- A connection goes on with a task of its own. -/
theorem ViewOk.resumes {tasks : List RoomTask} {order : Order ℕ} (hv : ViewOk x start w)
    (h : TasksInv w) (hact : x.Active w) (htask : w.tasksOf c = task :: tasks)
    (hr : Resumes w w' c task tasks (task.rest w.server.shared order)) : ViewOk x start w' := by
  have hok := h.tasks c task (by rw [htask]; exact List.mem_cons_self)
  cases task with
  | send conn e =>
    -- the event goes out; it is applied if it is for the member
    have hsent : w'.sent.drop start = w.sent.drop start ++ [⟨conn, e, w.joined.get? c⟩] := by
      rw [hr.sent, List.drop_append_of_le_length hv.sent]
    refine ⟨?_, ?_⟩
    · rw [hr.sent, List.length_append]
      exact hv.sent.trans (Nat.le_add_right _ _)
    · rw [hr.matching, hsent, x.view_append]
      -- what was owed is owed, or was sent
      have howed : ∀ mid, mid ∈ x.owed w → (RoomTask.send conn e).Owes x mid ∨ mid ∈ x.owed w' := by
        rintro mid ⟨d, task', hmem, howes⟩
        rcases hr.mem_tasksOf htask hmem with ⟨-, rfl⟩ | hmem
        · exact Or.inl howes
        · exact Or.inr ⟨d, task', hmem, howes⟩
      obtain ⟨room, -, hroom, -⟩ := hact.spec
      split
      · -- no news for the member
        rename_i hnone
        refine hv.inStep.mono (fun _ => Iff.rfl) fun mid hmid => (howed mid hmid).resolve_left ?_
        rintro ⟨⟨present, hnews⟩, hconn⟩
        obtain ⟨n, hn, heq⟩ := Option.map_eq_some_iff.mp hnews
        rw [RoomEntry.newsFor_eq_some.mpr ⟨hconn, (Prod.mk.inj heq).1, hn⟩] at hnone
        cases hnone
      · rename_i n hsome
        obtain ⟨-, hkey, hn⟩ := RoomEntry.newsFor_eq_some.mp hsome
        refine hv.inStep.deliver ((hok.1 n hn).holds x.key room hroom hkey.symm) ?_
        intro mid hmid
        refine (howed mid hmid).imp ?_ id
        rintro ⟨⟨present, hnews⟩, -⟩
        obtain ⟨n', hn', heq⟩ := Option.map_eq_some_iff.mp hnews
        obtain rfl := Option.some.inj (hn.symm.trans hn')
        rw [(Prod.mk.inj heq).2]
  | _ =>
    -- nothing is sent yet
    all_goals
      have hsent : w'.sent = w.sent := by rw [hr.sent, List.append_nil]
      refine ⟨hsent ▸ hv.sent, ?_⟩
      rw [hr.matching, hsent]
      refine hv.inStep.mono (fun _ => Iff.rfl) ?_
      rintro mid ⟨d, task', hmem, howes⟩
      rcases hr.mem_tasksOf htask hmem with ⟨rfl, rfl⟩ | hmem
      · obtain ⟨task1, hrest, howes1⟩ := howes.rest hact hok h.rooms order (by nofun)
        refine ⟨d, task1, ?_, howes1⟩
        rw [hr.tasksOf, if_pos rfl]
        exact List.mem_append_left _ hrest
      · exact ⟨d, task', hmem, howes⟩

/-- **A view keeps in step** as long as the member is active. -/
theorem step_view (hx : x.npid ≠ "") (h : TasksInv w) (hv : ViewOk x start w) (hact : x.Active w)
    (hact' : x.Active (w.step sv a)) : ViewOk x start (w.step sv a) := by
  cases stepOf sv h.rooms a with
  | quiet hstep hmatching =>
    rw [hstep]
    refine ⟨hv.sent, ?_⟩
    simp only [hmatching]
    exact hv.inStep
  | @begins c server tasks hidle hstep htasks hchange hrooms hall =>
    obtain ⟨room, -, hroom, hhas, -⟩ := hact.spec
    obtain ⟨room', -, hroom', hhas', -⟩ := hact'.spec
    rw [hstep] at hroom' ⊢
    have hold : x.key.2 < w.server.shared.matching.nextRoomId := h.index.below _ _ hroom
    -- the connection had nothing to do, so what was owed is owed
    have howed : x.owed w ⊆ x.owed (w.busy c server (w.change a) tasks) := by
      rintro mid ⟨d, task, htask, howes⟩
      have hne : d ≠ c := by
        rintro rfl
        rw [hidle] at htask
        cases htask
      refine ⟨d, task, ?_, howes⟩
      rwa [tasksOf_busy, if_neg hne]
    -- who does not come or go is there as before
    have hsame : ∀ mid, (∀ ch ∈ w.change a, ch.key = x.key → ch.memberId ≠ mid) →
        (mid ∈ server.shared.matching.memberIds x.key ↔
          mid ∈ w.server.shared.matching.memberIds x.key) := by
      intro mid hmid
      obtain ⟨room0, hroom0, hkept⟩ := hchange.keptAt mid hroom' hold hmid
      exact hkept.mem_memberIds hroom0 hroom'
    refine ⟨hv.sent, ?_⟩
    by_cases hch : ∃ ch ∈ w.change a, ch.key = x.key
    · obtain ⟨ch, hch, hkey⟩ := hch
      have htold : ch.excludeNpid ≠ x.npid := by
        rw [hch] at hchange
        obtain ⟨room0, room1, hmakes⟩ := hchange
        obtain rfl := Option.some.inj (hmakes.before.symm.trans (hkey ▸ hroom))
        have hafter : server.shared.matching.rooms.get? x.key = some room1 := by
          rw [hmakes.after, hkey]
          exact Table.get?_set_self
        obtain rfl := Option.some.inj (hafter.symm.trans hroom')
        exact hmakes.told x.npid hx hhas hhas'
      obtain ⟨task, htask, howes⟩ := RoomChange.owes hkey htold
      refine hv.inStep.change (fun mid hne => hsame mid fun ch' hch' _ => ?_) howed
        ⟨c, task, ?_, howes⟩
      · obtain rfl := Option.mem_unique hch hch'
        exact hne.symm
      · rw [tasksOf_busy, if_pos rfl, hch]
        exact List.mem_append_left _ htask
    · push Not at hch
      exact hv.inStep.mono (fun mid => hsame mid fun ch hmem hkey => absurd hkey (hch ch hmem)) howed
  | resumes htask hr => exact hv.resumes h hact htask hr

/-! ## Names -/

variable {db : Database} {cs : CommandState} {env : Env} {s : Server}

/-- No account has the empty name, which `CmdCreate` refuses. -/
def Database.AllNamed (db : Database) : Prop := ∀ user ∈ db.accounts, user.username ≠ ""

/-- A registration keeps every account named. -/
theorem createAccount_allNamed (sv : Services) (h : db.AllNamed) (aenv : AccountEnv)
    (npid password avatarUrl email : String) :
    (createAccount sv aenv db npid password avatarUrl email).1.AllNamed := by
  rcases createAccount_cases sv aenv db npid password avatarUrl email with
    heq | ⟨account, hname, -, -, hnpid, heq⟩
  · rw [heq]
    exact h
  · rw [heq]
    intro user huser
    rcases List.mem_append.mp huser with hold | hnew
    · exact h user hold
    · obtain rfl := List.mem_singleton.mp hnew
      rwa [hnpid]

theorem cmdCreate_allNamed (h : cs.db.AllNamed) (req : Option RegistrationRequest) :
    (cmdCreate sv env cs req).1.db.AllNamed := by
  rcases cmdCreate_cases sv env cs req with ⟨e, he⟩ | ⟨r, avatarUrl, e, -, -, he⟩
  · rw [he]
    exact h
  · rw [he]
    exact createAccount_allNamed sv h env.account r.npid r.password avatarUrl r.email

/-- Accounts have names, and so has whoever is logged in. -/
structure CommandState.Named (cs : CommandState) : Prop where
  db : cs.db.AllNamed
  account : ∀ a ∈ cs.session.account, a.2 ≠ ""

/-- A login keeps every session named. -/
theorem cmdLogin_named (h : cs.Named) (req : Option LoginRequest) :
    (cmdLogin sv env c cs req).1.Named := by
  cases req with
  | none => exact h
  | some req =>
    unfold cmdLogin
    by_cases hacc : ∃ user, Accepted sv cs req user
    · obtain ⟨user, hacc⟩ := hacc
      rw [hacc.loginCheck]
      refine ⟨h.db, ?_⟩
      rintro a ⟨⟩
      exact h.db user (checkUser_found hacc.check).1
    · push Not at hacc
      obtain ⟨e, he⟩ := loginCheck_refused env hacc
      rw [he]
      exact h

/-- A deletion keeps every session named. -/
theorem cmdDelete_named (h : cs.Named) (req : Option (String × String)) :
    (cmdDelete sv env cs req).1.Named := by
  have hfilter (userId : ℤ) : (deleteUser cs.db userId).AllNamed :=
    fun user huser => h.db user (List.mem_of_mem_filter huser)
  rcases cmdDelete_cases sv env cs req with
    ⟨e, he⟩ | ⟨npid, password, user, -, -, -, -, he⟩ | ⟨userId, -, he⟩
  · rw [he]
    exact h
  · -- the caller is logged out
    rw [he]
    refine ⟨hfilter _, fun a ha => ?_⟩
    cases ha
  · rw [he]
    exact ⟨hfilter _, h.account⟩

theorem cmdCreate_named (h : cs.Named) (req : Option RegistrationRequest) :
    (cmdCreate sv env cs req).1.Named := by
  refine ⟨cmdCreate_allNamed h.db req, ?_⟩
  rw [(cmdCreate_quiet req).account]
  exact h.account

/-- Every command keeps accounts and sessions named. -/
theorem dispatch_named (sv : Services) (env : Env) (c : ConnId) (h : cs.Named) (cmd : Command) :
    (dispatchCommand sv env c cs cmd).1.Named := by
  unfold dispatchCommand
  split
  · cases cmd with
    | login req => exact cmdLogin_named h req
    | create req => exact cmdCreate_named h req
    | delete req => exact cmdDelete_named h req
    | setAppearOffline req => cases req <;> exact ⟨h.db, h.account⟩
    | contextStart ctxId => cases ctxId <;> exact ⟨h.db, h.account⟩
    | contextStop decoded => cases decoded <;> exact ⟨h.db, h.account⟩
    | score comId => cases comId <;> exact ⟨h.db, h.account⟩
    | _ => exact ⟨h.db, h.account⟩
  · cases cmd with
    | login req => exact cmdLogin_named h req
    | create req => exact cmdCreate_named h req
    | _ => exact h

/-- Accounts and all who are logged in have names. -/
structure Server.Named (s : Server) : Prop where
  db : s.db.AllNamed
  sessions : ∀ c session, s.conns.get? c = some session → ∀ a ∈ session.account, a.2 ≠ ""

theorem request_named (h : s.Named) (c : ConnId) (cmd : Command) (env : Env) :
    (s.step sv (.request c cmd env)).Named := by
  simp only [Server.step]
  cases hc : s.conns.get? c with
  | none => exact h
  | some session =>
    have hbefore : CommandState.Named ⟨s.db, s.shared, session⟩ :=
      ⟨h.db, h.sessions c session hc⟩
    have hnamed := dispatch_named sv env c hbefore cmd
    refine ⟨hnamed.db, fun d session' hd => ?_⟩
    rcases Table.of_get?_set hd with ⟨-, rfl⟩ | ⟨-, hold⟩
    · exact hnamed.account
    · exact h.sessions d session' hold

/-- Every action keeps accounts and sessions named. -/
theorem RoomServer.step_named (h : w.server.Named) (a : RoomAction) : (w.step sv a).server.Named := by
  cases a with
  | begin e =>
    cases e with
    | connect =>
      refine ⟨h.db, fun d session hd => ?_⟩
      rcases Table.of_get?_set hd with ⟨-, rfl⟩ | ⟨-, hold⟩
      · intro a ha
        cases ha
      · exact h.sessions d session hold
    | request c cmd env =>
      simp only [RoomServer.step]
      cases w.idle c with
      | none => exact h
      | some session => exact request_named h c cmd env
    | disconnect c env =>
      simp only [RoomServer.step]
      cases hleaving : w.leaving c with
      | none => exact h
      | some session =>
        have hc := (Server.live_eq_some.mp (leaving_eq_some hleaving).2).2
        have hsessions : ∀ d session', (w.server.conns.set c
            (session.cleanedUp env w.server.shared)).get? d = some session' →
            ∀ a ∈ session'.account, a.2 ≠ "" := by
          intro d session' hd
          rcases Table.of_get?_set hd with ⟨-, rfl⟩ | ⟨-, hold⟩
          · rw [ClientSession.cleanedUp_account]
            exact h.sessions c session hc
          · exact h.sessions d session' hold
        simp only [RoomServer.busy, Server.leaveOnDisconnect]
        split <;> exact ⟨h.db, hsessions⟩
  | resume c order =>
    simp only [RoomServer.step, RoomServer.resume]
    cases w.tasksOf c with
    | nil => exact h
    | cons task tasks =>
      cases task with
      | cleanup env session =>
        exact ⟨h.db, h.sessions⟩
      | _ => exact h

/-! ## Entries -/

theorem SeatsNobody.entry {reply : Option MatchingReply} (h : SeatsNobody reply) :
    (reply.map Reply.matching).bind Reply.entry = none := by
  cases reply with
  | none => rfl
  | some rep =>
    cases rep with
    | createRoom => exact h.elim
    | joinRoom => exact h.elim
    | room roomId => rfl

/-- Whoever is told that he has entered a room is logged in, and is told who is there. -/
theorem dispatch_entry (cs : CommandState) {cmd : Command} {e : ℕ × CreateJoinRoomResponse}
    (hall : AllRooms MembersOk cs.shared.matching)
    (h : (dispatchCommand sv env c cs cmd).2.2.bind Reply.entry = some e) :
    cs.session.authenticated = true ∧ ∃ room me, MembersOk room ∧
      e.2 = buildCreateJoinResponse room me ∧
      (dispatchCommand sv env c cs cmd).1.shared.matching.rooms.get?
        (cs.session.matching.matchingKey, e.1) = some room := by
  rcases dispatch_cases sv env c cs cmd with ⟨f, hauth, hf, heq⟩ | hother
  · refine ⟨hauth, ?_⟩
    rw [heq] at h ⊢
    simp only [onMatching] at h ⊢
    cases cmd <;> simp only [Command.onRooms, reduceCtorEq, Option.some.injEq] at hf <;> subst hf
    case createRoom req =>
      cases req with
      | none => cases h
      | some req =>
        obtain ⟨rid, _, _, _, _, _, _, room, me, hok, hreply, hroom⟩ :=
          cmdCreateRoom_reply cs.session.info env.matching
            ⟨cs.shared.matching, cs.session.matching⟩ req
        rw [hreply] at h
        obtain rfl := Option.some.inj h
        exact ⟨room, me, hok, rfl, hroom⟩
    case joinRoom req =>
      rcases cmdJoinRoom_cases cs.session.info env.matching
        ⟨cs.shared.matching, cs.session.matching⟩ req with
        ⟨-, hreply, -⟩ | ⟨r, room, _, _, _, -, hroom, -, hnew, hshared, -, hreply⟩
      · rw [hreply] at h
        cases h
      · rw [hreply] at h
        obtain rfl := Option.some.inj h
        rw [hshared]
        have hok := (join_seats _ (createJoiner cs.session.info env.matching r)).membersOk
          ((hall _ _ hroom).add (findByNpid_eq_none.mp hnew))
        exact ⟨_, _, hok, rfl, Table.get?_set_self⟩
    case leaveRoom roomId =>
      rw [(cmdLeaveRoom_noEntry (s := ⟨cs.shared.matching, cs.session.matching⟩) hall
        roomId).reply.entry] at h
      cases h
    case kickoutRoomMember req =>
      rw [(cmdKickoutRoomMember_noEntry req).reply.entry] at h
      cases h
    case setRoomDataInternal req =>
      rw [(cmdSetRoomDataInternal_noEntry req).reply.entry] at h
      cases h
    case setRoomDataExternal req =>
      rw [(cmdSetRoomDataExternal_noEntry req).reply.entry] at h
      cases h
  · obtain ⟨rep, hrep, hentry⟩ := Option.bind_eq_some_iff.mp h
    unfold Reply.entry at hentry
    split at hentry
    · exact absurd hrep (hother.reply _)
    · exact absurd hrep (hother.reply _)
    · cases hentry

/-- **A member begins with the room as it is.** -/
theorem entry_view (h : TasksInv w) (hnamed : w.server.Named) (hentry : w.entry sv a = some x) :
    x.npid ≠ "" ∧ ViewOk x w.sent.length (w.step sv a) := by
  unfold RoomServer.entry at hentry
  split at hentry
  · rename_i c cmd env
    obtain ⟨session, hidle, hentry⟩ := Option.bind_eq_some_iff.mp hentry
    obtain ⟨e, hreply, rfl⟩ := Option.map_eq_some_iff.mp hentry
    obtain ⟨-, hc⟩ := idle_eq_some hidle
    obtain ⟨hauth, room, me, hok, hdetails, hroom⟩ :=
      dispatch_entry ⟨w.server.db, w.server.shared, session⟩ h.rooms hreply
    have hserver : (w.step sv (.begin (.request c cmd env))).server.shared.matching =
        (dispatchCommand sv env c ⟨w.server.db, w.server.shared, session⟩ cmd).1.shared.matching := by
      simp only [RoomServer.step, hidle, RoomServer.busy, Server.step, hc]
    have hsent : (w.step sv (.begin (.request c cmd env))).sent = w.sent := by
      simp only [RoomServer.step, hidle, RoomServer.busy]
    refine ⟨?_, by rw [hsent], ?_⟩
    · refine hnamed.sessions c session hc (session.info.userId, session.info.npid) ?_
      unfold ClientSession.account
      rw [if_pos hauth]
      rfl
    · rw [hserver, hsent, List.drop_length]
      refine .refl fun mid => ?_
      have hmem : mid ∈ e.2.members.map (·.memberId) ↔ ∃ p, room.members.get? mid = some p := by
        rw [hdetails]
        exact mem_details hok me
      exact hmem.trans (mem_memberIds hroom).symm
  · cases hentry

/-! ## Runs -/

variable {titleGroups : Table String String} {actions : List RoomAction}

/-- Accounts and sessions are named along every run. -/
theorem roomServer_named (h : db.AllNamed) (n : ℕ) :
    (roomServerAfter sv db titleGroups actions n).server.Named := by
  refine runAt_inv (P := fun w : RoomServer => w.server.Named) ⟨h, ?_⟩ ?_ actions n
  · intro c session hc
    cases hc
  · intro w a hw
    exact w.step_named hw a

/-- What tasks tell is so along every undisturbed run. -/
theorem roomServer_tasksInv
    (hquiet : ∀ n (hn : n < actions.length),
      (roomServerAfter sv db titleGroups actions n).Undisturbed actions[n]) (n : ℕ) :
    TasksInv (roomServerAfter sv db titleGroups actions n) := by
  refine runAt_guard (P := TasksInv) (G := RoomServer.Undisturbed) ⟨?_, ?_, ?_, ?_⟩ ?_ hquiet n
  · intro key room hroom
    cases hroom
  · exact server_indexInv sv db titleGroups [] 0
  · intro c task htask
    cases htask
  · intro s hs
    cases hs
  · intro w a h hg
    exact step_tasksInv h hg

/-- **Members know each other.** In every run in which nobody comes or goes while something is
still to be told of his member id, the events that a member is sent bring the ids of its reply up to
those of the room whenever nothing of the room is to be told, and all announcements are right. -/
theorem room_events_ok (sv : Services) (db : Database) (titleGroups : Table String String)
    (actions : List RoomAction) (hnamed : db.AllNamed)
    (hquiet : ∀ n (hn : n < actions.length),
      (roomServerAfter sv db titleGroups actions n).Undisturbed actions[n]) :
    RoomEventsOk sv db titleGroups actions := by
  have hinv := roomServer_tasksInv hquiet
  refine ⟨?_, fun n => (hinv n).sent⟩
  intro n hn m x w hentry hnm hact hsettled mid
  obtain ⟨hx, hstart⟩ := entry_view (hinv n) (roomServer_named hnamed n) hentry
  have hview : ∀ m, n + 1 ≤ m → (∀ k, n < k → k ≤ m → x.Active (w k)) →
      ViewOk x (w n).sent.length (w m) := by
    intro m hnm
    induction m, hnm using Nat.le_induction with
    | base =>
      intro _
      simp only [w, roomServerAfter] at hstart ⊢
      rwa [runAt_succ _ hn]
    | succ m hnm ih =>
      intro hact
      have hm := ih fun k hk hkm => hact k hk (by omega)
      have hnow := hact m (by omega) (by omega)
      have hnext := hact (m + 1) (by omega) (by omega)
      by_cases hlt : m < actions.length
      · simp only [w, roomServerAfter] at hnext hm hnow ⊢
        rw [runAt_succ _ hlt] at hnext ⊢
        exact step_view hx (hinv m) hm hnow hnext
      · -- the run is over
        have hover : w (m + 1) = w m := by
          simp only [w, roomServerAfter]
          rw [runAt_min, min_eq_right (by omega), runAt_min _ _ m, min_eq_right (by omega)]
        rw [hover]
        exact hm
  refine (hview m (by omega) hact).inStep.settled (fun mid' howed => ?_) mid
  obtain ⟨c, task, htask, ⟨present, hnews⟩, -⟩ := howed
  exact hsettled task (mem_pending.mpr ⟨c, htask⟩) _ hnews rfl

/-- Alice creates a room, and Bob joins it. -/
def aliceAndBobMeet : List RoomAction :=
  [.begin .connect, .begin (.request 0 (.login (some ⟨"alice", "alice", "", "", "", false⟩)) .plain),
    .begin (.request 0 (.contextStart (some 1)) .plain), .begin .connect,
    .begin (.request 1 (.login (some ⟨"bob", "bob", "", "", "", false⟩)) .plain),
    .begin (.request 1 (.contextStart (some 1)) .plain),
    .begin (.request 0 (.createRoom (some { maxSlots := 4 })) .plain),
    .begin (.request 1 (.joinRoom (some { roomId := 1 })) .plain)]

/-- Alice is told, and kicks him. -/
theorem alice_knows_bob : RoomEventsOk .plain aliceAndBob ∅ (aliceAndBobMeet ++
    [.resume 1 .listed, .resume 1 .listed, .resume 1 .listed,
      .begin (.request 0 (.kickoutRoomMember (some ⟨1, 34, 0⟩)) .plain), .resume 0 .listed,
      .resume 0 .listed, .resume 0 .listed, .resume 0 .listed]) := by
  refine room_events_ok .plain aliceAndBob ∅ _ ?_ ?_
  · unfold Database.AllNamed
    decide
  · decide +kernel

/-- Alice kicks Bob before he is announced, and is then told of a member 0. -/
theorem stranger_announced : ¬ ∀ sv db titleGroups actions,
    Database.AllNamed db → RoomEventsOk sv db titleGroups actions := by
  intro h
  let actions := aliceAndBobMeet ++
    [.begin (.request 0 (.kickoutRoomMember (some ⟨1, 34, 0⟩)) .plain), .resume 0 .listed,
      .resume 0 .listed, .resume 0 .listed, .resume 0 .listed, .resume 1 .listed, .resume 1 .listed,
      .resume 1 .listed]
  have hok : RoomEventsOk .plain aliceAndBob ∅ actions :=
    h .plain aliceAndBob ∅ actions (by unfold Database.AllNamed; decide)
  have hentry : (roomServerAfter .plain aliceAndBob ∅ actions 6).entry .plain actions[6] =
      some ⟨0, ("", 1), "alice", [17]⟩ := by decide +kernel
  have hactive : ∀ k, k < 17 → 6 < k →
      RoomEntry.Active ⟨0, ("", 1), "alice", [17]⟩ (roomServerAfter .plain aliceAndBob ∅ actions k) := by
    decide +kernel
  have hgone : 0 ∉ (roomServerAfter .plain aliceAndBob ∅ actions
      16).server.shared.matching.memberIds ("", 1) := by decide +kernel
  have hsettled : (roomServerAfter .plain aliceAndBob ∅ actions 16).Settled 1 := by decide +kernel
  have hview := hok.views 6 (by decide) 16 _ hentry (by decide)
    (fun k hk hle => hactive k (by omega) hk) hsettled 0
  beta_reduce at hview
  -- she has been told of somebody who is not there
  refine absurd (hview.mp ?_) hgone
  decide +kernel

end ShadNet
