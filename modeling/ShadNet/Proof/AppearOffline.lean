import ShadNet.Proof.Online
import ShadNet.Proof.Presence

/-!
# Appear-Offline along a run

* `toldOffline_iff`: what an event tells a user about one who is hidden from him says that he is
  offline, exactly when the event does not complete a friendship between the two.
* `appear_offline_iff`: with the views of the Web API, along every run.
-/

namespace ShadNet

open Lib FriendStatus

variable {sv : Services} {s : Server} {cs : CommandState} {env : Env} {c : ConnId}
  {sh : SharedState} {t v o : ℤ} {name : String}

/-! ## Reports -/

/-- That a user is told whether another one is online. -/
structure Report where
  recipient : ℤ
  about : ℤ
  online : Bool

/-- Whether the notification says that somebody is online. -/
def Notification.online? : Notification → Option Bool
  | .friendNew _ online => some online
  | .friendStatus _ online => some online
  | _ => none

/-- The game status or data in it. -/
def Notification.data? : Notification → Option Json
  | .webApiPushEvent _ _ data _ _ => data
  | _ => none

/-- The flags of the friends in a `LoginReply`. -/
def loginReports (sh : SharedState) (p : PendingLogin) : List Report :=
  (p.rels.friends.zip (loginReply sh p).friends).map fun f => ⟨p.user.userId, f.1.1, f.2.2⟩

/-- What the reply to a login tells its client about others. -/
def Server.replyReports (sv : Services) (s : Server) : PresenceEvent → List Report
  | .server (.request c (.login req) env) =>
    match s.conns.get? c with
    | none => []
    | some session =>
      match loginCheck sv env ⟨s.db, s.shared, session⟩ req with
      | .error _ => []
      | .ok (_, p) => loginReports s.shared p
  | _ => []

/-- What `v` is told about `t` in an event. -/
structure ToldOffline (sv : Services) (s : Server) (e : PresenceEvent) (t v : ℤ) : Prop where
  reply : ∀ ρ ∈ s.replyReports sv e, ρ.recipient = v → ρ.about = t → ρ.online = false
  sent : ∀ m ∈ s.presenceSent sv e, m.recipient = v → m.about = t →
    m.notification.online? ≠ some true ∧ m.notification.data? = none

/-! ## Friendships that are formed -/

/-- The caller asks the account `o`, which has asked him, and neither has blocked the other. -/
structure Completes (cs : CommandState) (env : Env) (name : String) (o : ℤ) : Prop where
  found : getUserId cs.db name = some o
  ne : o ≠ cs.session.info.userId
  asked : ∃ rel, getRelStatus cs.db.friendship cs.session.info.userId o env.readOk = .ok rel ∧
    has rel.caller blocked = false ∧ has rel.other blocked = false ∧
    has rel.caller friend = false ∧ has rel.other friend = true
  writeOk : env.writeOk = true

/-- The two users whose friendship is completed are told of each other. -/
theorem Completes.sent (h : Completes cs env name o) (c : ConnId) :
    cmdFriendSent env c cs .addFriend (some name) =
      ⟨cs.session.info.userId, c, o, .friendNew name (cs.shared.clients.get? o).isSome⟩ ::
        sendNotification cs.shared o cs.session.info.userId
          fun _ => .friendNew cs.session.info.npid true := by
  obtain ⟨rel, hrel, hb, hb', hf, hf'⟩ := h.asked
  simp only [cmdFriendSent, FriendCommand.decide, cmdAddFriend, relDecision, h.found, if_neg h.ne, hrel,
    decideAddFriend, hb, hb', hf, Bool.or_self, Bool.false_eq_true, if_false, FriendCommand.apply,
    setRelStatus, h.writeOk, if_true, friendSent, hf', Option.getD_some]

/-- Decisions that `AddFriend` writes, when the other account has asked before. -/
theorem decideAddFriend_set {rel : RelResult} {friendId : ℤ} {newCaller newOther : UInt8}
    (h : decideAddFriend o rel = .set friendId newCaller newOther) (hf : has newOther friend = true) :
    friendId = o ∧ ∃ st, rel = .ok st ∧ has st.caller blocked = false ∧ has st.other blocked = false ∧
      has st.caller friend = false ∧ has st.other friend = true := by
  cases rel with
  | error => cases h
  | empty =>
    obtain ⟨-, -, rfl⟩ := RelDecision.set.inj h
    exact absurd hf (by decide)
  | ok st =>
    simp only [decideAddFriend] at h
    split at h
    · cases h
    · rename_i hblock
      split at h
      · cases h
      · rename_i hcaller
        obtain ⟨rfl, -, rfl⟩ := RelDecision.set.inj h
        rw [Bool.not_eq_true] at hblock hcaller
        obtain ⟨hb, hb'⟩ := Bool.or_eq_false_iff.mp hblock
        exact ⟨rfl, st, rfl, hb, hb', hcaller, hf⟩

/-- Only a friendship that is formed says who is online. -/
theorem friendSent_told {info : ClientInfo} {command : FriendCommandType} {rel : RelResult}
    {d : RelDecision} {m : Sent} (hm : m ∈ friendSent sh c info command name rel d) :
    m.notification.data? = none ∧ (m.notification.online? = none ∨ (command = .addFriend ∧
      ∃ friendId newCaller newOther, d = .set friendId newCaller newOther ∧
        has newOther friend = true)) := by
  have hsend : ∀ {target about : ℤ} {n : Notification},
      m ∈ sendNotification sh target about (fun _ => n) → m.notification = n := by
    intro target about n hmem
    obtain ⟨e, -, rfl⟩ := Option.map_eq_some_iff.mp (Option.mem_toList.mp hmem)
    rfl
  have hlost : ∀ {otherId : ℤ} {P : Prop}, m ∈ (⟨info.userId, c, otherId, .friendLost name⟩ : Sent) ::
      sendNotification sh otherId info.userId (fun _ => .friendLost info.npid) →
      m.notification.data? = none ∧ (m.notification.online? = none ∨ P) := by
    intro otherId P hmem
    rcases List.mem_cons.mp hmem with rfl | hother
    · exact ⟨rfl, Or.inl rfl⟩
    · rw [hsend hother]
      exact ⟨rfl, Or.inl rfl⟩
  unfold friendSent at hm
  simp only at hm
  split at hm
  · rename_i friendId newCaller newOther
    split at hm
    · rename_i hf
      refine ⟨?_, Or.inr ⟨rfl, friendId, newCaller, newOther, rfl, hf⟩⟩
      rcases List.mem_cons.mp hm with rfl | hother
      · rfl
      · rw [hsend hother]
        rfl
    · rw [hsend hm]
      exact ⟨rfl, Or.inl rfl⟩
  · exact hlost hm
  · exact hlost hm
  · split at hm
    · split at hm
      · exact hlost hm
      · cases hm
    · cases hm
  · cases hm

/-- No notification of a friend command says who is online, except those of a friendship completed.
-/
theorem cmdFriendSent_told {command : FriendCommandType} {npid : Option String} {m : Sent}
    (hm : m ∈ cmdFriendSent env c cs command npid) : m.notification.data? = none ∧
      (m.notification.online? = none ∨
        (command = .addFriend ∧ ∃ name o, npid = some name ∧ Completes cs env name o)) := by
  unfold cmdFriendSent at hm
  simp only at hm
  split at hm
  · rename_i happly
    obtain ⟨hdata, hnone | ⟨rfl, friendId, newCaller, newOther, hd, hf⟩⟩ := friendSent_told hm
    · exact ⟨hdata, Or.inl hnone⟩
    refine ⟨hdata, Or.inr ⟨rfl, ?_⟩⟩
    rw [hd] at happly
    have hwrite : env.writeOk = true := by
      by_contra hno
      simp [FriendCommand.apply, setRelStatus, hno] at happly
    simp only [FriendCommand.decide, cmdAddFriend, relDecision] at hd
    cases npid with
    | none => cases hd
    | some name =>
      simp only at hd
      cases hid : getUserId cs.db name with
      | none => simp [hid] at hd
      | some o =>
        simp only [hid] at hd
        split at hd
        · cases hd
        · rename_i hne
          obtain ⟨-, hasked⟩ := decideAddFriend_set hd hf
          exact ⟨name, o, rfl, hid, hne, hasked, hwrite⟩
  · cases hm

/-! ## What each command tells -/

/-- A notification that tells of nobody that he is online, nor what is played. -/
structure Notification.Quiet (n : Notification) : Prop where
  online : n.online? ≠ some true
  data : n.data? = none

/-- Whatever goes to friends is about the user. -/
theorem mem_toFriends {p : ℤ → Bool} {n : ClientEntry → List Notification} {userId : ℤ} {m : Sent}
    (hm : m ∈ toFriends sh userId p n) : m.about = userId ∧ ∃ fe, m.notification ∈ n fe := by
  unfold toFriends at hm
  split at hm
  · cases hm
  · obtain ⟨fid, -, hmem⟩ := List.mem_flatMap.mp hm
    split at hmem
    · cases hmem
    · rename_i fe _
      obtain ⟨k, hk, rfl⟩ := List.mem_map.mp hmem
      exact ⟨rfl, fe, hk⟩

/-- The switch tells of its user, and quietly if it hides him. -/
theorem setAppearOfflineSent_about {info : ClientInfo} {enable : Bool} {m : Sent}
    (hm : m ∈ setAppearOfflineSent sh info enable) :
    m.about = info.userId ∧ (enable = true → m.notification.Quiet) := by
  unfold setAppearOfflineSent at hm
  split at hm
  · cases hm
  · rename_i e _
    split at hm
    · cases hm
    · rcases List.mem_append.mp hm with hstatus | hgame
      · obtain ⟨habout, fe, hn⟩ := mem_toFriends hstatus
        rw [List.mem_singleton.mp hn]
        exact ⟨habout, fun _ => ⟨nofun, rfl⟩⟩
      · obtain ⟨habout, fe, hn⟩ := mem_toFriends hgame
        refine ⟨habout, ?_⟩
        -- values go along only when the switch is turned off
        simp only [List.mem_append, List.mem_ite_nil_right, List.mem_singleton] at hn
        rcases hn with (⟨-, hn⟩ | ⟨-, hn⟩) | ⟨-, hn⟩
        · rw [hn]
          exact fun _ => ⟨nofun, rfl⟩
        · rw [hn]
          rintro rfl
          exact ⟨nofun, rfl⟩
        · rw [hn]
          rintro rfl
          exact ⟨nofun, rfl⟩

theorem emitPresenceGameTitleInfo_quiet {info : ClientInfo} {m : Sent}
    (hm : m ∈ emitPresenceGameTitleInfo sh info) : m.notification.Quiet := by
  unfold emitPresenceGameTitleInfo at hm
  split at hm
  · cases hm
  · split at hm
    · cases hm
    · obtain ⟨-, fe, hn⟩ := mem_toFriends hm
      rw [List.mem_singleton.mp hn]
      exact ⟨nofun, rfl⟩

/-- A disconnect says nothing of being online. -/
theorem disconnectSent_quiet {session : ClientSession} {m : Sent}
    (hm : m ∈ disconnectSent session sh) : m.notification.Quiet := by
  unfold disconnectSent at hm
  simp only at hm
  split at hm
  · cases hm
  · split at hm
    · cases hm
    · obtain ⟨-, fe, hn⟩ := mem_toFriends hm
      simp only [List.mem_cons, List.not_mem_nil, or_false] at hn
      rcases hn with hn | hn <;> rw [hn] <;> exact ⟨fun h => (by cases h), rfl⟩

/-- A user of whom presence is published does not appear offline. -/
theorem handlePresenceWrite_visible {r : UserRequest} {leaf userKey : String} {body : List UInt8}
    {m : Sent} (hm : m ∈ (handlePresenceWrite r leaf userKey body sh).sent) :
    ∃ e, (handlePresenceWrite r leaf userKey body sh).clients.get? m.about = some e ∧
      e.appearOffline = false := by
  unfold handlePresenceWrite at hm ⊢
  cases hauth : r.auth with
  | error e => simp [hauth] at hm
  | ok auth =>
    simp only [hauth] at hm ⊢
    split at hm
    · cases hm
    · split at hm
      · cases hm
      · split at hm
        · cases hm
        · rename_i hself hleaf hlocal
          rw [if_neg hself, if_neg hleaf, if_neg hlocal]
          simp only at hm ⊢
          split at hm
          · cases hm
          · rename_i e he
            split at hm
            · cases hm
            · rename_i hoff
              rw [(mem_toFriends hm).1]
              exact ⟨e, he, Bool.not_eq_true _ ▸ hoff⟩

/-- A deletion is told only of a user who does not appear offline. -/
theorem handlePresenceDelete_visible {r : UserRequest} {field : DeleteField} {userKey : String}
    {m : Sent} (hm : m ∈ (handlePresenceDelete r field userKey sh).sent) :
    ∃ e, (handlePresenceDelete r field userKey sh).clients.get? m.about = some e ∧
      e.appearOffline = false := by
  unfold handlePresenceDelete at hm ⊢
  cases hauth : r.auth with
  | error e => simp [hauth] at hm
  | ok auth =>
    simp only [hauth] at hm ⊢
    split at hm
    · cases hm
    · rename_i hself
      rw [if_neg hself]
      simp only at hm ⊢
      split at hm
      · cases hm
      · rename_i e he
        split at hm
        · cases hm
        · rename_i hoff
          rw [(mem_toFriends hm).1]
          exact ⟨e, he, Bool.not_eq_true _ ▸ hoff⟩

/-! ## The switch in `clients` -/

/-- Whether each user who is online appears offline. -/
def appears (clients : Table ℤ ClientEntry) (uid : ℤ) : Option Bool :=
  (clients.get? uid).map (·.appearOffline)

theorem HiddenFrom.appears (h : HiddenFrom sh t v) : ShadNet.appears sh.clients t = some true := by
  obtain ⟨e, he, hoff⟩ := h.hidden
  unfold ShadNet.appears
  rw [he, Option.map_some, hoff]

/-- What a change of an entry leaves alone, nobody sees. -/
theorem appears_modify {clients : Table ℤ ClientEntry} {f : ClientEntry → ClientEntry} {u : ℤ}
    (hf : ∀ e, (f e).appearOffline = e.appearOffline) :
    appears (clients.modify u f) = appears clients := by
  funext uid
  unfold appears
  rw [Table.get?_modify]
  split
  · rename_i huid
    rw [huid, Option.map_map]
    exact congrArg (Option.map · _) (funext hf)
  · rfl

/-- Friends that are entered change nothing that is seen. -/
theorem appears_addOnlineFriends (l : List (ℤ × String)) (clients : Table ℤ ClientEntry) (userId : ℤ)
    (npid : String) :
    appears (l.foldl (fun t f => addOnlineFriend t f.1 userId npid) clients) = appears clients := by
  induction l generalizing clients with
  | nil => rfl
  | cons f l ih =>
    rw [List.foldl_cons, ih]
    exact appears_modify fun _ => rfl

/-- A login is seen as its request says; everybody else as before. -/
theorem appears_loginRegister (sh : SharedState) (c : ConnId) (p : PendingLogin) (uid : ℤ) :
    appears (loginRegister sh c p).clients uid =
      if uid = p.user.userId then some p.req.appearOffline else appears sh.clients uid := by
  have hold := congrFun (appears_addOnlineFriends p.rels.friends sh.clients p.user.userId p.req.npid) uid
  unfold appears at hold
  unfold loginRegister usageOnLogin appears
  rw [Table.get?_set]
  split
  · rfl
  · exact hold

/-! ## What each event tells -/

/-- The reply to a login says of each friend whether he is online and does not appear offline. -/
theorem mem_loginReports {p : PendingLogin} {ρ : Report} (h : ρ ∈ loginReports sh p) :
    ρ.recipient = p.user.userId ∧ (appears sh.clients ρ.about = some true → ρ.online = false) := by
  unfold loginReports loginReply at h
  simp only [← List.map_prod_left_eq_zip, List.map_map] at h
  obtain ⟨f, -, rfl⟩ := List.mem_map.mp h
  refine ⟨rfl, fun hoff => ?_⟩
  obtain ⟨e, he, hflag⟩ := Option.map_eq_some_iff.mp hoff
  simp only [Function.comp_apply] at he ⊢
  rw [he]
  simp only [hflag, Bool.not_true]

/-- A login that is told of belongs to a user who does not appear offline. -/
theorem loginSent_about {p : PendingLogin} {m : Sent} (hm : m ∈ loginSent sh p) :
    p.req.appearOffline = false ∧ m.about = p.user.userId := by
  unfold loginSent at hm
  split at hm
  · cases hm
  · rename_i hoff
    refine ⟨Bool.not_eq_true _ ▸ hoff, ?_⟩
    obtain ⟨f, -, hmem⟩ := List.mem_flatMap.mp hm
    split at hmem
    · cases hmem
    · simp only [List.mem_cons, List.not_mem_nil, or_false] at hmem
      rcases hmem with rfl | rfl <;> rfl

/-- The event completes a friendship, and tells `v` that `t` is online. -/
def Befriended (s : Server) (e : PresenceEvent) (t v : ℤ) : Prop :=
  ∃ c session name env o, e = .server (.request c (.friend .addFriend (some name)) env) ∧
    s.conns.get? c = some session ∧ session.authenticated = true ∧
    Completes ⟨s.db, s.shared, session⟩ env name o ∧
    ((session.info.userId = v ∧ o = t) ∨
      (session.info.userId = t ∧ o = v ∧ (s.shared.clients.get? v).isSome = true))

section event

variable {session : ClientSession}

/-- A login tells `v` nothing of one who is hidden after it. -/
theorem toldOffline_login {req : Option LoginRequest} (hc : s.conns.get? c = some session)
    (h : HiddenFrom (s.step sv (.request c (.login req) env)).shared t v) :
    ToldOffline sv s (.server (.request c (.login req) env)) t v := by
  simp only [Server.step, hc, dispatch_login, cmdLogin] at h
  constructor
  · intro ρ hρ hv ht
    simp only [Server.replyReports, hc] at hρ
    cases hcheck : loginCheck sv env ⟨s.db, s.shared, session⟩ req with
    | error e => simp [hcheck] at hρ
    | ok r =>
      simp only [hcheck] at hρ h
      obtain ⟨hrec, hflag⟩ := mem_loginReports hρ
      refine hflag ?_
      -- the login is that of `v`, so the switch of `t` is as it was
      have happ := h.appears
      rwa [appears_loginRegister, if_neg (by rw [← hrec, hv]; exact h.ne), ← ht] at happ
  · intro m hm hv ht
    simp only [Server.presenceSent, Server.sent, hc, commandSent] at hm
    cases hcheck : loginCheck sv env ⟨s.db, s.shared, session⟩ req with
    | error e => simp [hcheck] at hm
    | ok r =>
      simp only [hcheck] at hm h
      obtain ⟨hoff, habout⟩ := loginSent_about hm
      have happ := h.appears
      rw [appears_loginRegister, if_pos (by rw [← ht, habout]), hoff] at happ
      cases happ

/-- A friend command tells `v` of `t` exactly when it completes their friendship. -/
theorem toldOffline_friend {command : FriendCommandType} {npid : Option String}
    (hc : s.conns.get? c = some session) (hauth : session.authenticated = true)
    (h : HiddenFrom (s.step sv (.request c (.friend command npid) env)).shared t v) :
    ToldOffline sv s (.server (.request c (.friend command npid) env)) t v ↔
      ¬ Befriended s (.server (.request c (.friend command npid) env)) t v := by
  have hsent : s.presenceSent sv (.server (.request c (.friend command npid) env)) =
      cmdFriendSent env c ⟨s.db, s.shared, session⟩ command npid := by
    simp only [Server.presenceSent, Server.sent, hc, commandSent, hauth, if_true]
  have honline : (s.shared.clients.get? t).isSome = true := by
    obtain ⟨e, he, -⟩ := h.hidden
    simp only [Server.step, hc, dispatchCommand, hauth, if_true] at he
    have hquiet : Quiet ⟨s.db, s.shared, session⟩
        (cmdFriend env ⟨s.db, s.shared, session⟩ command npid) := cmdFriend_quiet command npid
    have hentry := congrFun hquiet.online.entry t
    unfold SharedState.entry at hentry
    rw [he] at hentry
    have := congrArg Option.isSome hentry
    simpa using this.symm
  constructor
  · rintro htold ⟨c', session', name, env', o, heq, hc', -, hcomp, hwho⟩
    obtain ⟨rfl, ⟨rfl, rfl⟩, rfl⟩ : c = c' ∧ (command = .addFriend ∧ npid = some name) ∧ env = env' := by
      simpa using heq
    obtain rfl := Option.some.inj (hc.symm.trans hc')
    have hno := htold.sent
    rw [hsent, hcomp.sent] at hno
    rcases hwho with ⟨rfl, rfl⟩ | ⟨rfl, rfl, hv⟩
    · refine (hno _ List.mem_cons_self rfl rfl).1 ?_
      simp only [Notification.online?, honline]
    · obtain ⟨e, he⟩ := Option.isSome_iff_exists.mp hv
      refine (hno ⟨o, e.send, session.info.userId, .friendNew session.info.npid true⟩
        (List.mem_cons_of_mem _ ?_) rfl rfl).1 rfl
      simp [sendNotification, he]
  · intro hnot
    refine ⟨fun ρ hρ => (by cases hρ), fun m hm hv ht => ?_⟩
    rw [hsent] at hm
    obtain ⟨hdata, hnone | ⟨rfl, name, o, rfl, hcomp⟩⟩ := cmdFriendSent_told hm
    · exact ⟨by rw [hnone]; simp, hdata⟩
    refine absurd ⟨c, session, name, env, o, rfl, hc, hauth, hcomp, ?_⟩ hnot
    rw [hcomp.sent] at hm
    rcases List.mem_cons.mp hm with rfl | hother
    · exact Or.inl ⟨hv, ht⟩
    · obtain ⟨e, he, rfl⟩ := Option.map_eq_some_iff.mp (Option.mem_toList.mp hother)
      simp only at hv ht he
      exact Or.inr ⟨ht, hv, by rw [← hv, he]; rfl⟩

/-- Of whoever the switch hides, nobody is told that he is online. -/
theorem toldOffline_setAppearOffline {req : Option Bool} (hc : s.conns.get? c = some session)
    (h : HiddenFrom (s.step sv (.request c (.setAppearOffline req) env)).shared t v) :
    ToldOffline sv s (.server (.request c (.setAppearOffline req) env)) t v := by
  refine ⟨nofun, fun m hm hv ht => ?_⟩
  simp only [Server.presenceSent, Server.sent, hc] at hm
  cases req with
  | none => cases hm
  | some enable =>
  simp only [commandSent] at hm
  split at hm
  · rename_i hauth
    obtain ⟨habout, hquiet⟩ := setAppearOfflineSent_about hm
    -- `t` is hidden afterwards, so it is turned on
    have hon : enable = true := by
      have happ := h.appears
      simp only [Server.step, hc, dispatchCommand, hauth, if_true, cmdSetAppearOffline, appears] at happ
      rw [Table.get?_modify, if_pos (by rw [← ht, habout]), Option.map_map] at happ
      obtain ⟨e, -, he⟩ := Option.map_eq_some_iff.mp happ
      exact he
    exact ⟨(hquiet hon).online, (hquiet hon).data⟩
  · cases hm

/-- An event whose messages about `t` are quiet. -/
theorem toldOffline_of_quiet {e : PresenceEvent} (hreply : s.replyReports sv e = [])
    (hsent : ∀ m ∈ s.presenceSent sv e, m.about = t → m.notification.Quiet)
    (hne : ∀ c name env, e ≠ .server (.request c (.friend .addFriend name) env)) :
    ToldOffline sv s e t v ↔ ¬ Befriended s e t v := by
  refine iff_of_true ⟨fun ρ hρ => ?_, fun m hm _ ht => ?_⟩ ?_
  · rw [hreply] at hρ
    cases hρ
  · exact ⟨(hsent m hm ht).online, (hsent m hm ht).data⟩
  · rintro ⟨c, session, name, env, o, heq, -⟩
    exact hne c (some name) env heq

/-- Presence is pushed about those only who are visible. -/
theorem HiddenFrom.not_visible {sh : SharedState} (h : HiddenFrom sh t v) {m : Sent}
    (hvisible : ∃ e, sh.clients.get? m.about = some e ∧ e.appearOffline = false) :
    m.about ≠ t := by
  rintro rfl
  obtain ⟨e, he, hoff⟩ := hvisible
  obtain ⟨e', he', hon⟩ := h.hidden
  obtain rfl := Option.some.inj (he.symm.trans he')
  rw [hoff] at hon
  cases hon

/-- The request does not arrive. -/
theorem toldOffline_absent {cmd : Command} (hc : s.conns.get? c = none) :
    ToldOffline sv s (.server (.request c cmd env)) t v ↔
      ¬ Befriended s (.server (.request c cmd env)) t v := by
  refine iff_of_true ⟨?_, ?_⟩ ?_
  · intro ρ hρ
    cases cmd <;> simp [Server.replyReports, hc] at hρ
  · intro m hm
    simp [Server.presenceSent, Server.sent, hc] at hm
  · rintro ⟨c', session, name, env', o, heq, hc', -⟩
    obtain ⟨rfl, -, -⟩ : c = c' ∧ _ ∧ _ := by simpa using heq
    rw [hc] at hc'
    cases hc'

/-- A friend command before a login. -/
theorem toldOffline_unauthenticated {command : FriendCommandType} {npid : Option String}
    (hc : s.conns.get? c = some session) (hauth : session.authenticated = false) :
    ToldOffline sv s (.server (.request c (.friend command npid) env)) t v ↔
      ¬ Befriended s (.server (.request c (.friend command npid) env)) t v := by
  refine iff_of_true ⟨nofun, fun m hm => ?_⟩ ?_
  · simp only [Server.presenceSent, Server.sent, hc] at hm
    rw [commandSent, hauth] at hm
    cases hm
  · rintro ⟨c', session', _, _, _, heq, hc', hauth', -⟩
    obtain ⟨rfl, -, -⟩ : c = c' ∧ _ ∧ _ := by simpa using heq
    obtain rfl := Option.some.inj (hc.symm.trans hc')
    rw [hauth] at hauth'
    cases hauth'

/-- **What an event tells** a user about one who is hidden from him says that he is offline, exactly
when it does not complete a friendship of the two. -/
theorem toldOffline_iff (e : PresenceEvent) (h : HiddenFrom (s.presenceStep sv e).shared t v) :
    ToldOffline sv s e t v ↔ ¬ Befriended s e t v := by
  cases e with
  | put r leaf userKey body =>
    refine toldOffline_of_quiet rfl (fun m hm ht => ?_) fun c name env h => by cases h
    exact absurd ht (h.not_visible (handlePresenceWrite_visible hm))
  | delete r field userKey =>
    refine toldOffline_of_quiet rfl (fun m hm ht => ?_) fun c name env h => by cases h
    exact absurd ht (h.not_visible (handlePresenceDelete_visible hm))
  | server e =>
    cases e with
    | connect => exact toldOffline_of_quiet rfl (fun m hm _ => by cases hm) fun c name env h => by cases h
    | disconnect c env =>
      refine toldOffline_of_quiet rfl (fun m hm _ => ?_) fun c name env h => by cases h
      simp only [Server.presenceSent, Server.sent] at hm
      split at hm
      · cases hm
      · exact disconnectSent_quiet hm
    | request c cmd env =>
      cases hc : s.conns.get? c with
      | none => exact toldOffline_absent hc
      | some session =>
        have hsent : s.presenceSent sv (.server (.request c cmd env)) =
            commandSent sv env c ⟨s.db, s.shared, session⟩ cmd := by
          simp only [Server.presenceSent, Server.sent, hc]
        cases cmd with
        | login req =>
          refine iff_of_true (toldOffline_login hc h) ?_
          rintro ⟨_, _, _, _, _, heq, -⟩
          cases heq
        | setAppearOffline req =>
          refine iff_of_true (toldOffline_setAppearOffline hc h) ?_
          rintro ⟨_, _, _, _, _, heq, -⟩
          cases heq
        | friend command npid =>
          cases hauth : session.authenticated with
          | true => exact toldOffline_friend hc hauth h
          | false => exact toldOffline_unauthenticated hc hauth
        | score comId =>
          refine toldOffline_of_quiet rfl (fun m hm _ => ?_) fun c name env h => by cases h
          rw [hsent] at hm
          cases comId with
          | none => cases hm
          | some comId =>
            simp only [commandSent] at hm
            split at hm
            · exact emitPresenceGameTitleInfo_quiet hm
            · cases hm
        | _ =>
          refine toldOffline_of_quiet rfl (fun m hm _ => ?_) fun c name env h => by cases h
          rw [hsent] at hm
          cases hm

end event

/-! ## Runs -/

/-- **Appear-Offline.** At every point of a run the views of the Web API hide those who appear
offline, and what every event tells unasked does so, exactly when no event completes a friendship
with a user who is hidden from the other. -/
theorem appear_offline_iff (sv : Services) (db : Database) (events : List PresenceEvent) :
    let state := presenceAfter sv db events
    ((∀ n t v, HiddenFrom (state n).shared t v → ViewsOffline (state n).shared t v) ∧
      ∀ n (hn : n < events.length) t v, HiddenFrom (state (n + 1)).shared t v →
        ToldOffline sv (state n) events[n] t v) ↔
    ∀ n (hn : n < events.length) t v, HiddenFrom (state (n + 1)).shared t v →
      ¬ Befriended (state n) events[n] t v := by
  intro state
  have hstep : ∀ n (hn : n < events.length) t v, HiddenFrom (state (n + 1)).shared t v →
      (ToldOffline sv (state n) events[n] t v ↔ ¬ Befriended (state n) events[n] t v) := by
    intro n hn t v h
    refine toldOffline_iff events[n] ?_
    rw [show state (n + 1) = _ from runAt_succ _ hn] at h
    exact h
  constructor
  · rintro ⟨-, htold⟩ n hn t v h
    exact (hstep n hn t v h).mp (htold n hn t v h)
  · intro hnot
    refine ⟨fun n t v h => views_offline h, fun n hn t v h => ?_⟩
    exact (hstep n hn t v h).mpr (hnot n hn t v h)

/-- Alice appears offline and accepts Bob's friend request: Bob is told that she is online. -/
theorem alice_told_online :
    let events : List PresenceEvent := [.server .connect, .server .connect,
      .server (.request 0 (.login (some ⟨"alice", "alice", "", "", "", true⟩)) .plain),
      .server (.request 1 (.login (some ⟨"bob", "bob", "", "", "", false⟩)) .plain),
      .server (.request 1 (.friend .addFriend (some "alice")) .plain),
      .server (.request 0 (.friend .addFriend (some "bob")) .plain)]
    let state := presenceAfter .plain aliceAndBob events
    HiddenFrom (state 6).shared 1 2 ∧
      ¬ ToldOffline .plain (state 5) (.server (.request 0 (.friend .addFriend (some "bob")) .plain)) 1 2 := by
  intro events state
  have hhidden : ∃ e ∈ (state 6).shared.clients.get? 1, e.appearOffline = true := by decide +kernel
  obtain ⟨e, he, hoff⟩ := hhidden
  refine ⟨⟨by decide, ⟨e, he, hoff⟩, Or.inl (by decide +kernel)⟩, fun htold => ?_⟩
  have hsent : ∃ m ∈ (state 5).presenceSent .plain
      (.server (.request 0 (.friend .addFriend (some "bob")) .plain)),
      m.recipient = 2 ∧ m.about = 1 ∧ m.notification.online? = some true := by decide +kernel
  obtain ⟨m, hm, hv, ht, honline⟩ := hsent
  exact (htold.sent m hm hv ht).1 honline

end ShadNet
