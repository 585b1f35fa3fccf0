import ShadNet.Proof.FriendList

/-!
# Friends who come and go

* `mirrors_one_iff`, `appearance_upToDate`: when one user appears otherwise than before, his flag is all
  that is to be told.
* `login_upToDate`, `disconnect_upToDate`: logins and disconnects are told.
* `setAppearOffline_upToDate_iff`: the switch is not.
-/

namespace ShadNet

open Lib FriendStatus

variable {sv : Services} {s : Server} {w : FriendLists} {e : Event} {cs : CommandState} {env : Env}
  {c c' : ConnId} {session : ClientSession} {clients clients' : Table ℤ ClientEntry}
  {t : Friendship} {u v o x : ℤ} {npid name : String}

/-- The friends in an entry are those of the table. -/
theorem mem_friends_iff {entry : ClientEntry} (h : CacheOk clients t) (he : clients.get? u = some entry) :
    x ∈ entry.friends.keys ↔ (relStatus t u x).areFriends = true := by
  have hset := h u _ (Option.mem_map.mpr ⟨entry, he, rfl⟩)
  rw [← bothFriends_iff_areFriends]
  exact Set.ext_iff.mp hset x

/-! ## One user -/

/-- **An event about one user**: his npid is all that can go wrong. -/
theorem mirrors_one_iff (h : ListsInv w.server) (hname : w.server.db.named npid = some u)
    (hold : Mirrors (w.lists c) (w.server.friendFlag v)) (hgiven : w.server.listGiven sv e c = none)
    (hdb : (w.server.step sv e).db = w.server.db)
    (happears : ∀ x, x ≠ u → appears (w.server.step sv e).shared.clients x =
      appears w.server.shared.clients x)
    (honly : ∀ m ∈ w.server.sent sv e, ∀ message, m.notification.message? = some message →
      message.key = npid) :
    Mirrors ((w.step sv e).lists c) ((w.server.step sv e).friendFlag v) ↔
      hears sv w.server e c npid (friendState w.server.db.friendship w.server.shared.clients v u) =
        friendState w.server.db.friendship (w.server.step sv e).shared.clients v u := by
  have hname' : (w.server.step sv e).db.named npid = some u := by rw [hdb, hname]
  rw [hear_iff hold hgiven]
  constructor
  · intro hall
    have hone := hall npid
    rwa [friendFlag_named hname, friendFlag_named hname', hdb] at hone
  · intro hone k
    by_cases hk : k = npid
    · rw [hk, friendFlag_named hname, friendFlag_named hname', hone, hdb]
    · rw [hears_none fun m hm message hsome _ hkey => hk (hkey.symm.trans (honly m hm message hsome))]
      unfold Server.friendFlag
      rw [hdb]
      cases hx : w.server.db.named k with
      | none => rfl
      | some x =>
        have hxu : x ≠ u := by
          rintro rfl
          exact hk (Option.some.inj ((h.named.mp hx).symm.trans (h.named.mp hname)))
        exact (friendState_congr rfl (shown_congr (happears x hxu))).symm

/-- **A change of how one user appears**, which is told to his friends, or is none. -/
theorem appearance_upToDate (h : ListsInv w.server) (hname : w.server.db.named npid = some u)
    (hw : w.UpToDate) (hv : w.server.Reached v c) (hgiven : w.server.listGiven sv e c = none)
    (hdb : (w.server.step sv e).db = w.server.db)
    (happears : ∀ x, x ≠ u → appears (w.server.step sv e).shared.clients x =
      appears w.server.shared.clients x)
    (honly : ∀ m ∈ w.server.sent sv e, ∀ message, m.notification.message? = some message →
      message = ⟨npid, .change (shown (w.server.step sv e).shared.clients u)⟩ ∧ ∃ f fe,
        (relStatus w.server.db.friendship u f).areFriends = true ∧
          w.server.shared.clients.get? f = some fe ∧ m.conn = fe.send)
    (htold : shown (w.server.step sv e).shared.clients u = shown w.server.shared.clients u ∨
      ∀ fe, (relStatus w.server.db.friendship u v).areFriends = true →
        w.server.shared.clients.get? v = some fe → ∃ m ∈ w.server.sent sv e, m.conn = fe.send ∧
          m.notification.message? =
            some ⟨npid, .change (shown (w.server.step sv e).shared.clients u)⟩) :
    Mirrors ((w.step sv e).lists c) ((w.server.step sv e).friendFlag v) := by
  rw [mirrors_one_iff h hname (hw v c hv) hgiven hdb happears fun m hm message hsome => by
    rw [(honly m hm message hsome).1]]
  unfold friendState
  by_cases hboth : (relStatus w.server.db.friendship v u).areFriends = true
  · rw [if_pos hboth, if_pos hboth]
    by_cases hsaid : ∃ m ∈ w.server.sent sv e, m.conn = c ∧ m.notification.message? =
        some ⟨npid, .change (shown (w.server.step sv e).shared.clients u)⟩
    · rw [hears_same (fun m hm message hsome _ _ => by rw [(honly m hm message hsome).1]) hsaid]
      rfl
    · -- nobody has told him, so that there was nothing to tell
      rw [hears_none fun m hm message hsome hconn _ =>
        hsaid ⟨m, hm, hconn, hsome.trans (by rw [(honly m hm message hsome).1])⟩]
      rcases htold with hsame | htold
      · rw [hsame]
      · obtain ⟨-, fe, hfe, hsend⟩ := hv
        obtain ⟨m, hm, hconn, hsome⟩ := htold fe (areFriends_comm.trans hboth) hfe
        exact absurd ⟨m, hm, hconn.trans hsend, hsome⟩ hsaid
  · rw [if_neg hboth, if_neg hboth]
    refine hears_none fun m hm message hsome hconn _ => ?_
    obtain ⟨-, f, fe, hfriend, hfe, hsend⟩ := honly m hm message hsome
    obtain rfl := h.owned.of_send hv hfe (hsend.symm.trans hconn)
    exact hboth (areFriends_comm.trans hfriend)

/-! ## Logins -/

/-- **The list that a login starts with** is right. -/
theorem get?_friendList (h : ListsInv s) {p : PendingLogin}
    (hrels : p.rels = getRelationships s.db p.user.userId true) (npid : String) :
    (loginReply s.shared p).friendList.get? npid = s.friendFlag p.user.userId npid := by
  have hfriends : ∀ f, f ∈ p.rels.friends ↔ s.db.named f.2 = some f.1 ∧
      (relStatus s.db.friendship p.user.userId f.1).areFriends = true := by
    intro f
    rw [hrels, h.named]
    exact mem_getRelationships h.friends.schema.ordered p.user.userId .friends f.1 f.2
  have hreply : (loginReply s.shared p).friends =
      p.rels.friends.map fun f => (f.2, shown s.shared.clients f.1) := by
    unfold loginReply
    refine List.map_congr_left fun f _ => ?_
    cases hf : s.shared.clients.get? f.1 with
    | none => rw [shown_of_none hf]
    | some entry => rw [shown_of_some hf]
  have hflag : ∀ f ∈ p.rels.friends,
      s.friendFlag p.user.userId f.2 = some (shown s.shared.clients f.1) := by
    intro f hf
    obtain ⟨hname, hrel⟩ := (hfriends f).mp hf
    rw [friendFlag_named hname]
    exact if_pos hrel
  unfold LoginReply.friendList
  rw [hreply, List.foldl_map,
    get?_foldl_set_of p.rels.friends (fun k => (s.friendFlag p.user.userId k).getD false)
      fun f hf => by rw [hflag f hf, Option.getD_some]]
  by_cases hf : ∃ f ∈ p.rels.friends, f.2 = npid
  · obtain ⟨f, hmem, rfl⟩ := hf
    rw [if_pos ⟨f, hmem, rfl⟩, hflag f hmem, Option.getD_some]
  · -- whoever has the name is no friend
    rw [if_neg hf]
    cases hnamed : s.db.named npid with
    | none => exact (friendFlag_unnamed hnamed).symm
    | some x =>
      rw [friendFlag_named hnamed]
      exact (if_neg fun hrel => hf ⟨(x, npid), (hfriends _).mpr ⟨hnamed, hrel⟩, rfl⟩).symm

/-- A login tells friends, and that its user is online. -/
theorem loginSent_said {sh : SharedState} {p : PendingLogin} {m : Sent} (hm : m ∈ loginSent sh p) :
    (∃ f ∈ p.rels.friends, ∃ fe, sh.clients.get? f.1 = some fe ∧ m.conn = fe.send) ∧
      p.req.appearOffline = false ∧ ∀ message, m.notification.message? = some message →
        message = ⟨p.req.npid, .change true⟩ := by
  unfold loginSent at hm
  split at hm
  · cases hm
  · rename_i happear
    obtain ⟨f, hf, hmem⟩ := List.mem_flatMap.mp hm
    split at hmem
    · cases hmem
    · rename_i fe hfe
      simp only [List.mem_cons, List.not_mem_nil, or_false] at hmem
      rcases hmem with rfl | rfl
      · exact ⟨⟨f, hf, fe, hfe, rfl⟩, by simpa using happear, fun _ h => (Option.some.inj h).symm⟩
      · exact ⟨⟨f, hf, fe, hfe, rfl⟩, by simpa using happear, fun _ h => by cases h⟩

/-- A login tells each friend online that the user is online, unless he appears offline. -/
theorem loginSent_friend {sh : SharedState} {p : PendingLogin} {f : ℤ × String} {fe : ClientEntry}
    (hf : f ∈ p.rels.friends) (hfe : sh.clients.get? f.1 = some fe)
    (happear : p.req.appearOffline = false) : ∃ m ∈ loginSent sh p, m.conn = fe.send ∧
      m.notification.message? = some ⟨p.req.npid, .change true⟩ := by
  refine ⟨⟨f.1, fe.send, p.user.userId, .friendStatus p.req.npid true⟩, ?_, rfl, rfl⟩
  unfold loginSent
  rw [happear, if_neg (by simp)]
  refine List.mem_flatMap.mpr ⟨f, hf, ?_⟩
  rw [hfe]
  exact List.mem_cons_self

/-- After a login its user is reached on its connection, the others where they were. -/
theorem login_reached {req : LoginRequest} {user : UserRecord}
    (hc : s.conns.get? c = some session) (hacc : Accepted sv ⟨s.db, s.shared, session⟩ req user)
    (hv : (s.step sv (.request c (.login (some req)) env)).Reached v c') :
    (v = user.userId ∧ c' = c) ∨ (v ≠ user.userId ∧ s.Reached v c') := by
  simp only [Server.step, hc, dispatch_login] at hv
  rw [reached_iff, login_directory hacc] at hv
  obtain ⟨hlive, npid, hentry⟩ := hv
  have hupdate : Function.update s.directory.entry user.userId (some (req.npid, c)) v = some (npid, c') := by
    split at hentry <;> exact hentry
  rw [Function.update_apply] at hupdate
  split at hupdate
  · rename_i hvu
    exact Or.inl ⟨hvu, (Prod.mk.inj (Option.some.inj hupdate)).2.symm⟩
  · rename_i hvu
    exact Or.inr ⟨hvu, reached_iff.mpr ⟨hlive, npid, hupdate⟩⟩

/-- What a login that is let through does. -/
structure LetIn (sv : Services) (s : Server) (e : Event) (c : ConnId) (p : PendingLogin) : Prop where
  db : (s.step sv e).db = s.db
  shared : (s.step sv e).shared = loginRegister s.shared c p
  gone : (s.step sv e).gone = s.gone
  sent : s.sent sv e = loginSent s.shared p
  given : ∀ c', s.listGiven sv e c' = if c = c' then some (loginReply s.shared p).friendList else none
  named : s.db.named p.req.npid = some p.user.userId
  offline : s.shared.clients.get? p.user.userId = none
  rels : p.rels = getRelationships s.db p.user.userId true

/-- **A login that is accepted** does just that. -/
theorem login_letIn {req : LoginRequest} {user : UserRecord} (h : ListsInv s)
    (hc : s.conns.get? c = some session) (hread : env.readOk = true)
    (hacc : Accepted sv ⟨s.db, s.shared, session⟩ req user) :
    LetIn sv s (.request c (.login (some req)) env) c
      ⟨user, req, getRelationships s.db user.userId true⟩ := by
  have hcheck : loginCheck sv env ⟨s.db, s.shared, session⟩ (some req) = _ := hacc.loginCheck
  rw [hread] at hcheck
  have hstep : s.step sv (.request c (.login (some req)) env) =
      { s with
        shared := loginRegister s.shared c ⟨user, req, getRelationships s.db user.userId true⟩
        conns := s.conns.set c (adoptUser s.shared session user req.titleId) } := by
    simp only [Server.step, hc, dispatch_login, cmdLogin, hcheck]
  refine ⟨by rw [hstep], by rw [hstep], by rw [hstep], ?_, fun c' => ?_, ?_, hacc.offline, rfl⟩
  · simp [Server.sent, hc, commandSent, hcheck]
  · simp [Server.listGiven, hc, hcheck]
  · -- the account is registered under the name that was asked for
    obtain ⟨hmem, hname⟩ := checkUser_found hacc.check
    rw [← hname]
    exact h.named.mpr (getUsername_of_mem h.ids hmem)

/-- A login changes nobody else's appearance. -/
theorem LetIn.others {p : PendingLogin} (h : LetIn sv s e c p) (hx : x ≠ p.user.userId) :
    appears (s.step sv e).shared.clients x = appears s.shared.clients x := by
  rw [h.shared, appears_loginRegister, if_neg hx]

/-- Its user appears as the request says. -/
theorem LetIn.shown {p : PendingLogin} (h : LetIn sv s e c p) :
    shown (s.step sv e).shared.clients p.user.userId = !p.req.appearOffline := by
  unfold ShadNet.shown
  rw [h.shared, appears_loginRegister, if_pos rfl]
  rfl

/-- The friends in its reply are those of the table. -/
theorem LetIn.friend_iff {p : PendingLogin} (h : LetIn sv s e c p) (hschema : s.db.Schema) :
    (∃ f ∈ p.rels.friends, f.1 = x) ↔ (relStatus s.db.friendship p.user.userId x).areFriends = true := by
  rw [h.rels, exists_friend_iff hschema, bothFriends_iff_areFriends]

/-- The user has his own list from the reply, and nobody tells him anything. -/
theorem LetIn.own {p : PendingLogin} (hl : LetIn sv w.server e c p) (h : ListsInv w.server)
    (hnobody : ∀ v, ¬ w.server.Reached v c) (hlive : c ∉ w.server.gone) :
    Mirrors ((w.step sv e).lists c) ((w.server.step sv e).friendFlag p.user.userId) := by
  intro k
  simp only [FriendLists.step, hl.given, if_true, Option.getD_some]
  rw [get?_foldl_hear, get?_friendList h hl.rels]
  refine (hears_none (s := w.server) fun m hm message _ hconn => ?_).trans ?_
  · rw [hl.sent] at hm
    obtain ⟨⟨f, -, fe, hfe, hsend⟩, -⟩ := loginSent_said hm
    exact absurd ⟨hlive, fe, hfe, hsend.symm.trans hconn⟩ (hnobody f.1)
  · unfold Server.friendFlag
    rw [hl.db]
    refine Option.bind_congr fun x _ => ?_
    by_cases hx : x = p.user.userId
    · unfold friendState
      rw [hx, not_areFriends_self h.friends.schema.ordered]
      rfl
    · exact (friendState_congr rfl (shown_congr (hl.others hx))).symm

/-- His friends are told, unless he appears offline. -/
theorem LetIn.mirrors {p : PendingLogin} (hl : LetIn sv w.server e c p) (h : ListsInv w.server)
    (hw : w.UpToDate) (hv : w.server.Reached v c') (hne : c ≠ c') :
    Mirrors ((w.step sv e).lists c') ((w.server.step sv e).friendFlag v) := by
  refine appearance_upToDate h hl.named hw hv ((hl.given c').trans (if_neg hne)) hl.db
    (fun x hx => hl.others hx) (fun m hm message hsome => ?_) ?_
  · rw [hl.sent] at hm
    obtain ⟨⟨f, hf, fe, hfe, hsend⟩, happear, hsaid⟩ := loginSent_said hm
    refine ⟨?_, f.1, fe, (hl.friend_iff h.friends.schema).mp ⟨f, hf, rfl⟩, hfe, hsend⟩
    rw [hsaid message hsome, hl.shown, happear]
    rfl
  · cases happear : p.req.appearOffline with
    | true =>
      left
      rw [hl.shown, happear, shown_of_none hl.offline]
      rfl
    | false =>
      refine Or.inr fun fe hrel hfe => ?_
      obtain ⟨f, hf, rfl⟩ := (hl.friend_iff h.friends.schema).mpr hrel
      rw [hl.sent, hl.shown, happear]
      exact loginSent_friend hf hfe happear

/-- **A login** is given its list, and its friends are told of it. -/
theorem login_upToDate {req : LoginRequest} {user : UserRecord} (h : ListsInv w.server)
    (hc : w.server.conns.get? c = some session) (hread : env.readOk = true)
    (honce : w.server.LoginsOnce (.request c (.login (some req)) env)) (hw : w.UpToDate)
    (hacc : Accepted sv ⟨w.server.db, w.server.shared, session⟩ req user) :
    (w.step sv (.request c (.login (some req)) env)).UpToDate := by
  have hl := login_letIn h hc hread hacc
  have hnobody := h.owned.unreached hc honce
  intro v c' hv
  rcases login_reached hc hacc hv with ⟨rfl, rfl⟩ | ⟨-, hold⟩
  · exact hl.own h hnobody (hl.gone ▸ hv.1)
  · exact hl.mirrors h hw hold fun heq => hnobody v (heq ▸ hold)

/-! ## Disconnects -/

/-- Whatever goes to friends is for one of them. -/
theorem toFriends_friend {sh : SharedState} {p : ℤ → Bool} {n : ClientEntry → List Notification}
    {entry : ClientEntry} (he : sh.clients.get? u = some entry) {m : Sent} (hm : m ∈ toFriends sh u p n) :
    ∃ f ∈ entry.friends.keys, ∃ fe, sh.clients.get? f = some fe ∧ m.conn = fe.send ∧
      m.notification ∈ n fe := by
  unfold toFriends at hm
  rw [he] at hm
  obtain ⟨f, hf, hmem⟩ := List.mem_flatMap.mp hm
  split at hmem
  · cases hmem
  · rename_i fe hfe
    obtain ⟨k, hk, rfl⟩ := List.mem_map.mp hmem
    exact ⟨f, (List.mem_filter.mp hf).1, fe, hfe, rfl, hk⟩

/-- Each friend who is online gets it. -/
theorem toFriends_mem {sh : SharedState} {p : ℤ → Bool} {n : ClientEntry → List Notification}
    {entry fe : ClientEntry} {k : Notification} (he : sh.clients.get? u = some entry)
    (hv : v ∈ entry.friends.keys) (hp : p v = true) (hfe : sh.clients.get? v = some fe) (hk : k ∈ n fe) :
    ⟨v, fe.send, u, k⟩ ∈ toFriends sh u p n := by
  unfold toFriends
  rw [he]
  refine List.mem_flatMap.mpr ⟨v, List.mem_filter.mpr ⟨hv, hp⟩, ?_⟩
  rw [hfe]
  exact List.mem_map.mpr ⟨k, hk, rfl⟩

/-- A disconnect tells friends, and that its user is not online. -/
theorem disconnectSent_said {sh : SharedState} {entry : ClientEntry}
    (he : sh.clients.get? session.info.userId = some entry) {m : Sent}
    (hm : m ∈ disconnectSent session sh) :
    (∃ f ∈ entry.friends.keys, ∃ fe, sh.clients.get? f = some fe ∧ m.conn = fe.send) ∧
      ∀ message, m.notification.message? = some message →
        message = ⟨session.info.npid, .change false⟩ := by
  unfold disconnectSent at hm
  simp only [he] at hm
  split at hm
  · cases hm
  · obtain ⟨f, hf, fe, hfe, hsend, hk⟩ := toFriends_friend he hm
    refine ⟨⟨f, hf, fe, hfe, hsend⟩, fun message hsome => ?_⟩
    simp only [List.mem_cons, List.not_mem_nil, or_false] at hk
    rcases hk with hk | hk <;> rw [hk] at hsome
    · exact (Option.some.inj hsome).symm
    · cases hsome

/-- A disconnect tells each friend online that the user has gone, unless he appeared offline. -/
theorem disconnectSent_friend {sh : SharedState} {entry fe : ClientEntry}
    (hauth : session.authenticated = true) (he : sh.clients.get? session.info.userId = some entry)
    (happear : entry.appearOffline = false) (hv : v ∈ entry.friends.keys)
    (hfe : sh.clients.get? v = some fe) : ∃ m ∈ disconnectSent session sh, m.conn = fe.send ∧
      m.notification.message? = some ⟨session.info.npid, .change false⟩ := by
  refine ⟨⟨v, fe.send, session.info.userId, .friendStatus session.info.npid false⟩, ?_, rfl, rfl⟩
  unfold disconnectSent
  simp only [he]
  rw [hauth, happear, if_neg (by simp)]
  exact toFriends_mem he hv rfl hfe List.mem_cons_self

/-- After a disconnect everybody is reached where he was. -/
theorem disconnect_reached (hc : s.live c = some session)
    (hv : (s.step sv (.disconnect c env)).Reached v c') : s.Reached v c' := by
  obtain ⟨hlive, entry, he, hsend⟩ := hv
  simp only [Server.step, hc] at hlive he
  rw [cleanup_clients] at he
  have hlive' : c' ∉ s.gone := fun hgone => hlive (List.mem_cons_of_mem _ hgone)
  split at he
  · exact ⟨hlive', entry, (Table.of_get?_del he).2, hsend⟩
  · exact ⟨hlive', entry, he, hsend⟩

/-- The connection of nobody who is online. -/
theorem disconnect_silent (hc : s.live c = some session)
    (hidle : session.authenticated = true → s.shared.clients.get? session.info.userId = none) :
    Silent sv s (.disconnect c env) := by
  refine ⟨fun v c' hv => disconnect_reached hc hv, fun v npid => ?_, fun m hm => ?_, fun _ => rfl⟩
  · have hclients : (s.step sv (.disconnect c env)).shared.clients = s.shared.clients := by
      simp only [Server.step, hc]
      rw [cleanup_clients]
      split
      · rename_i hauth
        exact Table.del_of_none (hidle hauth)
      · rfl
    have hdb : (s.step sv (.disconnect c env)).db = s.db := by simp only [Server.step, hc]
    exact friendFlag_congr (by rw [hdb]) (by rw [hdb]) (by rw [hclients]) v npid
  · simp only [Server.sent, hc] at hm
    unfold disconnectSent at hm
    simp only at hm
    split at hm
    · cases hm
    · rename_i entry he
      split at hm
      · cases hm
      · rename_i hvisible
        have hauth : session.authenticated = true := by
          by_contra hno
          exact hvisible (by simp [hno])
        rw [hidle hauth] at he
        cases he

/-- **A disconnect** is told to the friends who saw the user online. -/
theorem disconnect_upToDate (h : ListsInv w.server) (hw : w.UpToDate) :
    (w.step sv (.disconnect c env)).UpToDate := by
  cases hc : w.server.live c with
  | none =>
    have hstep : w.server.step sv (.disconnect c env) = w.server := by simp only [Server.step, hc]
    have hsilent : Silent sv w.server (.disconnect c env) := by
      refine ⟨fun v c' hv => hstep ▸ hv, fun v npid => by rw [hstep], fun m hm => ?_, fun _ => rfl⟩
      simp [Server.sent, hc] at hm
    exact hsilent.upToDate hw
  | some session =>
    by_cases hidle : session.authenticated = true →
        w.server.shared.clients.get? session.info.userId = none
    · exact (disconnect_silent hc hidle).upToDate hw
    simp only [Classical.not_imp, ← ne_eq, Option.ne_none_iff_exists'] at hidle
    obtain ⟨hauth, entry, he⟩ := hidle
    have hsent : w.server.sent sv (.disconnect c env) = disconnectSent session w.server.shared := by
      simp only [Server.sent, hc]
    have hclients : (w.server.step sv (.disconnect c env)).shared.clients =
        w.server.shared.clients.del session.info.userId := by
      simp only [Server.step, hc]
      rw [cleanup_clients, if_pos hauth]
    have hnow : shown (w.server.step sv (.disconnect c env)).shared.clients session.info.userId =
        false := by
      rw [hclients]
      exact shown_of_none Table.get?_del_self
    have hfriend : ∀ x, x ∈ entry.friends.keys ↔
        (relStatus w.server.db.friendship session.info.userId x).areFriends = true :=
      fun x => mem_friends_iff h.friends.cache he
    intro v c' (hv : (w.server.step sv (.disconnect c env)).Reached v c')
    refine appearance_upToDate h (h.caller_named (Server.live_eq_some.mp hc).2 hauth) hw
      (disconnect_reached hc hv) rfl (by simp only [Server.step, hc]) (fun x hx => ?_)
      (fun m hm message hsome => ?_) ?_
    · rw [hclients]
      unfold appears
      rw [Table.get?_del_ne hx]
    · rw [hsent] at hm
      obtain ⟨⟨f, hf, fe, hfe, hsend⟩, hsaid⟩ := disconnectSent_said he hm
      rw [hnow]
      exact ⟨hsaid message hsome, f, fe, (hfriend f).mp hf, hfe, hsend⟩
    · cases happear : entry.appearOffline with
      | true =>
        -- he has been shown as offline already
        left
        rw [hnow, shown_of_some he, happear]
        rfl
      | false =>
        refine Or.inr fun fe hrel hfe => ?_
        rw [hsent, hnow]
        exact disconnectSent_friend hauth he happear ((hfriend v).mpr hrel) hfe

/-! ## Appear-Offline -/

/-- No friend who is there sees the user appear otherwise than before. -/
def SwitchUnseen (s : Server) (session : ClientSession) (enable : Bool) : Prop :=
  ∀ entry, s.shared.clients.get? session.info.userId = some entry → entry.appearOffline ≠ enable →
    ∀ v ∈ entry.friends.keys, ∀ c, ¬ s.Reached v c

/-- After the switch the user is seen as it says. -/
theorem shown_modify {enable : Bool} {entry : ClientEntry} (he : clients.get? u = some entry) :
    shown (clients.modify u fun entry => { entry with appearOffline := enable }) u = !enable := by
  have hnow : (clients.modify u fun entry => { entry with appearOffline := enable }).get? u =
      some { entry with appearOffline := enable } := by
    rw [Table.get?_modify, if_pos rfl, he]
    rfl
  exact shown_of_some hnow

/-- Nobody is told of the switch, so that friends have to see the same as before. -/
theorem setAppearOffline_seen_iff {enable : Bool} (h : ListsInv w.server)
    (hc : w.server.conns.get? c = some session) (hauth : session.authenticated = true)
    (hw : w.UpToDate) :
    (w.step sv (.request c (.setAppearOffline (some enable)) env)).UpToDate ↔
      ∀ v c', w.server.Reached v c' →
        friendState w.server.db.friendship w.server.shared.clients v session.info.userId =
          friendState w.server.db.friendship (w.server.shared.clients.modify session.info.userId
            fun entry => { entry with appearOffline := enable }) v session.info.userId := by
  generalize he : Event.request c (.setAppearOffline (some enable)) env = e
  have hsilent : ∀ m ∈ w.server.sent sv e, m.notification.message? = none := by
    intro m hm
    rw [← he] at hm
    simp only [Server.sent, hc, commandSent, hauth, if_true] at hm
    exact setAppearOfflineSent_silent hm
  have hdb : (w.server.step sv e).db = w.server.db := by
    rw [← he]
    simp [Server.step, hc, dispatchCommand, hauth, cmdSetAppearOffline]
  have hclients : (w.server.step sv e).shared.clients = w.server.shared.clients.modify
      session.info.userId fun entry => { entry with appearOffline := enable } := by
    rw [← he]
    simp [Server.step, hc, dispatchCommand, hauth, cmdSetAppearOffline]
  have hothers : ∀ x, x ≠ session.info.userId →
      appears (w.server.step sv e).shared.clients x = appears w.server.shared.clients x := by
    intro x hx
    unfold appears
    rw [hclients, Table.get?_modify, if_neg hx]
  have hreached : ∀ v c', (w.server.step sv e).Reached v c' ↔ w.server.Reached v c' := by
    intro v c'
    refine reached_congr ?_ ?_ <;> rw [← he] <;> simp only [Server.step, hc]
    have hq : Quiet ⟨w.server.db, w.server.shared, session⟩ (dispatchCommand sv env c
        ⟨w.server.db, w.server.shared, session⟩ (.setAppearOffline (some enable))) := dispatch_quiet rfl
    exact hq.online.entry
  rw [← hclients]
  refine forall_congr' fun v => forall_congr' fun c' => ?_
  refine (imp_congr_left (hreached v c')).trans (imp_congr_right fun hv => ?_)
  have hgiven : w.server.listGiven sv e c' = none := by
    rw [← he]
    rfl
  have hone := mirrors_one_iff h (h.caller_named hc hauth) (hw v c' hv) hgiven hdb hothers
    fun m hm message hsome => by rw [hsilent m hm] at hsome; cases hsome
  rwa [hears_none fun m hm message hsome => by rw [hsilent m hm] at hsome; cases hsome] at hone

/-- **The switch** leaves a list wrong exactly when a friend who is there would have to see it. -/
theorem setAppearOffline_upToDate_iff {enable : Bool} (h : ListsInv w.server)
    (hc : w.server.conns.get? c = some session) (hauth : session.authenticated = true)
    (hw : w.UpToDate) :
    (w.step sv (.request c (.setAppearOffline (some enable)) env)).UpToDate ↔
      SwitchUnseen w.server session enable := by
  rw [setAppearOffline_seen_iff h hc hauth hw]
  constructor
  · intro hall entry hentry hne v hv c' hreach
    have hboth := areFriends_comm.trans ((mem_friends_iff h.friends.cache hentry).mp hv)
    have hsee := hall v c' hreach
    unfold friendState at hsee
    rw [if_pos hboth, if_pos hboth, shown_modify hentry, shown_of_some hentry] at hsee
    exact hne (Bool.not_inj (Option.some.inj hsee))
  · intro hunseen v c' hreach
    by_cases hboth : (relStatus w.server.db.friendship v session.info.userId).areFriends = true
    · cases hentry : w.server.shared.clients.get? session.info.userId with
      | none => rw [Table.modify_of_none hentry]
      | some entry =>
        refine (friendState_congr rfl ?_).symm
        rw [shown_modify hentry, shown_of_some hentry]
        by_contra hne
        have hmem := (mem_friends_iff h.friends.cache hentry).mpr (areFriends_comm.trans hboth)
        exact hunseen entry hentry (fun heq => hne (by rw [heq])) v hmem c' hreach
    · unfold friendState
      rw [if_neg hboth, if_neg hboth]

end ShadNet
